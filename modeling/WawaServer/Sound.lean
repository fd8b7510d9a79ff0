import WawaServer.Effects

/-!
# Soundness of the channel table

`Sound` collects what holds at every point of every run, inside callbacks too: a slot that
was ever used knows its index and its watchers carry its descriptor; the packet in a send
buffer fits and names no other connection; and `channel_map` leads from an open descriptor
to an active channel with that descriptor.
-/

namespace WawaServer

/-- What holds of the channel in slot `c` by itself. Descriptor `0` means never used. -/
structure SlotOk (c : Slot) (ch : Channel) : Prop where
  idx : ch.fd ≠ 0 → ch.idx = c
  fd_lt : ch.fd < 2 ^ 31
  recvFd : ch.recvCtx.io.fd = ch.fd
  sendFd : ch.sendCtx.io.fd = ch.fd
  recvUsed : ch.recvCtx.io.active = true → ch.fd ≠ 0
  sendUsed : ch.sendCtx.io.active = true → ch.fd ≠ 0
  len_le : ch.sendCtx.pkg.len ≤ bufSize
  pkgFd : ch.sendCtx.pkg.fd = 0 ∧ ch.sendCtx.pkg.len ≤ sizeofInt ∨ ch.sendCtx.pkg.fd = ch.fd

/-- A slot that was never used: `g_channels` is zero. -/
theorem SlotOk.unused (c : Slot) : SlotOk c Channel.unused where
  idx h := absurd rfl h
  fd_lt := by decide
  recvFd := rfl
  sendFd := rfl
  recvUsed h := by cases h
  sendUsed h := by cases h
  len_le := by simp [Channel.unused]
  pkgFd := by simp [Channel.unused]

namespace Server

open Pkg

/-- What holds at every point of every run, inside callbacks too. -/
structure Sound (s : Server) : Prop where
  slot : ∀ c, SlotOk c (s.channel c)
  map : ∀ fd c, s.channelMap[fd]? = some c → (s.channel c).fd = fd ∧ fd ≠ 0 ∧
    (s.channel c).status = .active ∧ s.opened fd = true
  src : ∀ c a, (s.channel c).sendCtx.pSrcChannel = some a → (s.channel a).fd ≠ 0

variable {s t : Server} {c d : Slot} {p : Pkg}

namespace Sound

/-- At the start no slot was used and `channel_map` is empty. -/
theorem boot : boot.Sound where
  slot := SlotOk.unused
  map fd c h := by simp [Server.boot] at h
  src c a h := by simp [Server.boot, Channel.unused] at h

/-- `Sound` reads the channels, the map and the open descriptors only. -/
theorem congr (h : s.Sound) (hc : t.channel = s.channel) (hm : t.channelMap = s.channelMap)
    (ho : t.opened = s.opened) : t.Sound where
  slot := by rw [hc]; exact h.slot
  map := by rw [hc, hm, ho]; exact h.map
  src := by rw [hc]; exact h.src

/-- `channel_map` leads from a descriptor to a channel that has it. -/
theorem fd_eq (h : s.Sound) {fd : ℕ} (hm : s.channelMap[fd]? = some c) : (s.channel c).fd = fd :=
  (h.map fd c hm).1

/-- The descriptor `0`, which is for the server itself, is in no entry of `channel_map`. -/
theorem fd_ne_zero (h : s.Sound) {fd : ℕ} (hm : s.channelMap[fd]? = some c) : fd ≠ 0 :=
  (h.map fd c hm).2.1

/-- A slot that `channel_map` leads to was used. -/
theorem used (h : s.Sound) {fd : ℕ} (hm : s.channelMap[fd]? = some c) : (s.channel c).fd ≠ 0 :=
  h.fd_eq hm ▸ h.fd_ne_zero hm

/-- A slot that `channel_map` leads to owns its descriptor. -/
theorem live (h : s.Sound) {fd : ℕ} (hm : s.channelMap[fd]? = some c) : s.Live c := by
  rw [Globals.Live, h.fd_eq hm]
  exact hm

/-- `idx` of a channel that was used is its place in `g_channels`. -/
theorem idx_eq (h : s.Sound) (hu : (s.channel c).fd ≠ 0) : (s.channel c).idx = c :=
  (h.slot c).idx hu

/-- Two keys of `channel_map` never lead to one slot. -/
theorem map_inj (h : s.Sound) {fd fd' : ℕ} (hm : s.channelMap[fd]? = some c)
    (hm' : s.channelMap[fd']? = some c) : fd = fd' :=
  (h.fd_eq hm).symm.trans (h.fd_eq hm')

/-- The test of `status` after a lookup never fails. -/
theorem lookup_eq (h : s.Sound) (fd : ℕ) : s.lookup fd = s.channelMap[fd]? := by
  unfold Globals.lookup
  cases hm : s.channelMap[fd]? with
  | none => rfl
  | some c => simp [(h.map fd c hm).2.2.1]

/-! ## Assignments -/

theorem modify {f : Channel → Channel} (h : s.Sound) (hok : SlotOk c (f (s.channel c)))
    (hfd : (f (s.channel c)).fd = (s.channel c).fd)
    (hst : (s.channel c).status = .active → (f (s.channel c)).status = .active)
    (hsrc : ∀ a, (f (s.channel c)).sendCtx.pSrcChannel = some a → (s.channel a).fd ≠ 0) :
    (s.modify c f).Sound where
  slot d := by
    rw [modify_channel]
    split
    · subst d; exact hok
    · exact h.slot d
  map fd d hm := by
    obtain ⟨h1, h2, h3, h4⟩ := h.map fd d hm
    rw [modify_channel]
    split
    · subst d; exact ⟨hfd.trans h1, h2, hst h3, h4⟩
    · exact ⟨h1, h2, h3, h4⟩
  src d a ha := by
    -- a source, new or old, is a channel in use
    have hd : (s.channel a).fd ≠ 0 := by
      rw [modify_channel] at ha
      split at ha
      · exact hsrc a ha
      · exact h.src d a ha
    rw [modify_channel]
    split
    · subst a; rw [hfd]; exact hd
    · exact hd

/-- The record of calls is not read. -/
theorem enter (h : s.Sound) (k : Call) : (s.enter k).Sound := h.congr rfl rfl rfl

theorem fail (h : s.Sound) (f : Fault) : (s.fail f).Sound := h.congr rfl rfl rfl

theorem popped (h : s.Sound) (fd off n : ℕ) : (s.popped fd off n).Sound := h.congr rfl rfl rfl

/-- What was sent is not read. -/
theorem wrote (h : s.Sound) (fd : ℕ) (p : Pkg) (off n k : ℕ) : (s.wrote fd p off n k).Sound :=
  h.congr rfl rfl rfl

theorem setCut (h : s.Sound) (c : Slot) (a : Option Slot) : (s.setCut c a).Sound :=
  h.congr rfl rfl rfl

/-- A channel may become active at any time: `channel_map` leads to active channels only. -/
theorem setActive (h : s.Sound) (c : Slot) : (s.setStatus c .active).Sound :=
  h.modify { h.slot c with } rfl (fun _ => rfl) (h.src c)

theorem setType (h : s.Sound) (c : Slot) (ty : ClientType) : (s.setType c ty).Sound :=
  h.modify { h.slot c with } rfl id (h.src c)

theorem setRecvLen (h : s.Sound) (c : Slot) (n : ℕ) : (s.setRecvLen c n).Sound :=
  h.modify { h.slot c with } rfl id (h.src c)

/-- Nothing is said about the receive buffer. -/
theorem setRecvPkg (h : s.Sound) (c : Slot) (p : Pkg) : (s.setRecvPkg c p).Sound :=
  h.modify { h.slot c with } rfl id (h.src c)

theorem setSendLen (h : s.Sound) (c : Slot) (n : ℕ) : (s.setSendLen c n).Sound :=
  h.modify { h.slot c with } rfl id (h.src c)

/-- `pSrcChannel` is set to channels that were used. -/
theorem setSrcChannel (h : s.Sound) (c : Slot) {a : Slot} (ha : (s.channel a).fd ≠ 0) :
    (s.setSrcChannel c a).Sound :=
  h.modify { h.slot c with } rfl id fun b hb => by
    obtain rfl : a = b := Option.some.inj hb
    exact ha

/-- A packet in the send buffer fits and is for the server's own use or for the channel. -/
theorem setSendPkg (h : s.Sound) {p : Pkg} (hlen : p.len ≤ bufSize)
    (hfd : p.fd = 0 ∧ p.len ≤ sizeofInt ∨ p.fd = (s.channel c).fd) : (s.setSendPkg c p).Sound :=
  (h.modify (f := fun ch => { ch with sendCtx.pkg := p })
    { h.slot c with len_le := hlen, pkgFd := hfd } rfl id (h.src c)).congr rfl rfl rfl

/-- A receive watcher is started on a channel that was used. -/
theorem startRecv (h : s.Sound) (hu : (s.channel c).fd ≠ 0) : (s.startRecv c).Sound :=
  h.modify { h.slot c with recvUsed := fun _ => hu } rfl id (h.src c)

theorem stopRecv (h : s.Sound) (c : Slot) : (s.stopRecv c).Sound :=
  h.modify { h.slot c with recvUsed := nofun } rfl id (h.src c)

/-- A send watcher is started on a channel that was used. -/
theorem startSend (h : s.Sound) (hu : (s.channel c).fd ≠ 0) : (s.startSend c).Sound :=
  h.modify { h.slot c with sendUsed := fun _ => hu } rfl id (h.src c)

theorem stopSend (h : s.Sound) (c : Slot) : (s.stopSend c).Sound :=
  h.modify { h.slot c with sendUsed := nofun } rfl id (h.src c)

/-- The bridges are not read. -/
theorem unbridged (h : s.Sound) (fd : ℕ) (r : Slot) : (s.unbridged fd r).Sound :=
  (h.setActive r).congr rfl rfl rfl

/-- `free_channel` finds the channel in the slot that `idx` names. -/
theorem freeChannel_eq (h : s.Sound) (hu : (s.channel c).fd ≠ 0) : s.freeChannel c = s.freed c :=
  Server.freeChannel_eq (h.idx_eq hu)

/-- The slot keeps its descriptor in `free_channel`, and no entry leads there any more. -/
theorem freed (h : s.Sound) (hu : (s.channel c).fd ≠ 0) : (s.freed c).Sound := by
  refine ⟨fun d => ?_, fun fd d hm => ?_, fun d a ha => ?_⟩
  · rw [freed_channel]
    split
    · subst d
      exact { h.slot c with recvUsed := nofun, sendUsed := nofun }
    · exact h.slot d
  · rw [freed_channelMap] at hm
    obtain ⟨hne, hm⟩ := hm
    obtain ⟨h1, h2, h3, h4⟩ := h.map fd d hm
    -- an entry that is left is not that of the freed descriptor
    have hdc : d ≠ c := by rintro rfl; exact hne h1.symm
    rw [freed_channel, if_neg hdc, freed_opened, if_neg hne]
    exact ⟨h1, h2, h3, h4⟩
  · have hd : (s.channel a).fd ≠ 0 := by
      rw [freed_channel] at ha
      split at ha
      · exact h.src c a ha
      · exact h.src d a ha
    rw [freed_channel]
    split
    · exact hu
    · exact hd

end Sound

/-! ## Effects -/

/-- A reply is for the channel in whose send buffer it is. -/
theorem Replies.fd_eq (h : s.Replies c p) (hs : s.Sound) : (s.channel c).fd = p.fd :=
  hs.fd_eq h.live

/-- A reply in the send buffer of the requester. -/
theorem Sound.replying (hs : s.Sound) (h : s.Replies c p) : (s.replying c p).Sound :=
  ((hs.setSendPkg h.len (.inr (h.fd_eq hs).symm)).enter _).setSendLen c 0

/-- The RESTART of `check_break_fd` is a packet of its own, and is in no send buffer. -/
theorem Sound.notifying (hs : s.Sound) (fd : ℕ) (c : Slot) (p : Pkg) :
    (s.notifying fd c p).Sound :=
  ((hs.enter _).enter _).setSendLen c 0

/-- A relayed packet in the send buffer of its destination. -/
theorem Sound.relaying (hs : s.Sound) {pkg : Pkg} {srcfd dstfd : ℕ} {a : Slot}
    (h : s.Relays pkg srcfd dstfd a d) : (s.relaying pkg srcfd dstfd d).Sound := by
  refine ((hs.enter _).setSendPkg ?_ (.inr ?_)).setSendLen d 0
  · rw [len_copyFrame _ h.len]; exact h.len
  · rw [fd_copyFrame _ h.len, h.fd]; exact (hs.fd_eq h.dst).symm

theorem Sound.sending (hs : s.Sound) (c : Slot) (k : ℕ) : (s.sending c k).Sound :=
  ((hs.enter _).wrote ..).setSendLen ..

/-- At the end of a frame both watchers of the channel are touched; it was used, because its send
watcher was started. -/
theorem Sound.finishing (hs : s.Sound) (h : (s.channel c).sendCtx.io.active = true) (k : ℕ) :
    (s.finishing c k).Sound := by
  refine (((hs.sending c k).stopSend c).startRecv ?_).setCut c none
  simpa [Server.sending] using (hs.slot c).sendUsed h

theorem Sound.effect (hs : s.Sound) (h : Effect s t) : t.Sound := by
  cases h with
  | log k => exact hs.enter k
  | answers q => exact hs.congr rfl rfl rfl
  | fail f => exact hs.fail f
  | free c h => exact hs.freed h.1
  | register pkg c ty => exact (hs.enter _).setType c ty
  | listFull pkg c p h _ _ hfd hlen =>
    refine ((hs.enter _).setType c _).setSendPkg (by rw [hlen]; decide) (.inr ?_)
    simpa [hs.fd_eq h] using hfd
  | replyCut c p k h =>
    apply (((hs.replying h).wrote ..).setSendLen c k).startSend
    simpa [Server.replying] using hs.used h.live
  | replyDone c p h =>
    apply ((hs.replying h).wrote ..).startRecv
    simpa [Server.replying] using hs.used h.live
  | replyFail c p h => exact (hs.replying h).popped ..
  | startLost d p hfd hlen h =>
    -- the START keeps the address that the buffer had, or has none
    have hbuf : p.fd = 0 ∧ p.len ≤ sizeofInt ∨ p.fd = (s.channel d).fd := by
      rcases (hs.slot d).pkgFd with h0 | h0
      · exact .inl ⟨hfd.trans h0.1, hlen.le⟩
      · exact .inr (hfd.trans h0)
    exact (hs.setSendPkg (by rw [hlen]; decide) hbuf).enter _
  | bridge fd d => exact hs.congr rfl rfl rfl
  | breakLost fd r => exact ((hs.enter _).enter _).unbridged fd r
  | breakCut fd r c p k h =>
    refine ((((hs.notifying fd c p).wrote ..).setSendLen c k).startSend ?_).unbridged fd r
    simpa [Server.notifying] using hs.used h.live
  | breakDone fd r c p h =>
    refine (((hs.notifying fd c p).wrote ..).startRecv ?_).unbridged fd r
    simpa [Server.notifying] using hs.used h.live
  | breakFail fd r c p h =>
    refine (((hs.notifying fd c p).popped ..).freed ?_).unbridged fd r
    simpa [Server.notifying] using hs.used h.live
  | relayCut pkg srcfd dstfd a d k h =>
    refine ((((((hs.relaying h).wrote ..).setSendLen d k).stopRecv a).startSend
      ?_).setSrcChannel d ?_).setCut d _
    · simpa [Server.relaying] using hs.used h.dst
    · simpa [Server.relaying] using hs.used h.src
  | relayDone pkg srcfd dstfd a d h =>
    apply (((hs.relaying h).wrote ..).stopSend d).startRecv
    simpa [Server.relaying] using hs.used h.src
  | relayFail pkg srcfd dstfd a d h => exact (hs.relaying h).popped ..
  | sendMore c k => exact hs.sending c k
  | sendOver c k a h _ _ ha =>
    apply (hs.finishing h k).startRecv
    simpa [Server.finishing, Server.sending] using hs.src c a ha
  | sendNull c k h => exact (hs.finishing h k).fail _
  | sendFail c => exact (hs.enter _).popped ..

/-- Every update of a run of effects is sound. -/
theorem Sound.effects (hs : s.Sound) (h : Effects s t) : t.Sound := by
  induction h with
  | refl => exact hs
  | tail _ h ih => exact ih.effect h

end Server
end WawaServer
