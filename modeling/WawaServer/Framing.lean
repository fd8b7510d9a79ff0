import WawaServer.Reachable
import WawaServer.SendBounds
import WawaServer.Lib.Frames

/-!
# Framing of the output

The bytes that `send` accepted on a connection should be whole frames, each of which `response`
or `dispatch` was asked to deliver, and the beginning of one more. A connection has one send
buffer; `response` and `dispatch` write it, and send, without asking whether a frame in it is
half sent.
-/

namespace WawaServer

/-- The packets `response` and `dispatch` were asked to deliver to the connection last accepted
under `fd`. Both deliver to `stHead.fd`. -/
def asked (fd : ℕ) : History → List Pkg
  | [] => []
  | (k, _) :: l =>
    match k with
    | .acceptCb fd' => if fd' = fd then [] else asked fd l
    | .response pkg | .dispatch pkg _ _ => if pkg.fd = fd then pkg :: asked fd l else asked fd l
    | _ => asked fd l

/-- `f` is the frame of a packet that was asked for. -/
def Asked (fd : ℕ) (l : History) (f : List UInt8) : Prop :=
  ∃ p ∈ asked fd l, p.len ≤ bufSize ∧ p.frame = f

instance (fd : ℕ) (l : History) (f : List UInt8) : Decidable (Asked fd l f) :=
  inferInstanceAs (Decidable (∃ _ ∈ _, _ ∧ _))

/-- A frame to `c` is sent in part. -/
def Globals.MidFrame (s : Globals) (c : Slot) : Prop :=
  (s.channel c).sendCtx.io.active = true ∧ 0 < (s.channel c).sendCtx.len

instance (s : Globals) (c : Slot) : Decidable (s.MidFrame c) :=
  inferInstanceAs (Decidable (_ ∧ _))

/-- Nothing is sent to a connection in the middle of a frame, no reply is built in a buffer and
not sent while a frame is pending in it, a RESTART is sent at once or not at all, and not at
all only if the frame that is then sent again was asked for; and a slot that lost its
descriptor does not send on it. -/
def FrameSafe : Call → Globals → History → Prop
  | .response pkg, g, _ => ∀ c ∈ g.channelMap[pkg.fd]?, ¬ g.MidFrame c
  | .dispatch pkg srcfd dstfd, g, _ => pkg.len ≤ bufSize → g.channelMap[srcfd]? ≠ none →
      ∀ d ∈ g.channelMap[dstfd]?, ¬ g.MidFrame d
  | .handleRegisterClientReq pkg, g, _ => pkg.clientType = ClientType.remote.code →
      ∀ c ∈ g.channelMap[pkg.fd]?, 8 ≤ (g.raspisFor c).length →
        (g.channel c).sendCtx.io.active = false
  | .checkBreakFd type fd, g, l => type = .remote → ∀ r ∈ g.bridgeMap[fd]?,
      ∀ c ∈ g.channelMap[(g.channel r).fd]?,
        (∀ k < sizeofInt + sizeofHead, g.restartOutcome r ≠ .sent k) ∧
        (g.restartOutcome r = .again →
          Asked (g.channel r).fd l (g.channel c).sendCtx.pkg.frame)
  | .serverSendCb c, g, _ => g.Live c ∨ g.channelMap[(g.channel c).fd]? = none
  | _, _, _ => True

instance (k : Call) (g : Globals) (l : History) : Decidable (FrameSafe k g l) := by
  refine k.casesOn ?_ ?_ ?_ ?_ ?_ ?_ ?_ ?_ ?_ ?_ ?_ ?_ <;> intros <;>
    dsimp only [FrameSafe] <;> infer_instance

namespace Server

/-- What was sent on every connection is a prefix of a concatenation of frames that were asked
for. -/
def Framed (s : Server) : Prop := ∀ c, s.Live c →
  Frames.Prefix (Asked (s.channel c).fd s.calls) (s.sent (s.channel c).fd)

/-- The invariant behind `Framed`, for the connection of `c`: between frames, or in the frame
of the send buffer at its offset. -/
structure InFrames (s : Server) (c : Slot) : Prop where
  idle : (s.channel c).sendCtx.io.active = false →
    Frames.Whole (Asked (s.channel c).fd s.calls) (s.sent (s.channel c).fd)
  pending : (s.channel c).sendCtx.io.active = true → ∃ w,
    Frames.Whole (Asked (s.channel c).fd s.calls) w ∧
    Asked (s.channel c).fd s.calls (s.channel c).sendCtx.pkg.frame ∧
    (s.channel c).sendCtx.len < (s.channel c).sendCtx.pkg.total ∧
    s.sent (s.channel c).fd =
      w ++ Buffer.slice (s.channel c).sendCtx.pkg 0 (s.channel c).sendCtx.len

variable {s t : Server} {c d : Slot} {p : Pkg}

theorem InFrames.framed (h : s.InFrames c) :
    Frames.Prefix (Asked (s.channel c).fd s.calls) (s.sent (s.channel c).fd) := by
  cases hact : (s.channel c).sendCtx.io.active with
  | false => exact (h.idle hact).toPrefix
  | true =>
    obtain ⟨w, hw, hask, hlt, hsent⟩ := h.pending hact
    rw [hsent, ← Pkg.take_frame _ hlt.le]
    exact hw.append_take hask _

/-! ## What was asked for -/

theorem fd_of_mem_asked {fd : ℕ} {l : History} (h : p ∈ asked fd l) : p.fd = fd := by
  induction l with
  | nil => cases h
  | cons k l ih =>
    obtain ⟨k, g⟩ := k
    cases k <;> simp only [asked] at h <;> grind

/-- Asking for one packet leaves the others asked for. -/
theorem Effect.asked_sub (h : Effect s t) {fd : ℕ} (hp : p ∈ asked fd s.calls) :
    p ∈ asked fd t.calls := by
  cases h with
  | log k hk =>
    cases k <;> simp_all [asked, Server.Plain]
    grind
  | _ =>
    simp [asked, replying, notifying, unbridged, relaying, pausing, sending, finishing]
    grind

theorem Effect.asked_mono (h : Effect s t) {fd : ℕ} {f : List UInt8} (hf : Asked fd s.calls f) :
    Asked fd t.calls f := by
  obtain ⟨p, hp, hlen, hfr⟩ := hf
  exact ⟨p, h.asked_sub hp, hlen, hfr⟩

/-- What was whole before an effect is whole after it. -/
theorem Effect.whole_mono (h : Effect s t) {w : List UInt8}
    (hw : Frames.Whole (Asked (s.channel c).fd s.calls) w) :
    Frames.Whole (Asked (t.channel c).fd t.calls) w := by
  rw [h.fd_eq]
  exact hw.mono fun f hf => h.asked_mono hf

/-- A connection whose buffer was not touched, and on which nothing was sent. -/
theorem InFrames.congr (h : s.InFrames c) (hfd : (t.channel c).fd = (s.channel c).fd)
    (hask : ∀ p ∈ asked (s.channel c).fd s.calls, p ∈ asked (s.channel c).fd t.calls)
    (hsend : (t.channel c).sendCtx = (s.channel c).sendCtx)
    (hsent : t.sent (s.channel c).fd = s.sent (s.channel c).fd) : t.InFrames c := by
  have hmono : ∀ f, Asked (s.channel c).fd s.calls f → Asked (t.channel c).fd t.calls f := by
    rintro f ⟨p, hp, hlen, hf⟩
    exact ⟨p, hfd ▸ hask p hp, hlen, hf⟩
  constructor
  · intro hoff
    have hw := (h.idle (hsend ▸ hoff)).mono hmono
    rwa [← hsent, ← hfd] at hw
  · intro hon
    obtain ⟨w, hw, hf, hlt, hs⟩ := h.pending (hsend ▸ hon)
    refine ⟨w, hw.mono hmono, ?_⟩
    rw [hsend]
    exact ⟨hmono _ hf, hlt, by rw [hfd, hsent, hs]⟩

/-- Between frames, or before the first byte of one. -/
theorem InFrames.whole (h : s.InFrames c) (hmid : ¬ s.MidFrame c) :
    Frames.Whole (Asked (s.channel c).fd s.calls) (s.sent (s.channel c).fd) := by
  cases hact : (s.channel c).sendCtx.io.active with
  | false => exact h.idle hact
  | true =>
    obtain ⟨w, hw, -, -, hsent⟩ := h.pending hact
    have hzero : (s.channel c).sendCtx.len = 0 := by
      by_contra hne
      exact hmid ⟨hact, Nat.pos_of_ne_zero hne⟩
    rw [hzero, Buffer.slice_zero_length, List.append_nil] at hsent
    rw [hsent]
    exact hw

/-- Whole frames were sent, and no byte of what the buffer holds. -/
theorem InFrames.between
    (hw : Frames.Whole (Asked (t.channel c).fd t.calls) (t.sent (t.channel c).fd))
    (hpend : (t.channel c).sendCtx.io.active = true → (t.channel c).sendCtx.len = 0 ∧
      Asked (t.channel c).fd t.calls (t.channel c).sendCtx.pkg.frame) : t.InFrames c := by
  refine ⟨fun _ => hw, fun hon => ?_⟩
  obtain ⟨hzero, hask⟩ := hpend hon
  exact ⟨_, hw, hask, hzero ▸ Pkg.total_pos _, by simp [hzero]⟩

/-- Whole frames were sent, and the first bytes of the buffer. -/
theorem InFrames.within {w : List UInt8} (hact : (t.channel c).sendCtx.io.active = true)
    (hw : Frames.Whole (Asked (t.channel c).fd t.calls) w)
    (hask : Asked (t.channel c).fd t.calls (t.channel c).sendCtx.pkg.frame)
    (hlt : (t.channel c).sendCtx.len < (t.channel c).sendCtx.pkg.total)
    (hsent : t.sent (t.channel c).fd =
      w ++ Buffer.slice (t.channel c).sendCtx.pkg 0 (t.channel c).sendCtx.len) : t.InFrames c := by
  refine ⟨fun hoff => ?_, fun _ => ⟨w, hw, hask, hlt, hsent⟩⟩
  cases hact.symm.trans hoff

/-- A slot that lost its descriptor does not share that of a live channel. -/
theorem sendCb_fd_ne (hd : s.Live d) (hdc : d ≠ c)
    (hc : s.Live c ∨ s.channelMap[(s.channel c).fd]? = none) :
    (s.channel d).fd ≠ (s.channel c).fd := by
  rcases hc with hc | hc
  · exact fd_ne_of_live hd hc hdc
  · intro hfd
    rw [Globals.Live, hfd, hc] at hd
    cases hd

/-! ## One effect, on the channel it is about -/

section Touched
variable {k : ℕ} {pkg : Pkg} {srcfd dstfd fd : ℕ} {a r : Slot} {w : List UInt8}

theorem InFrames.replyCut (hs : s.Sound) (hr : s.Replies c p) (ho : s.CutShort p.fd p.total k)
    (hw : Frames.Whole (Asked (s.channel c).fd s.calls) (s.sent (s.channel c).fd)) :
    ((((s.replying c p).wrote p.fd p 0 p.total k).setSendLen c k).startSend c).InFrames c := by
  have hfd := hr.fd_eq hs
  refine .within (by simp [replying]) ((Effect.replyCut c p k hr ho).whole_mono hw) ?_ ?_ ?_
  · exact ⟨p, by simp [replying, asked, hfd], hr.len, by simp [replying]⟩
  · simpa [replying] using ho.lt p.total_pos
  · simp [replying, hfd]

theorem InFrames.replyDone (hs : s.Sound) (hr : s.Replies c p)
    (ho : s.outcome p.fd p.total = .sent p.total)
    (hw : Frames.Whole (Asked (s.channel c).fd s.calls) (s.sent (s.channel c).fd)) :
    (((s.replying c p).wrote p.fd p 0 p.total p.total).startRecv c).InFrames c := by
  have hfd := hr.fd_eq hs
  have hask : Asked (((((s.replying c p).wrote p.fd p 0 p.total p.total).startRecv c)).channel c).fd
      (((s.replying c p).wrote p.fd p 0 p.total p.total).startRecv c).calls p.frame :=
    ⟨p, by simp [replying, asked, hfd], hr.len, rfl⟩
  have hall := ((Effect.replyDone c p hr ho).whole_mono hw).append hask
  refine .between ?_ fun _ => ⟨by simp [replying], ?_⟩
  · simpa [replying, hfd] using hall
  · simpa [replying] using hask

theorem InFrames.replyFail (hs : s.Sound) (hr : s.Replies c p)
    (ho : s.outcome p.fd p.total = .error)
    (hw : Frames.Whole (Asked (s.channel c).fd s.calls) (s.sent (s.channel c).fd)) :
    ((s.replying c p).popped p.fd 0 p.total).InFrames c := by
  have hfd := hr.fd_eq hs
  refine .between ?_ fun _ => ⟨by simp [replying], p, ?_, hr.len, ?_⟩
  · simpa [replying] using (Effect.replyFail c p hr ho).whole_mono hw
  · simp [replying, asked, hfd]
  · simp [replying]

/-- START finds a connection whose frame is pending: the frame is addressed to it. -/
theorem InFrames.startLost (h : s.InFrames c) (hs : s.Sound) (hlive : s.Live c)
    (hfd : p.fd = (s.channel c).sendCtx.pkg.fd) (hlen : p.len = sizeofInt)
    (hor : p.fd = 0 ∨ (s.channel c).sendCtx.io.active = false) (hst : s.Starts c p)
    (hnone : s.channelMap[p.fd]? = none) :
    ((s.setSendPkg c p).enter (.response p)).InFrames c := by
  have hoff : (s.channel c).sendCtx.io.active = false := by
    -- a packet without address cannot be pending at a connection
    rcases hor with hzero | hoff
    · by_contra hon
      obtain ⟨w, -, ⟨q, hq, -, hframe⟩, -⟩ := h.pending (by simpa using hon)
      have hqfd := fd_of_mem_asked hq
      rw [Pkg.fd_eq_of_frame_eq hframe, ← hfd, hzero] at hqfd
      exact hs.used hlive hqfd.symm
    · exact hoff
  have he := Effect.startLost c p hfd hlen hor hst hnone
  refine .between ?_ fun hon => ?_
  · simpa using he.whole_mono (h.idle hoff)
  · simp [hoff] at hon

theorem InFrames.breakCut (hn : s.Notifies fd r c)
    (ho : s.CutShort (restartPkg (s.channel r).fd).fd (restartPkg (s.channel r).fd).total 0)
    (hw : Frames.Whole (Asked (s.channel c).fd s.calls) (s.sent (s.channel c).fd))
    (hask : Asked (s.channel c).fd s.calls (s.channel c).sendCtx.pkg.frame) :
    (((((s.notifying fd c (restartPkg (s.channel r).fd)).wrote (restartPkg (s.channel r).fd).fd
      (restartPkg (s.channel r).fd) 0 (restartPkg (s.channel r).fd).total 0).setSendLen c
        0).startSend c).unbridged fd r).InFrames c := by
  have he := Effect.breakCut fd r c _ 0 hn rfl ho
  refine .between ?_ fun _ => ⟨by simp [notifying, unbridged], ?_⟩
  · simpa [notifying, unbridged] using he.whole_mono hw
  · simpa [notifying, unbridged] using he.asked_mono hask

theorem InFrames.breakDone (h : s.InFrames c) (hs : s.Sound) (hn : s.Notifies fd r c)
    (hp : p = restartPkg (s.channel r).fd) (ho : s.outcome p.fd p.total = .sent p.total)
    (hw : Frames.Whole (Asked (s.channel c).fd s.calls) (s.sent (s.channel c).fd)) :
    ((((s.notifying fd c p).wrote p.fd p 0 p.total p.total).startRecv c).unbridged fd r).InFrames
      c := by
  have he := Effect.breakDone fd r c p hn hp ho
  have hpfd : (s.channel c).fd = p.fd := hp ▸ hs.fd_eq (hn.addressed hs)
  have hask : Asked (((((s.notifying fd c p).wrote p.fd p 0 p.total p.total).startRecv c).unbridged
      fd r).channel c).fd ((((s.notifying fd c p).wrote p.fd p 0 p.total p.total).startRecv
        c).unbridged fd r).calls p.frame := by
    refine ⟨p, ?_, ?_, rfl⟩
    · simp [notifying, unbridged, asked, hpfd]
    · rw [hp, len_restartPkg]
      decide
  refine .between ?_ fun hon => ⟨by simp [notifying, unbridged], ?_⟩
  · simpa [notifying, unbridged, hpfd] using (he.whole_mono hw).append hask
  · obtain ⟨w, -, hbuf, -⟩ := h.pending (by simpa [notifying, unbridged] using hon)
    simpa [notifying, unbridged] using he.asked_mono hbuf

theorem InFrames.relayCut (hs : s.Sound) (hr : s.Relays pkg srcfd dstfd a d)
    (ho : s.CutShort dstfd pkg.total k)
    (hw : Frames.Whole (Asked (s.channel d).fd s.calls) (s.sent (s.channel d).fd)) :
    ((((s.relaying pkg srcfd dstfd d).wrote dstfd pkg 0 pkg.total k).setSendLen d k).pausing
      a d).InFrames d := by
  have hfd := hs.fd_eq hr.dst
  have hframe := Pkg.frame_copyFrame (s.channel d).sendCtx.pkg hr.len
  have hk := ho.lt pkg.total_pos
  refine .within (by simp [relaying, pausing])
    ((Effect.relayCut pkg srcfd dstfd a d k hr ho).whole_mono hw) ?_ ?_ ?_
  · exact ⟨pkg, by simp [relaying, pausing, asked, hfd, hr.fd], hr.len,
      by simp [relaying, pausing, hframe]⟩
  · simpa [relaying, pausing, Pkg.total_copyFrame _ hr.len] using hk
  · -- the copy agrees with the frame on the bytes that were sent
    have hslice : Buffer.slice (copyFrame (s.channel d).sendCtx.pkg pkg) 0 k =
        Buffer.slice pkg 0 k := by
      rw [← Pkg.take_frame _ hk.le, ← hframe, Pkg.take_frame]
      rw [Pkg.total_copyFrame _ hr.len]
      exact hk.le
    simp [relaying, pausing, hfd, hslice]

theorem InFrames.relayDone (hs : s.Sound) (hr : s.Relays pkg srcfd dstfd a d)
    (ho : s.outcome dstfd pkg.total = .sent pkg.total)
    (hw : Frames.Whole (Asked (s.channel d).fd s.calls) (s.sent (s.channel d).fd)) :
    ((((s.relaying pkg srcfd dstfd d).wrote dstfd pkg 0 pkg.total pkg.total).stopSend
      d).startRecv a).InFrames d := by
  have he := Effect.relayDone pkg srcfd dstfd a d hr ho
  have hfd := hs.fd_eq hr.dst
  have hask : Asked (((((s.relaying pkg srcfd dstfd d).wrote dstfd pkg 0 pkg.total
      pkg.total).stopSend d).startRecv a).channel d).fd ((((s.relaying pkg srcfd dstfd d).wrote
        dstfd pkg 0 pkg.total pkg.total).stopSend d).startRecv a).calls pkg.frame :=
    ⟨pkg, by simp [relaying, asked, hfd, hr.fd], hr.len, rfl⟩
  refine .between ?_ fun hon => ?_
  · simpa [relaying, hfd] using (he.whole_mono hw).append hask
  · simp [relaying] at hon

theorem InFrames.relayFail (hs : s.Sound) (hr : s.Relays pkg srcfd dstfd a d)
    (ho : s.outcome dstfd pkg.total = .error)
    (hw : Frames.Whole (Asked (s.channel d).fd s.calls) (s.sent (s.channel d).fd)) :
    ((s.relaying pkg srcfd dstfd d).popped dstfd 0 pkg.total).InFrames d := by
  have he := Effect.relayFail pkg srcfd dstfd a d hr ho
  refine .between ?_ fun _ => ⟨by simp [relaying], pkg, ?_, hr.len, ?_⟩
  · simpa [relaying] using he.whole_mono hw
  · simp [relaying, asked, hs.fd_eq hr.dst, hr.fd]
  · simp [relaying, Pkg.frame_copyFrame _ hr.len]

theorem InFrames.sendMore (h : s.InFrames c) (hact : (s.channel c).sendCtx.io.active = true)
    (ho : s.outcome (s.channel c).fd (s.sendCount c) = .again ∧ k = 0 ∨
      s.outcome (s.channel c).fd (s.sendCount c) = .sent k ∧
        (s.channel c).sendCtx.len + k < (s.channel c).sendCtx.pkg.total) :
    (s.sending c k).InFrames c := by
  have he := Effect.sendMore c k hact ho
  obtain ⟨w, hw, hask, hlt, hsent⟩ := h.pending hact
  refine .within (by simpa [sending] using hact) (he.whole_mono hw) ?_ ?_ ?_
  · simpa [sending] using he.asked_mono hask
  · rcases ho with ⟨-, rfl⟩ | ⟨-, hk⟩
    · simpa [sending] using hlt
    · simpa [sending] using hk
  · simp [sending, hsent, Pkg.slice_zero_add]

/-- The last bytes of the buffer make the frame whole. -/
theorem InFrames.finished (h : s.InFrames c) (hs : s.Sound)
    (hact : (s.channel c).sendCtx.io.active = true)
    (ho : s.outcome (s.channel c).fd (s.sendCount c) = .sent k)
    (hk : (s.channel c).sendCtx.pkg.total ≤ (s.channel c).sendCtx.len + k) :
    Frames.Whole (Asked (s.channel c).fd s.calls)
      ((s.finishing c k).sent (s.channel c).fd) := by
  obtain ⟨w, hw, hask, hlt, hsent⟩ := h.pending hact
  have hcount := sendCount_eq hlt (Pkg.total_le (hs.slot c).len_le)
  have htot : (s.channel c).sendCtx.len + k = (s.channel c).sendCtx.pkg.total := by
    have hle := outcome_le ho
    omega
  -- whole frames, and then the frame of the buffer
  have hall := hw.append hask
  simpa [finishing, sending, hsent, Pkg.slice_zero_add, htot] using hall

end Touched

/-! ## Runs -/

theorem InFrames.effect {e : Slot} (hs : s.Sound) (he : Effect s t) (hG : t.Heeds FrameSafe)
    (hlive : t.Live e) (h : s.InFrames e) : t.InFrames e := by
  -- nobody gets a descriptor in an effect, so that `e` was connected before
  have hold := he.live_of hlive
  have hcongr := h.congr (he.fd_eq e) fun p hp => he.asked_sub hp
  cases he with
  | free c hc =>
    -- `e` kept its descriptor, so the freed channel is another
    have hec : e ≠ c := by rintro rfl; exact (freed_live.1 hlive).1 rfl
    exact hcongr (by rw [freed_channel, if_neg hec]) rfl
  | listFull pkg c p hc ht hfull hfd hlen hcmd =>
    -- the half written list is not sent; it must not replace a frame that is pending
    have hoff := hG (.handleRegisterClientReq pkg) s.toGlobals s.calls (by simp) ht c hc
      hfull
    by_cases hec : e = c
    · subst hec
      refine .between ?_ fun hon => ?_
      · simpa using (Effect.listFull pkg e p hc ht hfull hfd hlen hcmd).whole_mono (h.idle hoff)
      · simp [hoff] at hon
    · exact hcongr (by simp [modify_channel_of_ne hec]) rfl
  | replyCut c p k hr ho =>
    have hmid := hG (.response p) (s.setSendPkg c p).toGlobals s.calls (by simp [replying])
      c hr.live
    by_cases hec : e = c
    · subst hec
      -- the packet starts at the end of a frame, because none was pending before
      exact .replyCut hs hr ho (h.whole (by simpa [Globals.MidFrame] using hmid))
    · have hfd := fd_ne_of_live hold hr.live hec
      exact hcongr (by simp [replying, modify_channel_of_ne hec]) (by simp [replying, hfd])
  | replyDone c p hr ho =>
    have hmid := hG (.response p) (s.setSendPkg c p).toGlobals s.calls (by simp [replying])
      c hr.live
    by_cases hec : e = c
    · subst hec
      exact .replyDone hs hr ho (h.whole (by simpa [Globals.MidFrame] using hmid))
    · have hfd := fd_ne_of_live hold hr.live hec
      exact hcongr (by simp [replying, modify_channel_of_ne hec]) (by simp [replying, hfd])
  | replyFail c p hr ho =>
    have hmid := hG (.response p) (s.setSendPkg c p).toGlobals s.calls (by simp [replying])
      c hr.live
    by_cases hec : e = c
    · subst hec
      exact .replyFail hs hr ho (h.whole (by simpa [Globals.MidFrame] using hmid))
    · exact hcongr (by simp [replying, modify_channel_of_ne hec]) (by simp [replying])
  | startLost d p hfd hlen hor hst hnone =>
    by_cases hed : e = d
    · subst hed
      -- the buffer is rewritten, but nothing of it was pending
      exact h.startLost hs hold hfd hlen hor hst hnone
    · exact hcongr (by simp [modify_channel_of_ne hed]) rfl
  | breakCut fd r c p k hn hp ho =>
    subst hp
    have hcall := hG (.checkBreakFd .remote fd) s.toGlobals s.calls
      (by simp [notifying, unbridged]) rfl r hn.bridge c hn.live
    have hmid := hG (.response (restartPkg (s.channel r).fd)) s.toGlobals
      ((.checkBreakFd .remote fd, s.toGlobals) :: s.calls) (by simp [notifying, unbridged]) c
      (hn.addressed hs)
    by_cases hec : e = c
    · subst hec
      -- a RESTART that is cut at its first byte leaves the frame of the buffer to be sent
      -- from its first byte; one that is cut later is excluded by `FrameSafe`
      have hag : s.restartOutcome r = .again ∧ k = 0 := by
        rw [← hs.outcome_restartPkg]
        cases ho with
        | again ho => exact ⟨ho, rfl⟩
        | short ho hk =>
          rw [hs.outcome_restartPkg] at ho
          exact absurd ho (hcall.1 k (by rwa [total_restartPkg] at hk))
      obtain ⟨hag, rfl⟩ := hag
      exact .breakCut hn ho (h.whole hmid) (by rw [hs.fd_eq hn.live]; exact hcall.2 hag)
    · have hfd := fd_ne_of_live hold (hn.addressed hs) hec
      exact hcongr (by simp [notifying, unbridged, modify_channel_of_ne hec])
        (by simp [notifying, unbridged, hfd])
  | breakDone fd r c p hn hp ho =>
    have hadd : s.channelMap[p.fd]? = some c := hp ▸ hn.addressed hs
    have hmid := hG (.response p) s.toGlobals ((.checkBreakFd .remote fd, s.toGlobals) ::
      s.calls) (by simp [notifying, unbridged]) c hadd
    by_cases hec : e = c
    · subst hec
      -- the RESTART went out whole, and the buffer is as it was
      exact h.breakDone hs hn hp ho (h.whole hmid)
    · have hfd := fd_ne_of_live hold hadd hec
      exact hcongr (by simp [notifying, unbridged, modify_channel_of_ne hec])
        (by simp [notifying, unbridged, hfd])
  | breakFail fd r c p hn hp ho =>
    have hec : e ≠ c := by
      rintro rfl
      exact (freed_live.1 (unbridged_live.1 hlive)).1 rfl
    exact hcongr (by simp [unbridged, notifying, freed_channel, hec, modify_channel_of_ne hec])
      (by simp [unbridged, notifying])
  | relayCut pkg srcfd dstfd a d k hr ho =>
    have hmid := hG (.dispatch pkg srcfd dstfd) s.toGlobals s.calls
      (by simp [relaying, pausing]) hr.len (by simp [hr.src]) d hr.dst
    by_cases hed : e = d
    · subst hed
      -- the frame is now in the buffer of `e`, and its rest is pending
      exact .relayCut hs hr ho (h.whole hmid)
    · have hfd := fd_ne_of_live hold hr.dst hed
      exact hcongr (by simp [relaying, pausing, modify_channel_of_ne hed])
        (by simp [relaying, pausing, hfd])
  | relayDone pkg srcfd dstfd a d hr ho =>
    have hmid := hG (.dispatch pkg srcfd dstfd) s.toGlobals s.calls
      (by simp [relaying]) hr.len (by simp [hr.src]) d hr.dst
    by_cases hed : e = d
    · subst hed
      exact .relayDone hs hr ho (h.whole hmid)
    · have hfd := fd_ne_of_live hold hr.dst hed
      exact hcongr (by simp [relaying, modify_channel_of_ne hed]) (by simp [relaying, hfd])
  | relayFail pkg srcfd dstfd a d hr ho =>
    have hmid := hG (.dispatch pkg srcfd dstfd) s.toGlobals s.calls
      (by simp [relaying]) hr.len (by simp [hr.src]) d hr.dst
    by_cases hed : e = d
    · subst hed
      exact .relayFail hs hr ho (h.whole hmid)
    · exact hcongr (by simp [relaying, modify_channel_of_ne hed]) (by simp [relaying])
  | sendMore c k hact ho =>
    have hcall := hG (.serverSendCb c) s.toGlobals s.calls (by simp [sending])
    by_cases hec : e = c
    · subst hec
      -- what `send` took is the next part of the pending frame
      exact h.sendMore hact ho
    · have hfd := sendCb_fd_ne hold hec hcall
      exact hcongr (by simp [sending, modify_channel_of_ne hec]) (by simp [sending, hfd])
  | sendOver c k a hact ho hk ha =>
    have hcall := hG (.serverSendCb c) s.toGlobals s.calls (by simp [finishing, sending])
    by_cases hec : e = c
    · subst hec
      refine .between ?_ fun hon => ?_
      · simpa [finishing, sending] using
          (Effect.sendOver e k a hact ho hk ha).whole_mono (h.finished hs hact ho hk)
      · simp [finishing, sending] at hon
    · have hfd := sendCb_fd_ne hold hec hcall
      exact hcongr (by simp [finishing, sending, modify_channel_of_ne hec])
        (by simp [finishing, sending, hfd])
  | sendNull c k hact ho hk ha =>
    have hcall := hG (.serverSendCb c) s.toGlobals s.calls (by simp [finishing, sending])
    by_cases hec : e = c
    · subst hec
      refine .between ?_ fun hon => ?_
      · simpa [finishing, sending] using
          (Effect.sendNull e k hact ho hk ha).whole_mono (h.finished hs hact ho hk)
      · simp [finishing, sending] at hon
    · have hfd := sendCb_fd_ne hold hec hcall
      exact hcongr (by simp [finishing, sending, modify_channel_of_ne hec])
        (by simp [finishing, sending, hfd])
  | _ => exact hcongr (by simp [unbridged]) rfl

/-- The invariant of all connections. -/
def AllInFrames (s : Server) : Prop := ∀ c, s.Live c → s.InFrames c

theorem AllInFrames.closing (hs : s.Sound) (h : s.AllInFrames) (hc : s.Freeable c)
    (hG : (s.closing c).Heeds FrameSafe) : (s.closing c).AllInFrames := by
  intro e he
  have hlast := closing_effect hs hc
  have hfreed := hlast.live_of he
  obtain ⟨hfd, hlive⟩ := freed_live.1 hfreed
  have hec : e ≠ c := fun hec => hfd (by rw [hec])
  have hX : ((s.enter (.closed c)).freed c).InFrames e :=
    (h e hlive).congr (by simp) (by simp [asked]) (by simp [freed_channel, hec]) rfl
  exact hX.effect ((hs.enter _).freed hc.1) hlast hG he

theorem AllInFrames.accepting (h : s.AllInFrames) {fd : ℕ}
    (hkey : s.channelMap[fd]? = none) : (s.accepting fd c).AllInFrames := by
  intro e he
  by_cases hec : e = c
  · subst hec
    refine .between ?_ fun hon => ?_
    · simpa [accepting_channel, freshChannel, Server.accepting] using Frames.Whole.nil
    · simp [accepting_channel, freshChannel] at hon
  · have hlive : s.Live e := ((accepting_live hkey).1 he).resolve_left hec
    have hne := fd_ne_of_none hlive hkey
    refine (h e hlive).congr ?_ ?_ ?_ ?_
    · rw [accepting_channel, if_neg hec]
    · simp [Server.accepting, asked, Ne.symm hne]
    · rw [accepting_channel, if_neg hec]
    · simp [Server.accepting, hne]

theorem AllInFrames.refusing (h : s.AllInFrames) {fd : ℕ} (hkey : s.channelMap[fd]? = none) :
    (s.refusing fd).AllInFrames := by
  intro c hc
  have hne : (s.channel c).fd ≠ fd := fd_ne_of_none hc hkey
  refine (h c hc).congr rfl ?_ rfl ?_ <;> simp [Server.refusing, asked, hne, Ne.symm hne]

theorem allInFrames_keeps : Keeps FrameSafe AllInFrames where
  boot c hc := by simp [Globals.Live, Server.boot] at hc
  accepting _ h _ _ hkey _ _ := h.accepting hkey
  refusing _ h hkey _ := h.refusing hkey
  effect hs h he hG c hc := (h c (he.live_of hc)).effect hs he hG hc
  closing hs h hc hG := h.closing hs hc hG
  routed c p _ h e he := by
    refine (h e (by simpa [Globals.Live] using he)).congr ?_ ?_ ?_ ?_ <;> simp [asked]
  recvPkg c p h e he := by
    refine (h e (by simpa [Globals.Live] using he)).congr ?_ ?_ ?_ ?_ <;> simp
  recvLen c n h e he := by
    refine (h e (by simpa [Globals.Live] using he)).congr ?_ ?_ ?_ ?_ <;> simp

/-- The output of every connection is framed in every state of a run whose calls are
`FrameSafe`. -/
theorem output_framed (hr : Reachable s) (hG : s.Heeds FrameSafe) : s.Framed :=
  fun c hc => (allInFrames_keeps.reachable hr hG c hc).framed

/-- A viewer registers, chooses, and gets a frame in two parts; the RESTART is sent at once. -/
def watched : List Event :=
  [.accept 5, .accept 6] ++ Event.register 0 .raspi Event.takesAll ++
    Event.register 1 .remote Event.takesAll ++ Event.choose 1 5 Event.takesAll ++
    Event.stream 0 6 [77, 78] (fun _ => [.sent 5]) ++ [.send 1 fun _ => [.sent 8]]

theorem output_framed_watched : (after watched).Framed :=
  output_framed (reachable_after _ (by decide +kernel)) (by decide +kernel)

/-- The viewer registers again while a frame to it is half sent. -/
def repliedMidFrame : List Event :=
  [.accept 5, .accept 6] ++ Event.stream 0 6 [77] (fun _ => [.sent 3]) ++
    Event.register 1 .remote Event.takesAll

theorem frame_interrupted : ¬ ∀ s, Reachable s → s.Framed := by
  intro h
  have hpre := h _ (reachable_after repliedMidFrame (by decide +kernel)) 1
    (by decide +kernel)
  obtain ⟨f, ⟨p, hp, -, rfl⟩, htake⟩ := hpre.exists_take (n := 12) (by decide)
    (by decide +kernel) (by
      rintro f ⟨p, -, -, rfl⟩
      rw [Pkg.length_frame]
      exact p.twelve_le_total)
  revert htake
  revert p
  decide +kernel

end Server
end WawaServer
