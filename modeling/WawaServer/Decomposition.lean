import WawaServer.Sound
import WawaServer.Branches

/-!
# The functions of the source as effects

Every function of `handler.cpp` and every callback is a sequence of effects, from any sound
state. The order is that of the call graph.
-/

namespace WawaServer
namespace Server

variable {s t : Server} {c d : Slot} {p : Pkg}

/-- `free_channel` takes the descriptor of its channel from whoever owns it. -/
theorem freed_live : (s.freed c).Live d ↔ (s.channel d).fd ≠ (s.channel c).fd ∧ s.Live d := by
  rw [Globals.Live, freed_channelMap, freed_channel_fd]
  rfl

/-- Two live channels do not share a descriptor. -/
theorem fd_ne_of_live {fd : ℕ} (hd : s.Live d) (hc : s.channelMap[fd]? = some c) (hdc : d ≠ c) :
    (s.channel d).fd ≠ fd := by
  rintro rfl
  exact hdc (Option.some.inj (hd.symm.trans hc))

/-- A descriptor that nobody has is not that of a live channel. -/
theorem fd_ne_of_none {fd : ℕ} (hd : s.Live d) (hkey : s.channelMap[fd]? = none) :
    (s.channel d).fd ≠ fd := by
  rintro rfl
  cases hkey.symm.trans hd

/-- Bridges have nothing to do with owning a descriptor. -/
theorem unbridged_live {fd : ℕ} {r : Slot} : (s.unbridged fd r).Live d ↔ s.Live d := by
  simp [unbridged, Globals.Live]

/-- `accept` begins a connection and ends none. -/
theorem accepting_live {fd : ℕ} (hkey : s.channelMap[fd]? = none) :
    (s.accepting fd c).Live d ↔ d = c ∨ s.Live d := by
  rw [Globals.Live, accepting_channelMap hkey, accepting_channel]
  by_cases hdc : d = c
  · simp [hdc, freshChannel]
  · rw [if_neg hdc, or_iff_right hdc]
    split
    · -- nobody has the new descriptor yet
      rename_i hfd
      simp [Globals.Live, hfd, hkey, Ne.symm hdc]
    · rfl

/-! ## What no effect does -/

/-- No effect gives a channel another descriptor. -/
theorem Effect.fd_eq (h : Effect s t) (d : Slot) : (t.channel d).fd = (s.channel d).fd := by
  cases h <;> simp [replying, notifying, unbridged, relaying, pausing, sending, finishing]

/-- Effects take entries out of `channel_map` and add none. -/
theorem Effect.map_sub (h : Effect s t) {fd : ℕ} (hm : t.channelMap[fd]? = some c) :
    s.channelMap[fd]? = some c := by
  cases h with
  | free d => exact (freed_channelMap _ _ _ _ |>.1 hm).2
  | breakFail => exact (freed_channelMap _ _ _ _ |>.1 hm).2
  | _ => simpa [replying, notifying, unbridged, relaying, pausing, sending, finishing] using hm

/-- Effects end connections and begin none. -/
theorem Effect.live_of (h : Effect s t) (hc : t.Live c) : s.Live c := by
  rw [Globals.Live, ← h.fd_eq c]
  exact h.map_sub hc

/-- The history only grows. -/
theorem Effect.calls_suffix (h : Effect s t) : s.calls <:+ t.calls := by
  cases h <;> simp [replying, notifying, unbridged, relaying, pausing, sending, finishing,
    List.suffix_cons_iff]

/-- Effects change no descriptor. -/
theorem Effects.fd_eq (h : Effects s t) (d : Slot) : (t.channel d).fd = (s.channel d).fd := by
  induction h with
  | refl => rfl
  | tail _ h ih => rw [h.fd_eq d, ih]

/-- Effects add no entry to `channel_map`. -/
theorem Effects.map_sub (h : Effects s t) {fd : ℕ} (hm : t.channelMap[fd]? = some c) :
    s.channelMap[fd]? = some c := by
  induction h with
  | refl => exact hm
  | tail _ h ih => exact ih (h.map_sub hm)

/-- A channel that owned its descriptor still does, or nobody does. -/
theorem Effects.live_or_gone (h : Effects s t) (hc : s.Live c) :
    t.Live c ∨ t.channelMap[(t.channel c).fd]? = none := by
  rw [Globals.Live, h.fd_eq c]
  cases hm : t.channelMap[(s.channel c).fd]? with
  | none => exact .inr rfl
  | some d =>
    have hd := h.map_sub hm
    rw [Globals.Live] at hc
    exact .inl (by rw [← hc, hd])

/-- Effects add to the record. -/
theorem Effects.calls_suffix (h : Effects s t) : s.calls <:+ t.calls := by
  induction h with
  | refl => exact List.suffix_rfl
  | tail _ h ih => exact ih.trans h.calls_suffix

/-! ## `response` -/

/-- The ways through `response` when the maps are sound. -/
theorem Sound.response_cases (hs : s.Sound) (p : Pkg) :
    (s.channelMap[p.fd]? = none ∧ (s.response p).1 = s.enter (.response p)) ∨
    ∃ c, s.channelMap[p.fd]? = some c ∧
      ((∃ k, s.CutShort p.fd p.total k ∧ (s.response p).1 = ((((s.enter (.response p)).setSendLen
        c 0).wrote p.fd p 0 p.total k).setSendLen c k).startSend c) ∨
      (s.outcome p.fd p.total = .sent p.total ∧ (s.response p).1 = (((s.enter
        (.response p)).setSendLen c 0).wrote p.fd p 0 p.total p.total).startRecv c) ∨
      (s.outcome p.fd p.total = .error ∧
        (((s.enter (.response p)).setSendLen c 0).popped p.fd 0 p.total).Sound ∧
        (s.response p).1 = (((s.enter (.response p)).setSendLen c 0).popped p.fd 0
          p.total).freed c)) := by
  rcases Server.response_cases s p with ⟨hl, h⟩ | ⟨c, hl, h | h | ⟨ho, h⟩⟩ <;> rw [hs.lookup_eq] at hl
  · exact .inl ⟨hl, h⟩
  · exact .inr ⟨c, hl, .inl h⟩
  · exact .inr ⟨c, hl, .inr (.inl h)⟩
  · have hX : (((s.enter (.response p)).setSendLen c 0).popped p.fd 0 p.total).Sound :=
      ((hs.enter _).setSendLen c 0).popped ..
    rw [hX.freeChannel_eq (by simpa using hs.used hl)] at h
    exact .inr ⟨c, hl, .inr (.inr ⟨ho, hX, h⟩)⟩

/-- `response` reaches the channel that owns the descriptor of the packet, and no other. -/
theorem response_channel (hs : s.Sound) (hd : s.channelMap[p.fd]? ≠ some d) :
    ((s.response p).1.channel d) = s.channel d := by
  rcases hs.response_cases p with ⟨-, h⟩ | ⟨c, hc, h⟩
  · rw [h]
    rfl
  · have hdc : d ≠ c := by rintro rfl; exact hd hc
    rcases h with ⟨k, -, h⟩ | ⟨-, h⟩ | ⟨-, -, h⟩ <;> rw [h]
    · simp [modify_channel_of_ne hdc]
    · simp [modify_channel_of_ne hdc]
    · rw [freed_channel, if_neg hdc]
      simp [modify_channel_of_ne hdc]

/-- After `response` a channel that owned its descriptor still does, or was freed. -/
theorem response_live (hs : s.Sound) (hd : s.Live d) :
    (s.response p).1.Live d ∨ ((s.response p).1.channel d).sendCtx.io.active = false := by
  rcases hs.response_cases p with ⟨-, h⟩ | ⟨c, hc, ⟨k, -, h⟩ | ⟨-, h⟩ | ⟨-, -, h⟩⟩ <;> rw [h]
  · exact .inl hd
  · exact .inl (by simpa [Globals.Live] using hd)
  · exact .inl (by simpa [Globals.Live] using hd)
  · by_cases hdc : d = c
    · refine .inr ?_
      rw [freed_channel, if_pos hdc]
    · refine .inl ((freed_channelMap _ _ _ _).2 ⟨?_, ?_⟩)
      · rw [freed_channel_fd]
        intro hfd
        have hmap : s.channelMap[(s.channel d).fd]? = some c := by
          have hfd' : (s.channel d).fd = (s.channel c).fd := by simpa using hfd
          rw [hfd', hs.fd_eq hc]
          exact hc
        exact hdc (Option.some.inj (hd.symm.trans hmap))
      · rw [freed_channel_fd]
        simpa [Globals.Live] using hd

/-- `response` calls nothing but `free_channel`. -/
theorem response_calls (s : Server) (p : Pkg) :
    (s.response p).1.calls = (.response p, s.toGlobals) :: s.calls ∨ ∃ c g,
      (s.response p).1.calls = (.freeChannel c, g) :: (.response p, s.toGlobals) :: s.calls := by
  rcases Server.response_cases s p with ⟨-, h⟩ | ⟨c, -, ⟨k, -, h⟩ | ⟨-, h⟩ | ⟨-, h⟩⟩ <;> rw [h]
  · exact .inl rfl
  · exact .inl rfl
  · exact .inl rfl
  · exact .inr ⟨c, _, rfl⟩

/-- `response` is recorded. -/
theorem response_suffix (s : Server) (p : Pkg) :
    (.response p, s.toGlobals) :: s.calls <:+ (s.response p).1.calls := by
  obtain h | ⟨c, g, h⟩ := s.response_calls p
  · exact h ▸ List.suffix_rfl
  · exact h ▸ List.suffix_cons _ _

/-- A reply adds to the record. -/
theorem reply_suffix (s : Server) (c : Slot) (p : Pkg) :
    s.calls <:+ (s.reply c p).calls :=
  (List.suffix_cons _ _).trans ((s.setSendPkg c p).response_suffix p)

/-- After `response` no close is on its way. -/
theorem response_closing (s : Server) (p : Pkg) : (s.response p).1.calls.closing = false := by
  obtain h | ⟨c, g, h⟩ := s.response_calls p <;> rw [h] <;> rfl

/-- `response` with a packet built in `c`'s own buffer. -/
theorem reply_effects (hs : s.Sound) (h : s.Replies c p) : Effects s (s.reply c p) := by
  unfold reply
  have hX : (s.setSendPkg c p).Sound := hs.setSendPkg h.len (.inr (h.fd_eq hs).symm)
  have hl : (s.setSendPkg c p).lookup p.fd = some c := (hX.lookup_eq p.fd).trans h.live
  rcases outcome_cases s.toGlobals p.fd p.total with ⟨k, ho⟩ | ho | ho
  · have ho' : (s.setSendPkg c p).CutShort p.fd p.total k := by
      cases ho with
      | again ho => exact .again ho
      | short ho hk => exact .short ho hk
    rw [response_of_cutShort hl ho']
    exact .single (.replyCut c p k h ho)
  · rw [response_of_sent hl ho]
    exact .single (.replyDone c p h ho)
  · have hfail := Effect.replyFail c p h ho
    have hu : (((s.replying c p).popped p.fd 0 p.total).channel c).fd ≠ 0 := by
      simpa [replying] using hs.used h.live
    have hfree := (hs.effect hfail).freeChannel_eq hu
    simp only [replying] at hfree
    rw [response_of_error hl ho, hfree]
    refine .tail (.single hfail) (.free c ⟨hu, .inl ?_⟩ rfl)
    · exact (hs.effect hfail).live (by simpa [replying] using h.live)

/-! ## `check_break_fd` -/

/-- The RESTART is for the raspi. -/
theorem fd_restartPkg {fd : ℕ} (h : fd < 2 ^ 31) : (restartPkg fd).fd = fd := by
  simp only [restartPkg, Pkg.fd_setReserve, Pkg.fd_setLen, Pkg.fd_setCmd]
  exact Pkg.fd_setFd (by omega)

/-- The body of a RESTART is one word. -/
@[simp] theorem len_restartPkg (fd : ℕ) : (restartPkg fd).len = sizeofInt := by
  simp only [restartPkg, Pkg.len_setReserve]
  exact Pkg.len_setLen (by decide)

/-- A RESTART is a head and one word. -/
@[simp] theorem total_restartPkg (fd : ℕ) : (restartPkg fd).total = sizeofInt + sizeofHead := by
  rw [← Pkg.total_eq, len_restartPkg]

/-- How the `send` of the RESTART ends is decided by the raspi's descriptor. -/
theorem Sound.outcome_restartPkg (hs : s.Sound) (r : Slot) :
    s.outcome (restartPkg (s.channel r).fd).fd (restartPkg (s.channel r).fd).total =
      s.restartOutcome r := by
  rw [fd_restartPkg (hs.slot r).fd_lt, total_restartPkg, Globals.restartOutcome]

/-- The one that is notified has the entry of the raspi's descriptor. -/
theorem Notifies.addressed {fd : ℕ} {r : Slot} (h : s.Notifies fd r c) (hs : s.Sound) :
    s.channelMap[(restartPkg (s.channel r).fd).fd]? = some c := by
  rw [fd_restartPkg (hs.slot r).fd_lt]
  exact h.live

/-- The ways through `check_break_fd` for a bridged descriptor: the raspi's descriptor is nobody's,
or its owner `c` gets the packet in part, gets it, or refuses it. -/
theorem Sound.checkBreakFd_cases (hs : s.Sound) {fd : ℕ} {r : Slot}
    (hb : s.bridgeMap[fd]? = some r) :
    let p := restartPkg (s.channel r).fd
    s.channelMap[(s.channel r).fd]? = none ∧ s.checkBreakFd .remote fd =
        (((s.enter (.checkBreakFd .remote fd)).enter (.response p)).unbridged fd r) ∨
      ∃ c, s.Notifies fd r c ∧
        ((∃ k, s.CutShort p.fd p.total k ∧ s.checkBreakFd .remote fd =
            ((((s.notifying fd c p).wrote p.fd p 0 p.total k).setSendLen c k).startSend
              c).unbridged fd r) ∨
          s.outcome p.fd p.total = .sent p.total ∧ s.checkBreakFd .remote fd =
            (((s.notifying fd c p).wrote p.fd p 0 p.total p.total).startRecv c).unbridged fd r ∨
          s.outcome p.fd p.total = .error ∧ s.checkBreakFd .remote fd =
            (((s.notifying fd c p).popped p.fd 0 p.total).freed c).unbridged fd r) := by
  intro p
  -- the RESTART is addressed to the descriptor in the raspi's channel
  have hp : p.fd = (s.channel r).fd := fd_restartPkg (hs.slot r).fd_lt
  have hX : (s.enter (.checkBreakFd .remote fd)).Sound := hs.enter _
  have hl := hX.lookup_eq p.fd
  rw [checkBreakFd_of_some hb]
  cases hr : s.channelMap[(s.channel r).fd]? with
  | none =>
    rw [response_of_none (by rw [hl, hp]; exact hr)]
    exact .inl ⟨rfl, rfl⟩
  | some c =>
    have hl' : (s.enter (.checkBreakFd .remote fd)).lookup p.fd = some c := by
      rw [hl, hp]
      exact hr
    refine .inr ⟨c, ⟨hb, hr⟩, ?_⟩
    rcases outcome_cases (s.enter (.checkBreakFd .remote fd)).toGlobals p.fd p.total with
      ⟨k, ho⟩ | ho | ho
    · rw [response_of_cutShort hl' ho]
      exact .inl ⟨k, ho, rfl⟩
    · rw [response_of_sent hl' ho]
      exact .inr (.inl ⟨ho, rfl⟩)
    · have hY := (hs.notifying fd c p).popped p.fd 0 p.total
      rw [response_of_error hl' ho]
      exact .inr (.inr ⟨ho, congrArg (Server.unbridged · fd r)
        (hY.freeChannel_eq (by simpa [Server.notifying] using hs.used hr))⟩)

/-- `check_break_fd` is one effect. -/
theorem checkBreakFd_effect (hs : s.Sound) (type : ClientType) (fd : ℕ) :
    Effect s (s.checkBreakFd type fd) := by
  rcases s.checkBreakFd_cases type fd with ⟨hno, h⟩ | ⟨r, rfl, hb, -⟩
  · rw [h]
    exact .log (.checkBreakFd type fd) hno
  · rcases hs.checkBreakFd_cases hb with ⟨hr, h⟩ | ⟨c, hn, ⟨k, ho, h⟩ | ⟨ho, h⟩ | ⟨ho, h⟩⟩ <;>
      rw [h]
    · exact .breakLost fd r hb hr
    · exact .breakCut fd r c _ k hn rfl ho
    · exact .breakDone fd r c _ hn rfl ho
    · exact .breakFail fd r c _ hn rfl ho

/-- `check_break_fd` is recorded. -/
theorem checkBreakFd_suffix (s : Server) (type : ClientType) (fd : ℕ) :
    (.checkBreakFd type fd, s.toGlobals) :: s.calls <:+ (s.checkBreakFd type fd).calls := by
  rcases s.checkBreakFd_cases type fd with ⟨-, h⟩ | ⟨r, rfl, -, h⟩ <;> rw [h]
  · exact List.suffix_rfl
  · obtain h | ⟨c, g, h⟩ := response_calls (s.enter (.checkBreakFd .remote fd))
      (restartPkg (s.channel r).fd)
    · exact h ▸ List.suffix_cons _ _
    · exact h ▸ (List.suffix_cons _ _).trans (List.suffix_cons _ _)

/-- What follows `check_break_fd` is no answer to a close. -/
theorem checkBreakFd_closing (s : Server) (type : ClientType) (fd : ℕ) :
    (s.checkBreakFd type fd).calls.closing = false := by
  rcases s.checkBreakFd_cases type fd with ⟨-, h⟩ | ⟨r, -, -, h⟩ <;> rw [h]
  · rfl
  · exact response_closing _ _

/-- `check_break_fd` stops the send watcher of a channel only if it owned its descriptor. -/
theorem checkBreakFd_sendActive (hs : s.Sound) (type : ClientType) (fd : ℕ) (hc : ¬ s.Live c) :
    ((s.checkBreakFd type fd).channel c).sendCtx.io.active =
      (s.channel c).sendCtx.io.active := by
  rcases s.checkBreakFd_cases type fd with ⟨-, h⟩ | ⟨r, -, -, h⟩
  · rw [h]
    rfl
  · have hX : (s.enter (.checkBreakFd .remote fd)).Sound := hs.enter _
    have hne : s.channelMap[(restartPkg (s.channel r).fd).fd]? ≠ some c :=
      fun hm => hc (hs.live hm)
    rw [h]
    simp only [unbridged, setStatus, modify_channel]
    split
    · subst c
      rw [response_channel hX hne]
      rfl
    · rw [response_channel hX hne]
      rfl

/-! ## `dispatch` -/

/-- An iterator that is used changes at most the fault. -/
theorem useIterator_effects (s : Server) (fd : ℕ) : Effects s (s.useIterator fd) := by
  unfold useIterator
  split
  · exact .single (.fail _)
  · exact .refl

/-- An iterator that is used is no call. -/
@[simp] theorem useIterator_calls (s : Server) (fd : ℕ) : (s.useIterator fd).calls = s.calls := by
  unfold useIterator
  split <;> rfl

/-- `dispatch` has found both channels. -/
theorem Sound.relays (hs : s.Sound) {pkg : Pkg} {srcfd dstfd : ℕ} {a : Slot}
    (ha : s.lookup srcfd = some a) (hd : s.lookup dstfd = some d) (hfd : pkg.fd = dstfd)
    (hlen : pkg.len ≤ bufSize) :
    s.Relays pkg srcfd dstfd a d :=
  ⟨(hs.lookup_eq _).symm.trans ha, (hs.lookup_eq _).symm.trans hd, hfd, hlen⟩

/-- `dispatch` is a run of effects if the packet is for the descriptor it is given. -/
theorem dispatch_effects (hs : s.Sound) {pkg : Pkg} {srcfd dstfd : ℕ} (hfd : pkg.fd = dstfd) :
    Effects s (s.dispatch pkg srcfd dstfd).1 := by
  rcases s.dispatch_cases pkg srcfd dstfd with
    ⟨hno, h⟩ | ⟨a, d, ha, hd, hlen, ⟨k, ho, h⟩ | ⟨ho, h⟩ | ⟨ho, h⟩⟩ <;> rw [h]
  · simp only [hs.lookup_eq] at hno
    exact .single (.log (.dispatch pkg srcfd dstfd) hno)
  · exact .single (.relayCut pkg srcfd dstfd a d k (hs.relays ha hd hfd hlen) ho)
  · exact .single (.relayDone pkg srcfd dstfd a d (hs.relays ha hd hfd hlen) ho)
  · have hr := hs.relays ha hd hfd hlen
    have hfail := Effect.relayFail pkg srcfd dstfd a d hr ho
    have hY := hs.effect hfail
    have hlive : ((s.relaying pkg srcfd dstfd d).popped dstfd 0 pkg.total).Live d :=
      hY.live (by simpa [relaying] using hr.dst)
    have hused : (((s.relaying pkg srcfd dstfd d).popped dstfd 0 pkg.total).channel
        d).fd ≠ 0 := by simpa [relaying] using hs.used hr.dst
    simp only
    generalize (s.relaying pkg srcfd dstfd d).popped dstfd 0 pkg.total = t at *
    -- `check_break_fd` may have freed `d` already
    have hmid : Effects t
        ((t.checkBreakFd (t.channel d).type (t.channel d).fd).useIterator dstfd) :=
      .head (checkBreakFd_effect hY _ _) (useIterator_effects _ dstfd)
    have hu := hmid.fd_eq d ▸ hused
    rw [(hY.effects hmid).freeChannel_eq hu]
    exact (Relation.ReflTransGen.head hfail hmid).tail
      (.free d ⟨hu, (hmid.live_or_gone hlive).imp_right .inl⟩
        (by rw [useIterator_calls]; exact checkBreakFd_closing _ _ _))

/-! ## Handlers -/

section RaspiFds
variable (p : Pkg) (i : ℕ) (fds : List ℕ)

/-- The list is written over the body. -/
@[simp] theorem len_setRaspiFds : (p.setRaspiFds i fds).len = p.len := by
  induction fds generalizing p i with
  | nil => rfl
  | cons fd fds ih => rw [Pkg.setRaspiFds, ih, Pkg.len_setRaspiFd]

@[simp] theorem fd_setRaspiFds : (p.setRaspiFds i fds).fd = p.fd := by
  induction fds generalizing p i with
  | nil => rfl
  | cons fd fds ih => rw [Pkg.setRaspiFds, ih, Pkg.fd_setRaspiFd]

@[simp] theorem cmd_setRaspiFds : (p.setRaspiFds i fds).cmd = p.cmd := by
  induction fds generalizing p i with
  | nil => rfl
  | cons fd fds ih => rw [Pkg.setRaspiFds, ih, Pkg.cmd_setRaspiFd]

end RaspiFds

/-- The loop over `channel_map` writes the list of the reply and gives up at eight raspis. -/
theorem listRaspis_eq (s : Server) (c : Slot) (l : List (ℕ × Slot)) :
    ∀ (q : Pkg) (i : ℕ), i < 8 →
      let fds := (l.filter fun e => (s.channel e.2).status = .active ∧
        (s.channel e.2).type = .raspi).map fun e => (s.channel e.2).fd
      (s.setSendPkg c q).listRaspis c i l =
        (s.setSendPkg c (q.setRaspiFds i (fds.take (8 - i))), decide (i + fds.length < 8)) := by
  induction l with
  | nil =>
    intro q i hi
    simp [listRaspis, Pkg.setRaspiFds, hi]
  | cons e l ih =>
    intro q i hi
    obtain ⟨fd, d⟩ := e
    have hst : ((s.setSendPkg c q).channel d).status = (s.channel d).status := by simp
    have hty : ((s.setSendPkg c q).channel d).type = (s.channel d).type := by simp
    have hfd : ((s.setSendPkg c q).channel d).fd = (s.channel d).fd := by simp
    have hbuf : ((s.setSendPkg c q).channel c).sendCtx.pkg = q := by simp
    simp only [listRaspis, hst, hty, hfd, hbuf, List.filter_cons, decide_eq_true_eq]
    by_cases hd : (s.channel d).status = .active ∧ (s.channel d).type = .raspi
    · -- a raspi: its descriptor is written, and the list is full or the loop goes on
      obtain ⟨n, hn⟩ : ∃ n, 8 - i = n + 1 := ⟨7 - i, by omega⟩
      simp only [hd, and_self, ↓reduceIte, setSendPkg_setSendPkg, List.map_cons, List.length_cons,
        hn, List.take_succ_cons, Pkg.setRaspiFds]
      split
      · rename_i hi8
        -- `fd[7]` is written, and the loop gives up
        obtain rfl : n = 0 := by omega
        refine Prod.ext rfl ?_
        simp only [Bool.false_eq, decide_eq_false_iff_not]
        omega
      · rename_i hi8
        have htail := ih (q.setRaspiFd i (s.channel d).fd) (i + 1) (by omega)
        simp only [show 8 - (i + 1) = n by omega] at htail
        rw [htail]
        refine Prod.ext rfl ?_
        simp only [decide_eq_decide]
        omega
    · -- not listed
      simp only [hd, ↓reduceIte]
      exact ih q i hi

/-- The body of the response has its fixed size. -/
@[simp] theorem len_registerRes (p : Pkg) (fd : ℕ) :
    (registerRes p fd).len = sizeofRegisterClientRes := by
  simp only [registerRes, Pkg.len_setResult]
  exact Pkg.len_setLen (by decide)

/-- The response is for the requester. -/
theorem fd_registerRes (p : Pkg) {fd : ℕ} (h : fd < 4294967296) : (registerRes p fd).fd = fd := by
  simp only [registerRes, Pkg.fd_setResult, Pkg.fd_setLen]
  exact Pkg.fd_setFd h

/-- The response is no START. -/
theorem isStart_registerRes (p : Pkg) (fd : ℕ) : ¬ (registerRes p fd).IsStart := by
  simp [registerRes, Pkg.IsStart, PkgCmdType.code]

/-- The raspis the loop of `handle_register_client_req` meets for the requester `c`. -/
theorem raspisFor_eq (s : Server) (pkg : Pkg) (c : Slot) :
    (s.channelMap.toList.filter fun e =>
      ((((s.enter (.handleRegisterClientReq pkg)).setType c .remote).channel e.2).status = .active ∧
        (((s.enter (.handleRegisterClientReq pkg)).setType c .remote).channel e.2).type =
          .raspi : Bool)) = s.raspisFor c := by
  apply List.filter_congr
  intro e _
  by_cases he : e.2 = c
  · simp [he]
  · simp [modify_channel_of_ne he, he]

/-- The reply of `handle_register_client_req` to `c`, which registers as `t`. -/
def registration (s : Server) (pkg : Pkg) (c : Slot) (t : ClientType) : Pkg :=
  (registerRes (s.channel c).sendCtx.pkg pkg.fd).setRaspiFds 0 (s.listed c t)

/-- The ways through `handle_register_client_req`. -/
theorem handleRegisterClientReq_cases (s : Server) (pkg : Pkg) :
    s.handleRegisterClientReq pkg = (s.enter (.handleRegisterClientReq pkg), -1) ∧
      (s.lookup pkg.fd = none ∨ pkg.registers = none) ∨
    ∃ c t, s.lookup pkg.fd = some c ∧ pkg.clientType = t.code ∧
      (s.handleRegisterClientReq pkg = (((s.enter (.handleRegisterClientReq pkg)).setType c
          t).reply c (s.registration pkg c t), 0) ∧ (t = .remote → (s.raspisFor c).length < 8) ∨
        t = .remote ∧ 8 ≤ (s.raspisFor c).length ∧
          s.handleRegisterClientReq pkg = (((s.enter (.handleRegisterClientReq pkg)).setType c
            t).setSendPkg c (s.registration pkg c t), -1)) := by
  cases hc : s.lookup pkg.fd with
  | none =>
    have hc' : (s.enter (.handleRegisterClientReq pkg)).lookup pkg.fd = none := hc
    simp only [handleRegisterClientReq, hc', true_or, and_self]
  | some c =>
    have hc' : (s.enter (.handleRegisterClientReq pkg)).lookup pkg.fd = some c := hc
    have hset : ∀ (u : Server) (p : Pkg), ((u.setSendPkg c p).channel c).sendCtx.pkg = p :=
      fun u p => by simp
    have hbuf : ∀ t, (((s.enter (.handleRegisterClientReq pkg)).setType c t).channel
        c).sendCtx.pkg = (s.channel c).sendCtx.pkg := fun t => by simp
    by_cases hra : pkg.clientType = ClientType.raspi.code
    · refine .inr ⟨c, .raspi, rfl, hra, .inl ⟨?_, nofun⟩⟩
      simp only [handleRegisterClientReq, hc', hra, ↓reduceIte, hset, hbuf]
      rfl
    · by_cases hre : pkg.clientType = ClientType.remote.code
      · have heq := listRaspis_eq ((s.enter (.handleRegisterClientReq pkg)).setType c .remote) c
          s.channelMap.toList (registerRes (s.channel c).sendCtx.pkg pkg.fd) 0 (by decide)
        have hfd : ∀ e : ℕ × Slot, (((s.enter (.handleRegisterClientReq pkg)).setType c
            .remote).channel e.2).fd = (s.channel e.2).fd := fun e => by simp
        simp only [raspisFor_eq, hfd, Nat.sub_zero, zero_add, List.length_map] at heq
        have hmap : ∀ q, (((s.enter (.handleRegisterClientReq pkg)).setType c .remote).setSendPkg c
            q).channelMap = s.channelMap := fun _ => rfl
        refine .inr ⟨c, .remote, rfl, hre, ?_⟩
        simp only [handleRegisterClientReq, hc', hre, ↓reduceIte, hmap, hbuf, heq]
        -- the reply is sent only if the loop came to its end
        by_cases hfull : (s.raspisFor c).length < 8
        · refine .inl ⟨?_, fun _ => hfull⟩
          simp only [hfull, decide_true, hset]
          rfl
        · refine .inr ⟨trivial, not_lt.1 hfull, ?_⟩
          simp only [hfull, decide_false]
          rfl
      · simp only [handleRegisterClientReq, hc', hra, hre, ↓reduceIte, Pkg.registers, or_true,
          and_self, true_or]

/-- The packet that `response` gets has the fixed size, whatever is listed. -/
theorem len_registration (s : Server) (pkg : Pkg) (c : Slot) (t : ClientType) :
    (s.registration pkg c t).len = sizeofRegisterClientRes := by
  rw [registration, len_setRaspiFds, len_registerRes]

/-- It is for the requester. -/
theorem fd_registration (s : Server) (pkg : Pkg) (c : Slot) (t : ClientType) :
    (s.registration pkg c t).fd = pkg.fd := by
  rw [registration, fd_setRaspiFds, fd_registerRes _ pkg.fd_lt]

/-- It is no START. -/
theorem isStart_registration (s : Server) (pkg : Pkg) (c : Slot) (t : ClientType) :
    ¬ (s.registration pkg c t).IsStart := by
  rw [registration, Pkg.IsStart, cmd_setRaspiFds]
  exact isStart_registerRes _ _

/-- A registration is a run of effects. -/
theorem handleRegisterClientReq_effects (hs : s.Sound) (pkg : Pkg) :
    Effects s (s.handleRegisterClientReq pkg).1 := by
  rcases s.handleRegisterClientReq_cases pkg with
    ⟨h, hno⟩ | ⟨c, t, hc, ht, ⟨h, -⟩ | ⟨rfl, hfull, h⟩⟩
  · rw [h]
    exact .single (.log _ (hno.imp_left fun hl => (hs.lookup_eq _).symm.trans hl))
  · have hmap : s.channelMap[pkg.fd]? = some c := (hs.lookup_eq _).symm.trans hc
    have hreg := Effect.register pkg c t hmap ht
    rw [h]
    refine .head hreg (reply_effects (hs.effect hreg) ⟨?_, ?_, ?_⟩)
    · rw [fd_registration]
      exact hmap
    · rw [len_registration]
      decide
    · exact fun hst => absurd hst (isStart_registration _ _ _ _)
  · have hmap : s.channelMap[pkg.fd]? = some c := (hs.lookup_eq _).symm.trans hc
    rw [h]
    exact .single (.listFull pkg c _ hmap ht hfull (fd_registration ..) (len_registration ..)
      (isStart_registration _ _ _ _))

/-- The body of the answer is one word. -/
@[simp] theorem len_chooseRes (p : Pkg) (fd : ℕ) : (chooseRes p fd).len = sizeofInt := by
  simp only [chooseRes, Pkg.len_setResult]
  exact Pkg.len_setLen (by decide)

/-- The answer to the viewer is no START. -/
theorem isStart_chooseRes (p : Pkg) (fd : ℕ) : ¬ (chooseRes p fd).IsStart := by
  simp [chooseRes, Pkg.IsStart, PkgCmdType.code]

/-- The answer is for the viewer. -/
theorem fd_chooseRes (p : Pkg) {fd : ℕ} (h : fd < 4294967296) : (chooseRes p fd).fd = fd := by
  simp only [chooseRes, Pkg.fd_setResult, Pkg.fd_setLen]
  exact Pkg.fd_setFd h

/-- The body of a START is one word. -/
@[simp] theorem len_startNtf (p : Pkg) (fd : ℕ) : (startNtf p fd).len = sizeofInt := by
  simp only [startNtf, Pkg.len_setReserve]
  exact Pkg.len_setLen (by decide)

@[simp] theorem fd_startNtf (p : Pkg) (fd : ℕ) : (startNtf p fd).fd = p.fd := by
  simp only [startNtf, Pkg.fd_setReserve, Pkg.fd_setLen, Pkg.fd_setCmd]

/-- `response` does not end a choose request. -/
theorem response_choosing (s : Server) (p : Pkg) :
    (s.response p).1.calls.choosing = s.calls.choosing := by
  obtain h | ⟨c, g, h⟩ := s.response_calls p <;> rw [h] <;> rfl

/-- The choice that is being answered stays the same. -/
theorem Chose.response {fd : ℕ} (h : Chose s.calls fd d) (p : Pkg) :
    Chose (s.response p).1.calls fd d := by
  refine ⟨?_, ?_, (response_choosing s p).trans h.choosing⟩
  · obtain hc | ⟨c, g, hc⟩ := s.response_calls p <;> rw [hc] <;> exact h.target
  · obtain hc | ⟨c, g, hc⟩ := s.response_calls p <;> rw [hc] <;> exact h.asker

/-- `handle_choose_server_req` found both channels. -/
theorem chose_enter {pkg : Pkg} (hs : s.Sound) (hsender : s.calls.sender = s.calls.conn pkg.fd)
    (hc : s.lookup pkg.fd = some c) (hd : s.lookup pkg.chooseFd = some d) :
    Chose (s.enter (.handleChooseServerReq pkg)).calls pkg.fd d where
  target := (hs.lookup_eq _).symm.trans hd
  asker := hsender
  choosing := by
    simp only [Server.enter, History.choosing, Globals.chosen, hc, hd, reduceCtorEq, ↓reduceIte,
      Option.map_some]

/-- A START names the connection whose request it answers. -/
theorem Chose.starts {fd : ℕ} (h : Chose s.calls fd d) (hfd : fd < 4294967296) (q : Pkg) :
    s.Starts d (startNtf q fd) where
  target := h.target
  reserve := by
    rw [h.asker]
    exact Pkg.reserve_setReserve hfd
  current := by
    rw [History.Current, h.asker]
    rfl

/-- The notification of `handle_choose_server_req`, to a channel `d` that owns its descriptor
or was freed on the way. -/
theorem startNtf_effects (hs : s.Sound) (remotefd : ℕ)
    (hd : s.Live d ∨ s.channelMap[(s.channel d).fd]? = none ∧
      (s.channel d).sendCtx.io.active = false)
    (hst : s.Starts d (startNtf (s.channel d).sendCtx.pkg remotefd)) :
    Effects s (s.reply d (startNtf (s.channel d).sendCtx.pkg remotefd)) := by
  have hlen := len_startNtf (s.channel d).sendCtx.pkg remotefd
  have hfd := fd_startNtf (s.channel d).sendCtx.pkg remotefd
  generalize startNtf (s.channel d).sendCtx.pkg remotefd = p at *
  have hX : (s.setSendPkg d p).Sound := by
    apply hs.setSendPkg (by rw [hlen]; decide)
    rw [hfd, hlen]
    exact (hs.slot d).pkgFd.imp_left fun h => ⟨h.1, le_rfl⟩
  -- the START keeps the address of the packet before, which may be nobody's
  have hlost : s.channelMap[p.fd]? = none → (p.fd = 0 ∨ (s.channel d).sendCtx.io.active = false) →
      Effects s (s.reply d p) := by
    intro hnone h
    rw [reply, response_of_none ((hX.lookup_eq _).trans hnone)]
    exact .single (.startLost d p hfd hlen h hst hnone)
  -- a buffer that was never addressed, or one that leads to its channel
  rcases (hs.slot d).pkgFd with ⟨h0, -⟩ | hown
  · have hp : p.fd = 0 := hfd.trans h0
    refine hlost ?_ (.inl hp)
    cases hm : s.channelMap[p.fd]? with
    | none => rfl
    | some x => exact absurd hp (hs.fd_ne_zero hm)
  · rcases hd with hd | ⟨hgone, hoff⟩
    · refine reply_effects hs ⟨?_, by rw [hlen]; decide, fun _ => hst⟩
      rw [hfd, hown]
      exact hd
    · exact hlost (by rw [hfd, hown]; exact hgone) (.inr hoff)

/-- A choose request is answered for the connection whose packet was handed over. -/
theorem handleChooseServerReq_effects (hs : s.Sound) {pkg : Pkg}
    (hsender : s.calls.sender = s.calls.conn pkg.fd) :
    Effects s (s.handleChooseServerReq pkg).1 := by
  have hE : (s.enter (.handleChooseServerReq pkg)).Sound := hs.enter _
  have hlog : Effects s (s.enter (.handleChooseServerReq pkg)) := .single (.log _ hsender)
  have hfd : pkg.fd < 4294967296 := pkg.fd_lt
  rcases s.handleChooseServerReq_cases pkg with ⟨-, h⟩ | ⟨c, d, hc, hd, h⟩
  · rw [h]
    exact hlog
  · have hch := chose_enter hs hsender hc hd
    have hrem : (s.enter (.handleChooseServerReq pkg)).channelMap[pkg.fd]? = some c :=
      (hs.lookup_eq _).symm.trans hc
    have hras : (s.enter (.handleChooseServerReq pkg)).channelMap[pkg.chooseFd]? = some d :=
      (hs.lookup_eq _).symm.trans hd
    rw [h]
    simp only
    generalize s.enter (.handleChooseServerReq pkg) = u at *
    -- the reply to the remote
    have hrep : u.Replies c (chooseRes (u.channel c).sendCtx.pkg pkg.fd) :=
      ⟨by rw [fd_chooseRes _ hfd]; exact hrem, by rw [len_chooseRes]; decide,
        fun h => absurd h (isStart_chooseRes _ _)⟩
    have h1 := reply_effects hE hrep
    have hlive := response_live (d := d) (hE.setSendPkg hrep.len (.inr (hrep.fd_eq hE).symm))
      (p := chooseRes (u.channel c).sendCtx.pkg pkg.fd) (by
        simpa [Globals.Live, hE.fd_eq hras] using hras)
    have hgone := h1.live_or_gone (hE.live hras)
    have hch' : Chose (u.reply c (chooseRes (u.channel c).sendCtx.pkg pkg.fd)).calls pkg.fd d :=
      Chose.response (s := u.setSendPkg c _) hch _
    change (u.reply c (chooseRes (u.channel c).sendCtx.pkg pkg.fd)).Live d ∨
      ((u.reply c (chooseRes (u.channel c).sendCtx.pkg pkg.fd)).channel d).sendCtx.io.active =
        false at hlive
    generalize u.reply c (chooseRes (u.channel c).sendCtx.pkg pkg.fd) = v at *
    -- the notification to the raspi
    have h2 : Effects v (v.useIterator pkg.chooseFd) := useIterator_effects v _
    have hw := (hE.effects h1).effects h2
    have hd' : (v.useIterator pkg.chooseFd).Live d ∨
        (v.useIterator pkg.chooseFd).channelMap[((v.useIterator pkg.chooseFd).channel
          d).fd]? = none ∧
        ((v.useIterator pkg.chooseFd).channel d).sendCtx.io.active = false := by
      have hsame : (v.useIterator pkg.chooseFd).channelMap = v.channelMap ∧
          (v.useIterator pkg.chooseFd).channel = v.channel := by
        unfold useIterator; split <;> exact ⟨rfl, rfl⟩
      rw [Globals.Live, hsame.1, hsame.2]
      rcases hgone with hl | hg
      · exact .inl hl
      · exact hlive.imp_right fun ha => ⟨hg, ha⟩
    have hchw := (v.useIterator_calls pkg.chooseFd).symm ▸ hch'
    generalize v.useIterator pkg.chooseFd = w at *
    have h3 := startNtf_effects hw pkg.fd hd' (hchw.starts hfd _)
    have hchx : Chose ((w.reply d (startNtf (w.channel d).sendCtx.pkg pkg.fd)).useIterator
        pkg.chooseFd).calls pkg.fd d :=
      (useIterator_calls _ pkg.chooseFd).symm ▸ Chose.response (s := w.setSendPkg d _) hchw _
    exact ((((hlog.trans h1).trans h2).trans h3).trans (useIterator_effects _ _)).tail
      (.bridge pkg.fd d hchx)

/-- A request is a run of effects if its descriptor is that of its sender. -/
theorem handle_effects (hs : s.Sound) {pkg : Pkg}
    (hsender : s.calls.sender = s.calls.conn pkg.fd) : Effects s (s.handle pkg).1 := by
  have hlog : Effects s (s.enter (.handle pkg)) := .single (.log _ trivial)
  rcases s.handle_cases pkg with h | h | h <;> rw [h]
  · exact hlog.trans (handleRegisterClientReq_effects (hs.enter _) pkg)
  · exact hlog.trans (handleChooseServerReq_effects (hs.enter _) hsender)
  · exact hlog

/-! ## `server_send_cb` -/

/-- `server_send_cb` is a run of effects if its watcher is started. -/
theorem serverSendCb_effects (hs : s.Sound) (h : (s.channel c).sendCtx.io.active = true) :
    Effects s (s.serverSendCb c) := by
  rcases s.serverSendCb_cases c with
    ⟨k, ho, heq⟩ | ⟨k, ho, hk, ⟨ha, heq⟩ | ⟨a, ha, heq⟩⟩ | ⟨ho, heq⟩ <;> rw [heq]
  · rw [startSend_of_active (by simpa [sending] using h)]
    exact .single (.sendMore c k h ho)
  · exact .single (.sendNull c k h ho hk ha)
  · exact .single (.sendOver c k a h ho hk ha)
  · have hfail := Effect.sendFail c h ho
    have hY := hs.effect hfail
    have hact : (((s.enter (.serverSendCb c)).popped (s.channel c).fd (s.channel c).sendCtx.len
        (s.sendCount c)).channel c).sendCtx.io.active = true := h
    simp only
    generalize (s.enter (.serverSendCb c)).popped (s.channel c).fd (s.channel c).sendCtx.len
        (s.sendCount c) = t at *
    have hmid : Effects t (t.checkBreakFd (t.channel c).type (t.channel c).fd) :=
      .single (checkBreakFd_effect hY _ _)
    have hu := hmid.fd_eq c ▸ (hY.slot c).sendUsed hact
    rw [(hY.effects hmid).freeChannel_eq hu]
    refine (Relation.ReflTransGen.head hfail hmid).tail
      (.free c ⟨hu, ?_⟩ (checkBreakFd_closing _ _ _))
    by_cases hl : t.Live c
    · exact (hmid.live_or_gone hl).imp_right .inl
    · -- the callback is that of `c`, and its watcher is started still
      refine .inr (.inr (.inr ?_))
      rw [checkBreakFd_sendActive hY _ _ hl]
      exact hact

/-! ## Histories of the calls further out -/

/-- A call that the functions make when they answer, notify or give up, with a packet that `A`
holds of. -/
def Inner (A : Pkg → Prop) : Call → Prop
  | .response p => A p
  | .checkBreakFd _ _ | .freeChannel _ => True
  | _ => False

/-- A call that comes before the others of its effect. -/
def Outer : Call → Prop
  | .response _ | .freeChannel _ => False
  | _ => True

/-- What is in the record is the last call or was there before. -/
theorem suffix_cons_cases {k k' : Call} {g g' : Globals} {l l' : History}
    (h : (k, g) :: l <:+ (k', g') :: l') :
    k = k' ∧ g = g' ∧ l = l' ∨ (k, g) :: l <:+ l' := by
  apply (List.suffix_cons_iff.1 h).imp_left
  intro h
  obtain ⟨h, hl⟩ := List.cons.inj h
  obtain ⟨hk, hg⟩ := Prod.mk.inj h
  exact ⟨hk, hg, hl⟩

/-- A call by the event loop was there before an inner one. -/
theorem suffix_of_cons {k k' : Call} {g g' : Globals} {l l' : History}
    (h : (k, g) :: l <:+ (k', g') :: l') (hk : Outer k) (hk' : ¬ Outer k') :
    (k, g) :: l <:+ l' := by
  apply (suffix_cons_cases h).resolve_left
  rintro ⟨rfl, -, -⟩
  exact hk' hk

/-- A new call that is no call of `response` or `free_channel` is made at the start of an effect. -/
theorem Effect.outer (he : Effect s t) {k : Call} {g : Globals} {l : History}
    (h : (k, g) :: l <:+ t.calls) (hk : Outer k) :
    (k, g) :: l <:+ s.calls ∨ g = s.toGlobals ∧ l = s.calls := by
  have hone : ∀ {k' : Call}, (k, g) :: l <:+ (k', s.toGlobals) :: s.calls →
      (k, g) :: l <:+ s.calls ∨ g = s.toGlobals ∧ l = s.calls :=
    fun h => ((suffix_cons_cases h).imp_left And.right).symm
  cases he with
  | answers | fail | bridge => exact .inl h
  | replyCut | replyDone | replyFail | startLost => exact .inl (suffix_of_cons h hk id)
  | breakLost | breakCut | breakDone => exact hone (suffix_of_cons h hk id)
  | breakFail => exact hone (suffix_of_cons (suffix_of_cons h hk id) hk id)
  | _ => exact hone h

section Inner
variable {α : Type*} {A : Pkg → Prop} {φ : History → α}
  (hφ : ∀ k g l, Inner A k → φ ((k, g) :: l) = φ l)

include hφ

/-- `response` is an inner call, and so is the `free_channel` in it. -/
theorem response_inner (s : Server) (hp : A p) : φ (s.response p).1.calls = φ s.calls := by
  obtain h | ⟨c, g, h⟩ := s.response_calls p <;> rw [h]
  · exact hφ (.response p) _ _ hp
  · exact (hφ (.freeChannel c) _ _ trivial).trans (hφ (.response p) _ _ hp)

theorem reply_inner (s : Server) (c : Slot) (hp : A p) : φ (s.reply c p).calls = φ s.calls :=
  response_inner hφ (s.setSendPkg c p) hp

/-- `free_channel` is an inner call. -/
theorem freeChannel_inner (s : Server) (c : Slot) : φ (s.freeChannel c).calls = φ s.calls :=
  hφ (.freeChannel c) _ _ trivial

section Handlers
variable (hA : ∀ p, A p)

include hA

/-- A registration calls `response`. -/
theorem handleRegisterClientReq_inner (s : Server) (pkg : Pkg) :
    φ (s.handleRegisterClientReq pkg).1.calls =
      φ (s.enter (.handleRegisterClientReq pkg)).calls := by
  rcases s.handleRegisterClientReq_cases pkg with ⟨h, -⟩ | ⟨c, t, -, -, ⟨h, -⟩ | ⟨-, -, h⟩⟩ <;> rw [h]
  · exact reply_inner hφ _ _ (hA _)
  · rfl

/-- A choose request calls `response` twice. -/
theorem handleChooseServerReq_inner (s : Server) (pkg : Pkg) :
    φ (s.handleChooseServerReq pkg).1.calls = φ (s.enter (.handleChooseServerReq pkg)).calls := by
  rcases s.handleChooseServerReq_cases pkg with ⟨-, h⟩ | ⟨c, d, -, -, h⟩ <;> rw [h]
  simp only [useIterator_calls, reply_inner hφ _ _ (hA _)]

theorem handle_inner (hreg : ∀ pkg g l, φ ((.handleRegisterClientReq pkg, g) :: l) = φ l)
    (hch : ∀ pkg g l, φ ((.handleChooseServerReq pkg, g) :: l) = φ l) (s : Server) (pkg : Pkg) :
    φ (s.handle pkg).1.calls = φ (s.enter (.handle pkg)).calls := by
  rcases s.handle_cases pkg with h | h | h <;> rw [h]
  · exact (handleRegisterClientReq_inner hφ hA _ pkg).trans (hreg ..)
  · exact (handleChooseServerReq_inner hφ hA _ pkg).trans (hch ..)

end Handlers

section Relays
variable (hA : ∀ fd, A (restartPkg fd))

include hA

/-- `check_break_fd` calls `response`. -/
theorem checkBreakFd_inner (s : Server) (type : ClientType) (fd : ℕ) :
    φ (s.checkBreakFd type fd).calls = φ s.calls := by
  have hlog : φ (s.enter (.checkBreakFd type fd)).calls = φ s.calls :=
    hφ (.checkBreakFd type fd) _ _ trivial
  rcases s.checkBreakFd_cases type fd with ⟨-, h⟩ | ⟨r, rfl, -, h⟩ <;> rw [h]
  · exact hlog
  · exact (response_inner hφ _ (hA _)).trans hlog

/-- `dispatch` calls `check_break_fd` and `free_channel`. -/
theorem dispatch_inner (s : Server) (pkg : Pkg) (srcfd dstfd : ℕ) :
    φ (s.dispatch pkg srcfd dstfd).1.calls = φ (s.enter (.dispatch pkg srcfd dstfd)).calls := by
  rcases s.dispatch_cases pkg srcfd dstfd with
    ⟨-, h⟩ | ⟨a, d, -, -, -, ⟨k, -, h⟩ | ⟨-, h⟩ | ⟨-, h⟩⟩ <;> rw [h]
  · rfl
  · rfl
  · simp only
    rw [freeChannel_inner hφ, useIterator_calls, checkBreakFd_inner hφ hA]
    rfl

/-- `server_send_cb` calls `check_break_fd` and `free_channel`. -/
theorem serverSendCb_inner (s : Server) (c : Slot) :
    φ (s.serverSendCb c).calls = φ (s.enter (.serverSendCb c)).calls := by
  rcases s.serverSendCb_cases c with
    ⟨k, -, h⟩ | ⟨k, -, -, ⟨-, h⟩ | ⟨a, -, h⟩⟩ | ⟨-, h⟩ <;> rw [h]
  · rfl
  · rfl
  · rfl
  · simp only
    rw [freeChannel_inner hφ, checkBreakFd_inner hφ hA]
    rfl

end Relays
end Inner

end Server
end WawaServer
