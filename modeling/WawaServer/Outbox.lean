import WawaServer.Framing

/-!
# The bytes of the outbox

`outbox` counts messages, and `sent` has bytes. Under the condition that keeps the output framed the
two agree: the bytes that `send` accepted on a connection are the frames of its outbox, in their
order, and the beginning of the frame in its send buffer (`Mailed`).
-/

namespace WawaServer

/-- What was sent of the frame in the send buffer. -/
def Globals.begun (s : Globals) (c : Slot) : List UInt8 :=
  if (s.channel c).sendCtx.io.active then
    Buffer.slice (s.channel c).sendCtx.pkg 0 (s.channel c).sendCtx.len
  else []

/-- The bytes of the messages in the outbox. -/
def History.outboxBytes (fd : ℕ) (l : History) : List UInt8 :=
  ((l.outbox fd).map fun m => m.1.frame).flatten

namespace Server

open Pkg

variable {s t : Server} {c d e : Slot} {p pkg : Pkg} {k fd srcfd dstfd : ℕ}

/-! ## The outbox after a call -/

section Calls
variable {g : Globals} {l : History}

/-- A packet that `response` does not send whole is in no outbox. -/
theorem outbox_response_unsent (h : p.fd = fd → g.channelMap[fd]? ≠ none →
    g.outcome fd p.total ≠ .sent p.total) :
    History.outbox fd ((.response p, g) :: l) = l.outbox fd := by
  have hno : ¬ (p.fd = fd ∧ g.channelMap[fd]? ≠ none ∧ g.outcome fd p.total = .sent p.total) :=
    fun ⟨hfd, hmap, ho⟩ => h hfd hmap ho
  rw [History.outbox, if_neg hno, List.append_nil]

/-- A packet that `response` sends whole is in its addressee's outbox. -/
theorem outbox_response_sent (hmap : g.channelMap[p.fd]? ≠ none)
    (ho : g.outcome p.fd p.total = .sent p.total) :
    History.outbox p.fd ((.response p, g) :: l) = l.outbox p.fd ++ [(p, l.asker)] := by
  rw [History.outbox, if_pos ⟨rfl, hmap, ho⟩]

/-- A packet that `dispatch` does not send whole is in no outbox. -/
theorem outbox_dispatch_unsent (h : dstfd = fd → g.Writes pkg srcfd dstfd →
    g.outcome fd pkg.total ≠ .sent pkg.total) :
    History.outbox fd ((.dispatch pkg srcfd dstfd, g) :: l) = l.outbox fd := by
  have hno : ¬ (dstfd = fd ∧ g.Writes pkg srcfd dstfd ∧
      g.outcome fd pkg.total = .sent pkg.total) := fun ⟨hfd, hw, ho⟩ => h hfd hw ho
  rw [History.outbox, if_neg hno, List.append_nil]

/-- A packet that `dispatch` sends whole is in its destination's outbox. -/
theorem outbox_dispatch_sent (hw : g.Writes pkg srcfd dstfd)
    (ho : g.outcome dstfd pkg.total = .sent pkg.total) :
    History.outbox dstfd ((.dispatch pkg srcfd dstfd, g) :: l) =
      l.outbox dstfd ++ [(pkg, (0, 0))] := by
  rw [History.outbox, if_pos ⟨rfl, hw, ho⟩]

/-- A frame that `server_send_cb` does not complete is in no outbox. -/
theorem outbox_sendCb_unsent (h : (g.channel c).fd = fd → ¬ g.Completes c) :
    History.outbox fd ((.serverSendCb c, g) :: l) = l.outbox fd := by
  have hno : ¬ ((g.channel c).fd = fd ∧ g.Completes c) := fun ⟨hfd, hcom⟩ => h hfd hcom
  rw [History.outbox, if_neg hno, List.append_nil]

/-- The frame that `server_send_cb` completes is the one in the send buffer. -/
theorem outbox_sendCb_sent (h : g.Completes c) :
    History.outbox (g.channel c).fd ((.serverSendCb c, g) :: l) =
      l.outbox (g.channel c).fd ++ [((g.channel c).sendCtx.pkg, l.startOf c)] := by
  rw [History.outbox, if_pos ⟨rfl, h⟩]

end Calls

/-! ## The invariant -/

/-- The output of the connection in `c` is its outbox and the beginning of one more message. Only
packets that fit count as sent. -/
structure Mailed (s : Server) (c : Slot) : Prop where
  sent : s.sent (s.channel c).fd = s.calls.outboxBytes (s.channel c).fd ++ s.begun c
  fits : ∀ m ∈ s.calls.outbox (s.channel c).fd, m.1.len ≤ bufSize

/-- The same outbox, send buffer and output. -/
theorem Mailed.congr (h : s.Mailed c) (hfd : (t.channel c).fd = (s.channel c).fd)
    (hbox : t.calls.outbox (s.channel c).fd = s.calls.outbox (s.channel c).fd)
    (hsend : (t.channel c).sendCtx = (s.channel c).sendCtx)
    (hsent : t.sent (s.channel c).fd = s.sent (s.channel c).fd) : t.Mailed c where
  sent := by
    rw [hfd, hsent, h.sent, Globals.begun, Globals.begun, hsend, History.outboxBytes,
      History.outboxBytes, hbox]
  fits := by
    rw [hfd, hbox]
    exact h.fits

/-- Between two messages, the bytes are those of the outbox. -/
theorem Mailed.sent_eq (h : s.Mailed c) (hmid : ¬ s.MidFrame c) :
    s.sent (s.channel c).fd = s.calls.outboxBytes (s.channel c).fd := by
  have hnil : s.begun c = [] := by
    unfold Globals.begun
    split
    · rename_i hact
      have hzero : (s.channel c).sendCtx.len = 0 := by
        by_contra hne
        exact hmid ⟨hact, Nat.pos_of_ne_zero hne⟩
      rw [hzero, Buffer.slice_zero_length]
    · rfl
  rw [h.sent, hnil, List.append_nil]

/-- The output grew by `bs` and the outbox by `ms`, from the end of a message. -/
theorem Mailed.of_grown (h : s.Mailed c) (bs : List UInt8) (ms : List (Pkg × Conn))
    (hmid : ¬ s.MidFrame c) (hfd : (t.channel c).fd = (s.channel c).fd)
    (hsent : t.sent (s.channel c).fd = s.sent (s.channel c).fd ++ bs)
    (hbox : t.calls.outbox (s.channel c).fd = s.calls.outbox (s.channel c).fd ++ ms)
    (hms : bs = (ms.map fun m => m.1.frame).flatten ++ t.begun c)
    (hfits : ∀ m ∈ ms, m.1.len ≤ bufSize) : t.Mailed c where
  sent := by
    rw [hfd, hsent, h.sent_eq hmid, hms, History.outboxBytes, History.outboxBytes, hbox]
    simp
  fits := by
    rw [hfd, hbox]
    exact fun m hm => (List.mem_append.1 hm).elim (h.fits m) (hfits m)

/-! ## One effect, on the connection it is about -/

section Touched

/-- The beginning of a reply follows the outbox. -/
theorem Mailed.replyCut (hs : s.Sound) (h : s.Mailed c) (hmid : ¬ s.MidFrame c) (hr : s.Replies c p)
    (ho : s.CutShort p.fd p.total k) :
    ((((s.replying c p).wrote p.fd p 0 p.total k).setSendLen c k).startSend c).Mailed c := by
  have hfd := hr.fd_eq hs
  apply h.of_grown (Buffer.slice p 0 k) [] hmid
  · simp [replying]
  · simp [replying, hfd]
  · rw [List.append_nil]
    apply outbox_response_unsent
    intro hpfd _
    rw [← hpfd]
    exact ho.outcome_ne.2
  · simp [replying, Globals.begun]
  · simp

/-- A whole reply is in the outbox. -/
theorem Mailed.replyDone (hs : s.Sound) (h : s.Mailed c) (hmid : ¬ s.MidFrame c)
    (hr : s.Replies c p) (ho : s.outcome p.fd p.total = .sent p.total) :
    (((s.replying c p).wrote p.fd p 0 p.total p.total).startRecv c).Mailed c := by
  have hfd := hr.fd_eq hs
  apply h.of_grown p.frame [(p, s.calls.asker)] hmid
  · simp [replying]
  · simp [replying, hfd]
  · rw [hfd]
    exact outbox_response_sent (by simp [hr.live]) ho
  · simp [replying, Globals.begun]
  · simpa using hr.len

/-- A reply that is refused adds nothing. -/
theorem Mailed.replyFail (h : s.Mailed c) (hmid : ¬ s.MidFrame c)
    (ho : s.outcome p.fd p.total = .error) :
    ((s.replying c p).popped p.fd 0 p.total).Mailed c := by
  apply h.of_grown [] [] hmid
  · simp [replying]
  · simp [replying]
  · rw [List.append_nil]
    apply outbox_response_unsent
    intro hpfd _ hsent
    have herr : s.outcome (s.channel c).fd p.total = .sent p.total := hsent
    rw [← hpfd, ho] at herr
    cases herr
  · simp [replying, Globals.begun]
  · simp

/-- A START that is delivered to nobody is built in a buffer that nothing is sent from. -/
theorem Mailed.startLost (h : s.Mailed c) (hoff : (s.channel c).sendCtx.io.active = false)
    (hnone : s.channelMap[p.fd]? = none) :
    ((s.setSendPkg c p).enter (.response p)).Mailed c := by
  have hmid : ¬ s.MidFrame c := by
    intro hmid
    cases hoff.symm.trans hmid.1
  apply h.of_grown [] [] hmid
  · simp
  · simp
  · rw [List.append_nil]
    apply outbox_response_unsent
    intro hpfd hmap
    rw [← hpfd] at hmap
    exact absurd hnone hmap
  · simp [Globals.begun, hoff]
  · simp

/-- A RESTART of which nothing was sent. -/
theorem Mailed.breakCut {r : Slot} (h : s.Mailed c) (hmid : ¬ s.MidFrame c)
    (ho : s.CutShort p.fd p.total 0) :
    (((((s.notifying fd c p).wrote p.fd p 0 p.total 0).setSendLen c 0).startSend c).unbridged fd
      r).Mailed c := by
  apply h.of_grown [] [] hmid
  · simp [notifying, unbridged]
  · simp [notifying, unbridged]
  · rw [List.append_nil]
    apply outbox_response_unsent
    intro hpfd _
    rw [← hpfd]
    exact ho.outcome_ne.2
  · simp [notifying, unbridged, Globals.begun]
  · simp

/-- A whole RESTART is in the outbox. -/
theorem Mailed.breakDone {r : Slot} (hs : s.Sound) (h : s.Mailed c) (hmid : ¬ s.MidFrame c)
    (hp : p.len ≤ bufSize) (hmap : s.channelMap[p.fd]? = some c)
    (ho : s.outcome p.fd p.total = .sent p.total) :
    ((((s.notifying fd c p).wrote p.fd p 0 p.total p.total).startRecv c).unbridged fd r).Mailed
      c := by
  have hfd := hs.fd_eq hmap
  apply h.of_grown p.frame [(p, s.calls.asker)] hmid
  · simp [notifying, unbridged]
  · simp [notifying, unbridged, hfd]
  · rw [hfd]
    exact outbox_response_sent (by simp [hmap]) ho
  · simp [notifying, unbridged, Globals.begun]
  · simpa using hp

/-- The beginning of a relayed frame follows the outbox. -/
theorem Mailed.relayCut {a : Slot} (hs : s.Sound) (h : s.Mailed d) (hmid : ¬ s.MidFrame d)
    (hr : s.Relays pkg srcfd dstfd a d) (ho : s.CutShort dstfd pkg.total k) :
    ((((s.relaying pkg srcfd dstfd d).wrote dstfd pkg 0 pkg.total k).setSendLen d k).pausing
      a d).Mailed d := by
  have hfd := hs.fd_eq hr.dst
  have hk := ho.lt pkg.total_pos
  apply h.of_grown (Buffer.slice pkg 0 k) [] hmid
  · simp [relaying, pausing]
  · simp [relaying, pausing, hfd]
  · rw [List.append_nil]
    apply outbox_dispatch_unsent
    intro hd _
    rw [← hd]
    exact ho.outcome_ne.2
  · -- the copy agrees with the frame on the bytes that were sent
    have hframe := Pkg.frame_copyFrame (s.channel d).sendCtx.pkg hr.len
    have hslice : Buffer.slice (copyFrame (s.channel d).sendCtx.pkg pkg) 0 k =
        Buffer.slice pkg 0 k := by
      rw [← Pkg.take_frame _ hk.le, ← hframe, Pkg.take_frame]
      rw [Pkg.total_copyFrame _ hr.len]
      exact hk.le
    simp [relaying, pausing, Globals.begun, hslice]
  · simp

/-- A whole relayed frame is in the outbox. -/
theorem Mailed.relayDone {a : Slot} (hs : s.Sound) (h : s.Mailed d) (hmid : ¬ s.MidFrame d)
    (hr : s.Relays pkg srcfd dstfd a d) (ho : s.outcome dstfd pkg.total = .sent pkg.total) :
    ((((s.relaying pkg srcfd dstfd d).wrote dstfd pkg 0 pkg.total pkg.total).stopSend
      d).startRecv a).Mailed d := by
  have hfd := hs.fd_eq hr.dst
  apply h.of_grown pkg.frame [(pkg, (0, 0))] hmid
  · simp [relaying]
  · simp [relaying, hfd]
  · rw [hfd]
    exact outbox_dispatch_sent ⟨by simp [hr.src], by simp [hr.dst], hr.len⟩ ho
  · simp [relaying, Globals.begun]
  · simpa using hr.len

/-- A frame that is refused adds nothing. -/
theorem Mailed.relayFail (h : s.Mailed d) (hmid : ¬ s.MidFrame d)
    (ho : s.outcome dstfd pkg.total = .error) :
    ((s.relaying pkg srcfd dstfd d).popped dstfd 0 pkg.total).Mailed d := by
  apply h.of_grown [] [] hmid
  · simp [relaying]
  · simp [relaying]
  · rw [List.append_nil]
    apply outbox_dispatch_unsent
    intro hd _ hsent
    rw [← hd, ho] at hsent
    cases hsent
  · simp [relaying, Globals.begun]
  · simp

/-- More of the frame follows the outbox. -/
theorem Mailed.sendMore (h : s.Mailed c) (hact : (s.channel c).sendCtx.io.active = true)
    (ho : s.outcome (s.channel c).fd (s.sendCount c) = .again ∧ k = 0 ∨
      s.outcome (s.channel c).fd (s.sendCount c) = .sent k ∧
        (s.channel c).sendCtx.len + k < (s.channel c).sendCtx.pkg.total) :
    (s.sending c k).Mailed c := by
  have hbox : (s.sending c k).calls.outbox (s.channel c).fd =
      s.calls.outbox (s.channel c).fd := by
    apply outbox_sendCb_unsent
    intro _ hcom
    unfold Globals.Completes at hcom
    rcases ho with ⟨ho, -⟩ | ⟨ho, hk⟩
    · simp [ho] at hcom
    · simp only [ho] at hcom
      omega
  have hfd : ((s.sending c k).channel c).fd = (s.channel c).fd := by simp [sending]
  constructor
  · have hsent := h.sent
    rw [Globals.begun, if_pos hact] at hsent
    rw [hfd, History.outboxBytes, hbox]
    simp [sending, hsent, Globals.begun, hact, History.outboxBytes, ← Pkg.slice_zero_add]
  · rw [hfd, hbox]
    exact h.fits

/-- The last bytes of the buffer complete a message. -/
theorem Mailed.finished (hs : s.Sound) (h : s.Mailed c)
    (hact : (s.channel c).sendCtx.io.active = true)
    (hlt : (s.channel c).sendCtx.len < (s.channel c).sendCtx.pkg.total)
    (ho : s.outcome (s.channel c).fd (s.sendCount c) = .sent k)
    (hk : (s.channel c).sendCtx.pkg.total ≤ (s.channel c).sendCtx.len + k) :
    (s.finishing c k).Mailed c := by
  have hlen := (hs.slot c).len_le
  have hcount := sendCount_eq hlt (Pkg.total_le hlen)
  have htot : (s.channel c).sendCtx.len + k = (s.channel c).sendCtx.pkg.total := by
    have hle := outcome_le ho
    omega
  have hbox : (s.finishing c k).calls.outbox (s.channel c).fd = s.calls.outbox (s.channel c).fd ++
      [((s.channel c).sendCtx.pkg, s.calls.startOf c)] :=
    outbox_sendCb_sent (.intro ho hk)
  have hfd : ((s.finishing c k).channel c).fd = (s.channel c).fd := by simp [finishing, sending]
  constructor
  · have hsent := h.sent
    rw [Globals.begun, if_pos hact] at hsent
    rw [hfd, History.outboxBytes, hbox]
    simp [finishing, sending, hsent, Globals.begun, History.outboxBytes, Pkg.slice_zero_add, htot]
  · rw [hfd, hbox]
    intro m hm
    rcases List.mem_append.1 hm with hm | hm
    · exact h.fits m hm
    · rw [List.mem_singleton.1 hm]
      exact hlen

end Touched

/-! ## Runs -/

/-- Of a connection whose frame is pending, the frame in the buffer was asked for, and is not
addressed to nobody. -/
theorem InFrames.idle_of_unaddressed (h : s.InFrames c) (hs : s.Sound) (hlive : s.Live c)
    (h0 : (s.channel c).sendCtx.pkg.fd = 0) : (s.channel c).sendCtx.io.active = false := by
  by_contra hon
  obtain ⟨w, -, ⟨q, hq, -, hframe⟩, -⟩ := h.pending (by simpa using hon)
  have hqfd := fd_of_mem_asked hq
  rw [Pkg.fd_eq_of_frame_eq hframe, h0] at hqfd
  exact hs.used hlive hqfd.symm

/-- Every effect keeps the output of a connection in its outbox. -/
theorem Mailed.effect (hs : s.Sound) (hf : s.InFrames e) (he : Effect s t)
    (hG : t.Heeds FrameSafe) (hlive : t.Live e) (h : s.Mailed e) : t.Mailed e := by
  have hold := he.live_of hlive
  have hcongr := h.congr (he.fd_eq e)
  cases he with
  | log k hk =>
    refine hcongr ?_ rfl rfl
    cases k with
    | dispatch pkg srcfd dstfd =>
      apply outbox_dispatch_unsent
      rintro - ⟨hsrc, hdst, hlen⟩
      rcases hk with hk | hk | hk
      · exact absurd hk hsrc
      · exact absurd hk hdst
      · omega
    | _ => first | rfl | cases hk
  | free c hc =>
    have hec : e ≠ c := by rintro rfl; exact (freed_live.1 hlive).1 rfl
    exact hcongr rfl (by rw [freed_channel, if_neg hec]) rfl
  | listFull pkg c p hc ht hfull hfd hlen hcmd =>
    have hoff := hG (.handleRegisterClientReq pkg) s.toGlobals s.calls (by simp) ht c hc hfull
    by_cases hec : e = c
    · subst hec
      -- the half written list replaces a packet that is not being sent
      constructor
      · have hsent := h.sent
        simpa [Globals.begun, hoff, History.outboxBytes, History.outbox] using hsent
      · simpa [History.outbox] using h.fits
    · exact hcongr rfl (by simp [modify_channel_of_ne hec]) rfl
  | replyCut c p k hr ho =>
    have hmid := hG (.response p) (s.setSendPkg c p).toGlobals s.calls (by simp [replying])
      c hr.live
    by_cases hec : e = c
    · subst hec
      exact h.replyCut hs (by simpa [Globals.MidFrame] using hmid) hr ho
    · have hfd := fd_ne_of_live hold hr.live hec
      exact hcongr (outbox_response_unsent fun hp => absurd hp.symm hfd)
        (by simp [replying, modify_channel_of_ne hec]) (by simp [replying, hfd])
  | replyDone c p hr ho =>
    have hmid := hG (.response p) (s.setSendPkg c p).toGlobals s.calls (by simp [replying])
      c hr.live
    by_cases hec : e = c
    · subst hec
      exact h.replyDone hs (by simpa [Globals.MidFrame] using hmid) hr ho
    · have hfd := fd_ne_of_live hold hr.live hec
      exact hcongr (outbox_response_unsent fun hp => absurd hp.symm hfd)
        (by simp [replying, modify_channel_of_ne hec]) (by simp [replying, hfd])
  | replyFail c p hr ho =>
    have hmid := hG (.response p) (s.setSendPkg c p).toGlobals s.calls (by simp [replying])
      c hr.live
    by_cases hec : e = c
    · subst hec
      exact h.replyFail (by simpa [Globals.MidFrame] using hmid) ho
    · have hfd := fd_ne_of_live hold hr.live hec
      exact hcongr (outbox_response_unsent fun hp => absurd hp.symm hfd)
        (by simp [replying, modify_channel_of_ne hec]) (by simp [replying])
  | startLost d p hfd hlen hor hst hnone =>
    by_cases hed : e = d
    · subst hed
      have hoff := hor.elim (fun h0 => hf.idle_of_unaddressed hs hold (hfd ▸ h0)) id
      exact h.startLost hoff hnone
    · refine hcongr (outbox_response_unsent fun hp hmap => ?_)
        (by simp [modify_channel_of_ne hed]) rfl
      rw [← hp] at hmap
      exact absurd hnone hmap
  | breakLost fd r hb hr =>
    refine hcongr (outbox_response_unsent fun hp hmap => ?_) (by simp [unbridged]) rfl
    rw [← hp, fd_restartPkg (hs.slot r).fd_lt] at hmap
    exact absurd hr hmap
  | breakCut fd r c p k hn hp ho =>
    subst hp
    have hcall := hG (.checkBreakFd .remote fd) s.toGlobals s.calls
      (by simp [notifying, unbridged]) rfl r hn.bridge c hn.live
    have hmid := hG (.response (restartPkg (s.channel r).fd)) s.toGlobals
      ((.checkBreakFd .remote fd, s.toGlobals) :: s.calls) (by simp [notifying, unbridged]) c
      (hn.addressed hs)
    by_cases hec : e = c
    · subst hec
      have hzero : k = 0 := by
        cases ho with
        | again => rfl
        | short ho hk =>
          rw [hs.outcome_restartPkg] at ho
          exact absurd ho (hcall.1 k (by rwa [total_restartPkg] at hk))
      subst hzero
      exact h.breakCut hmid ho
    · have hfd := fd_ne_of_live hold (hn.addressed hs) hec
      exact hcongr (outbox_response_unsent fun hp => absurd hp.symm hfd)
        (by simp [notifying, unbridged, modify_channel_of_ne hec])
        (by simp [notifying, unbridged, hfd])
  | breakDone fd r c p hn hp ho =>
    have hadd : s.channelMap[p.fd]? = some c := hp ▸ hn.addressed hs
    have hmid := hG (.response p) s.toGlobals ((.checkBreakFd .remote fd, s.toGlobals) ::
      s.calls) (by simp [notifying, unbridged]) c hadd
    by_cases hec : e = c
    · subst hec
      exact h.breakDone hs hmid (by rw [hp, len_restartPkg]; decide) hadd ho
    · have hfd := fd_ne_of_live hold hadd hec
      exact hcongr (outbox_response_unsent fun hp => absurd hp.symm hfd)
        (by simp [notifying, unbridged, modify_channel_of_ne hec])
        (by simp [notifying, unbridged, hfd])
  | breakFail fd r c p hn hp ho =>
    have hec : e ≠ c := by
      rintro rfl
      exact (freed_live.1 (unbridged_live.1 hlive)).1 rfl
    have hadd : s.channelMap[p.fd]? = some c := hp ▸ hn.addressed hs
    have hfd := fd_ne_of_live hold hadd hec
    exact hcongr (outbox_response_unsent fun hp => absurd hp.symm hfd)
      (by simp [unbridged, notifying, freed_channel, hec, modify_channel_of_ne hec])
      (by simp [unbridged, notifying])
  | relayCut pkg srcfd dstfd a d k hr ho =>
    have hmid := hG (.dispatch pkg srcfd dstfd) s.toGlobals s.calls
      (by simp [relaying, pausing]) hr.len (by simp [hr.src]) d hr.dst
    by_cases hed : e = d
    · subst hed
      exact h.relayCut hs hmid hr ho
    · have hfd := fd_ne_of_live hold hr.dst hed
      exact hcongr (outbox_dispatch_unsent fun hp => absurd hp.symm hfd)
        (by simp [relaying, pausing, modify_channel_of_ne hed])
        (by simp [relaying, pausing, hfd])
  | relayDone pkg srcfd dstfd a d hr ho =>
    have hmid := hG (.dispatch pkg srcfd dstfd) s.toGlobals s.calls
      (by simp [relaying]) hr.len (by simp [hr.src]) d hr.dst
    by_cases hed : e = d
    · subst hed
      exact h.relayDone hs hmid hr ho
    · have hfd := fd_ne_of_live hold hr.dst hed
      exact hcongr (outbox_dispatch_unsent fun hp => absurd hp.symm hfd)
        (by simp [relaying, modify_channel_of_ne hed]) (by simp [relaying, hfd])
  | relayFail pkg srcfd dstfd a d hr ho =>
    have hmid := hG (.dispatch pkg srcfd dstfd) s.toGlobals s.calls
      (by simp [relaying]) hr.len (by simp [hr.src]) d hr.dst
    by_cases hed : e = d
    · subst hed
      exact h.relayFail hmid ho
    · have hfd := fd_ne_of_live hold hr.dst hed
      exact hcongr (outbox_dispatch_unsent fun hp => absurd hp.symm hfd)
        (by simp [relaying, modify_channel_of_ne hed]) (by simp [relaying])
  | sendMore c k hact ho =>
    have hcall := hG (.serverSendCb c) s.toGlobals s.calls (by simp [sending])
    by_cases hec : e = c
    · subst hec
      exact h.sendMore hact ho
    · have hfd := sendCb_fd_ne hold hec hcall
      exact hcongr (outbox_sendCb_unsent fun hp => absurd hp.symm hfd)
        (by simp [sending, modify_channel_of_ne hec]) (by simp [sending, hfd])
  | sendOver c k a hact ho hk ha =>
    have hcall := hG (.serverSendCb c) s.toGlobals s.calls (by simp [finishing, sending])
    by_cases hec : e = c
    · subst hec
      obtain ⟨w, -, -, hlt, -⟩ := hf.pending hact
      have hfin := h.finished hs hact hlt ho hk
      exact hfin.congr (by simp) rfl (by simp) rfl
    · have hfd := sendCb_fd_ne hold hec hcall
      exact hcongr (outbox_sendCb_unsent fun hp => absurd hp.symm hfd)
        (by simp [finishing, sending, modify_channel_of_ne hec])
        (by simp [finishing, sending, hfd])
  | sendNull c k hact ho hk ha =>
    have hcall := hG (.serverSendCb c) s.toGlobals s.calls (by simp [finishing, sending])
    by_cases hec : e = c
    · subst hec
      obtain ⟨w, -, -, hlt, -⟩ := hf.pending hact
      have hfin := h.finished hs hact hlt ho hk
      exact hfin.congr (by simp) rfl (by simp) rfl
    · have hfd := sendCb_fd_ne hold hec hcall
      exact hcongr (outbox_sendCb_unsent fun hp => absurd hp.symm hfd)
        (by simp [finishing, sending, modify_channel_of_ne hec])
        (by simp [finishing, sending, hfd])
  | sendFail c hact ho =>
    refine hcongr (outbox_sendCb_unsent fun _ hcom => ?_) (by simp) (by simp)
    unfold Globals.Completes at hcom
    simp [ho] at hcom
  | _ => exact hcongr rfl (by simp) rfl

/-- The invariant of all connections. -/
structure AllMailed (s : Server) : Prop where
  inFrames : s.AllInFrames
  mailed : ∀ c, s.Live c → s.Mailed c

/-- A new connection has an empty outbox and was sent nothing. -/
theorem AllMailed.accepting (hs : s.Sound) (h : s.AllMailed) (hpos : 0 < fd)
    (hop : s.opened fd = false) (hkey : s.channelMap[fd]? = none) (hfree : s.freeSlot = some c)
    (hG : (s.accepting fd c).Heeds FrameSafe) : (s.accepting fd c).AllMailed where
  inFrames := allInFrames_keeps.accepting hs h.inFrames hpos hop hkey hfree hG
  mailed e he := by
    by_cases hec : e = c
    · subst hec
      constructor
      · simp [freshChannel, Server.accepting, Globals.begun,
          History.outboxBytes, History.outbox]
      · simp [freshChannel, Server.accepting, History.outbox]
    · have hlive : s.Live e := ((accepting_live hkey).1 he).resolve_left hec
      have hne := fd_ne_of_none hlive hkey
      refine (h.mailed e hlive).congr ?_ ?_ ?_ ?_
      · rw [accepting_channel, if_neg hec]
      · simp [Server.accepting, History.outbox, Ne.symm hne]
      · rw [accepting_channel, if_neg hec]
      · simp [Server.accepting, hne]

theorem AllMailed.refusing (hs : s.Sound) (h : s.AllMailed) (hkey : s.channelMap[fd]? = none)
    (hG : (s.refusing fd).Heeds FrameSafe) : (s.refusing fd).AllMailed where
  inFrames := allInFrames_keeps.refusing hs h.inFrames hkey hG
  mailed c hc := by
    have hne : (s.channel c).fd ≠ fd := fd_ne_of_none hc hkey
    refine (h.mailed c hc).congr rfl ?_ rfl ?_ <;>
      simp [Server.refusing, History.outbox, hne, Ne.symm hne]

/-- The others keep their outboxes when one is closed. -/
theorem AllMailed.closing (hs : s.Sound) (h : s.AllMailed) (hc : s.Freeable c)
    (hG : (s.closing c).Heeds FrameSafe) : (s.closing c).AllMailed where
  inFrames := allInFrames_keeps.closing hs h.inFrames hc hG
  mailed e he := by
    have hlast := closing_effect hs hc
    have hfreed := hlast.live_of he
    obtain ⟨hfd, hlive⟩ := freed_live.1 hfreed
    have hec : e ≠ c := fun hec => hfd (by rw [hec])
    have hframes : ((s.enter (.closed c)).freed c).InFrames e :=
      (h.inFrames e hlive).congr (by simp) (by simp [asked]) (by simp [freed_channel, hec]) rfl
    have hmailed : ((s.enter (.closed c)).freed c).Mailed e :=
      (h.mailed e hlive).congr (by simp) rfl (by simp [freed_channel, hec]) rfl
    exact hmailed.effect ((hs.enter _).freed hc.1) hframes hlast hG he

/-- Every part of a step keeps the output of all connections in their outboxes. -/
theorem allMailed_keeps : Keeps FrameSafe AllMailed where
  boot := ⟨allInFrames_keeps.boot, fun c hc => by simp [Globals.Live, Server.boot] at hc⟩
  accepting hs h hpos hop hkey hfree hG := h.accepting hs hpos hop hkey hfree hG
  refusing hs h hkey hG := h.refusing hs hkey hG
  effect hs h he hG := ⟨allInFrames_keeps.effect hs h.inFrames he hG, fun c hc =>
    (h.mailed c (he.live_of hc)).effect hs (h.inFrames c (he.live_of hc)) he hG hc⟩
  closing hs h hc hG := h.closing hs hc hG
  routed c p hs h := ⟨allInFrames_keeps.routed c p hs h.inFrames, fun e he =>
    (h.mailed e he).congr rfl rfl rfl rfl⟩
  recvPkg c p h := ⟨allInFrames_keeps.recvPkg c p h.inFrames, fun e he =>
    (h.mailed e (by simpa [Globals.Live] using he)).congr (by simp) (by simp) (by simp) (by simp)⟩
  recvLen c n h := ⟨allInFrames_keeps.recvLen c n h.inFrames, fun e he =>
    (h.mailed e (by simpa [Globals.Live] using he)).congr (by simp) (by simp) (by simp) (by simp)⟩

/-- A frame that was begun is not finished. -/
theorem InFrames.begun_lt (h : s.InFrames c) : s.begun c <+: (s.channel c).sendCtx.pkg.frame ∧
    (s.begun c).length < (s.channel c).sendCtx.pkg.total := by
  unfold Globals.begun
  split
  · rename_i hact
    obtain ⟨w, -, -, hlt, -⟩ := h.pending hact
    rw [← Pkg.take_frame _ hlt.le]
    refine ⟨List.take_prefix _ _, ?_⟩
    rw [List.length_take, length_frame]
    omega
  · exact ⟨List.nil_prefix, Pkg.total_pos _⟩

end Server
end WawaServer
