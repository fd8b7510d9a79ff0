import WawaServer.SendBounds

/-!
# The packets of `response`

`response` sends the packet that it is given, and stores only the number of bytes that were sent.
`server_send_cb` goes on from there in the `sendCtx.pkg` of the channel. The two are one packet
where the caller has built it in that buffer: `check_break_fd` has its packet on the stack, and
`handle_register_client_req` can build a reply over a packet that is not sent yet and give up.
-/

namespace WawaServer

/-- While nothing is pending for a channel, a RESTART to it is not cut short; and while an answer is
pending for it, no list of raspis is given up for it. -/
def AnswerKept : Call → Globals → History → Prop
  | .response p, g, l => l.breaking ≠ none →
      ∀ c ∈ g.channelMap[p.fd]?, (g.channel c).sendCtx.io.active = false →
        g.outcome p.fd p.total = .sent p.total ∨ g.outcome p.fd p.total = .error
  | .handleRegisterClientReq pkg, g, l => pkg.clientType = ClientType.remote.code →
      ∀ c ∈ g.channelMap[pkg.fd]?, 8 ≤ (g.raspisFor c).length →
        (g.channel c).sendCtx.io.active = true → l.answering c g.sent = none
  | _, _, _ => True

instance (k : Call) (g : Globals) (l : History) : Decidable (AnswerKept k g l) := by
  refine k.casesOn ?_ ?_ ?_ ?_ ?_ ?_ ?_ ?_ ?_ ?_ ?_ ?_ <;> intros <;>
    dsimp only [AnswerKept] <;> infer_instance

namespace Server

variable {s t : Server} {c d : Slot} {p : Pkg} {bs : List UInt8}

/-- The packet of `response` that is being sent on `c`, and what was added to `sent` for it. -/
def answering (s : Server) (c : Slot) : Option (Pkg × List UInt8) := s.calls.answering c s.sent

theorem answering_eq {l : History} (h : t.calls = l) :
    t.answering c = History.answering c t.sent l := by
  rw [answering, h]

theorem added_eq {g : Globals} {fd : ℕ} {sent : ℕ → List UInt8} (h : sent fd = g.sent fd ++ bs) :
    g.added fd sent = bs := by
  rw [Globals.added, h, List.drop_left]

/-! ## Answers in progress -/

/-- The bytes `bs` of `p` are sent, up to `sendCtx.len`, and the rest of `p` is in the buffer. -/
structure Underway (s : Server) (c : Slot) (p : Pkg) (bs : List UInt8) : Prop where
  pkg : (s.channel c).sendCtx.pkg = p
  len : (s.channel c).sendCtx.len < p.total
  sent : bs = p.slice 0 (s.channel c).sendCtx.len
  fits : p.len ≤ bufSize
  fd : p.fd ≠ 0

/-- An answer is underway while the send watcher is started, and sent when it is not. -/
def AnswerOk (s : Server) (c : Slot) : Prop := ∀ p bs, s.answering c = some (p, bs) →
  if (s.channel c).sendCtx.io.active then s.Underway c p bs else bs = p.frame

theorem AnswerOk.of_none (h : s.answering c = none) : s.AnswerOk c := by
  intro p bs hp
  rw [h] at hp
  cases hp

theorem AnswerOk.of_off (h : s.AnswerOk c) (hoff : (s.channel c).sendCtx.io.active = false)
    (hoff' : (t.channel c).sendCtx.io.active = false)
    (hcalls : t.answering c = s.answering c) : t.AnswerOk c := by
  intro p bs hp
  rw [hcalls] at hp
  have hold := h p bs hp
  rw [hoff, if_neg Bool.false_ne_true] at hold
  rwa [hoff', if_neg Bool.false_ne_true]

theorem AnswerOk.congr (h : s.AnswerOk c) (hcalls : t.answering c = s.answering c)
    (hio : (t.channel c).sendCtx.io = (s.channel c).sendCtx.io)
    (hpkg : (t.channel c).sendCtx.pkg = (s.channel c).sendCtx.pkg)
    (hlen : (t.channel c).sendCtx.len = (s.channel c).sendCtx.len) : t.AnswerOk c := by
  intro p bs hp
  rw [hcalls] at hp
  have hold := h p bs hp
  rw [hio]
  split
  · rename_i hon
    rw [if_pos hon] at hold
    exact ⟨hpkg.trans hold.pkg, hlen ▸ hold.len, hlen ▸ hold.sent, hold.fits, hold.fd⟩
  · rename_i hoff
    rwa [if_neg hoff] at hold

/-! ### Steps of the history -/

section History
variable {g : Globals} {l : History} {sent : ℕ → List UInt8}

theorem answering_response (h : g.channelMap[p.fd]? ≠ some c) :
    History.answering c sent ((.response p, g) :: l) = l.answering c g.sent := if_neg h

/-- `response` begins with what `send` takes of its packet. -/
theorem answering_response_of_idle (h : g.channelMap[p.fd]? = some c)
    (hoff : (g.channel c).sendCtx.io.active = false) (ho : g.outcome p.fd p.total ≠ .error)
    (hsent : sent p.fd = g.sent p.fd ++ bs) :
    History.answering c sent ((.response p, g) :: l) = some (p, bs) := by
  have hadd := added_eq hsent
  rw [← hadd]
  exact (if_pos h).trans (if_pos ⟨hoff, ho⟩)

theorem answering_response_of_busy (h : g.channelMap[p.fd]? = some c)
    (ho : ¬ ((g.channel c).sendCtx.io.active = false ∧ g.outcome p.fd p.total ≠ .error)) :
    History.answering c sent ((.response p, g) :: l) = none :=
  (if_pos h).trans (if_neg ho)

/-- `server_send_cb` adds what `send` takes of the rest. -/
theorem answering_sendCb {cs : List UInt8}
    (h : History.answering c sent ((.serverSendCb c, g) :: l) = some (p, cs))
    (hsent : sent (g.channel c).fd = g.sent (g.channel c).fd ++ bs) :
    ∃ as, l.answering c g.sent = some (p, as) ∧ cs = as ++ bs := by
  obtain ⟨⟨q, as⟩, hq, heq⟩ := Option.map_eq_some_iff.1 ((if_pos rfl).symm.trans h)
  rw [added_eq hsent] at heq
  cases heq
  exact ⟨as, hq, rfl⟩

theorem answering_sendCb_of_ne (h : d ≠ c) :
    History.answering c sent ((.serverSendCb d, g) :: l) = l.answering c g.sent := if_neg h

theorem answering_freeChannel :
    History.answering c sent ((.freeChannel c, g) :: l) = none := if_pos rfl

theorem answering_freeChannel_of_ne (h : d ≠ c) :
    History.answering c sent ((.freeChannel d, g) :: l) = l.answering c g.sent := if_neg h

/-- A call that has no part in an answer. -/
theorem answering_plain {k : Call} (h : s.Plain k) :
    History.answering c sent ((k, s.toGlobals) :: l) = l.answering c s.sent := by
  cases k with
  | dispatch pkg srcfd dstfd =>
    apply if_neg
    rintro ⟨⟨hsrc, hdst, hlen⟩, -⟩
    rcases h with h | h | h
    · exact hsrc h
    · exact hdst h
    · omega
  | serverSendCb | freeChannel | acceptCb | response => cases h
  | _ => rfl

end History

/-! ### Effects -/

theorem sent_replyCut (s : Server) (c : Slot) (p : Pkg) (k : ℕ) :
    ((((s.replying c p).wrote p.fd p 0 p.total k).setSendLen c k).startSend c).sent p.fd =
      (s.setSendPkg c p).sent p.fd ++ p.slice 0 k := by
  simp [replying]

/-- `response` starts with all of its packet, of which `send` takes the first `k` bytes. -/
theorem AnswerOk.replyCut {k : ℕ} (hs : s.Sound) (hr : s.Replies c p)
    (ho : s.CutShort p.fd p.total k) :
    ((((s.replying c p).wrote p.fd p 0 p.total k).setSendLen c k).startSend c).AnswerOk c := by
  have hmap : (s.setSendPkg c p).channelMap[p.fd]? = some c := hr.live
  have hcut : (s.setSendPkg c p).CutShort p.fd p.total k := by
    cases ho with
    | again ho => exact .again ho
    | short ho hk => exact .short ho hk
  by_cases hoff : (s.channel c).sendCtx.io.active = false
  · intro q bs hq
    have hnew := answering_response_of_idle (l := s.calls) hmap (by simpa using hoff)
      hcut.outcome_ne.1 (sent_replyCut s c p k)
    cases hnew.symm.trans hq
    rw [if_pos (by simp [replying])]
    refine ⟨by simp [replying], ?_, ?_, hr.len, hs.fd_ne_zero hr.live⟩
    · simpa [replying] using ho.lt p.total_pos
    · simp [replying]
  · refine .of_none (answering_response_of_busy (l := s.calls) hmap ?_)
    rintro ⟨hidle, -⟩
    exact hoff (by simpa using hidle)

/-- A packet that `send` takes whole is sent, if nothing else was awaited. -/
theorem AnswerOk.of_sent {g : Globals} {l : History} (hcalls : t.calls = (.response p, g) :: l)
    (hmap : g.channelMap[p.fd]? = some c) (ho : g.outcome p.fd p.total = .sent p.total)
    (hsent : t.sent p.fd = g.sent p.fd ++ p.frame)
    (hio : (t.channel c).sendCtx.io.active = (g.channel c).sendCtx.io.active) : t.AnswerOk c := by
  by_cases hoff : (g.channel c).sendCtx.io.active = false
  · intro q bs hq
    have herr : g.outcome p.fd p.total ≠ .error := by
      rw [ho]
      exact SendResult.noConfusion
    rw [answering_eq hcalls, answering_response_of_idle hmap hoff herr hsent] at hq
    cases hq
    rw [hio, hoff, if_neg Bool.false_ne_true]
  · refine .of_none ?_
    rw [answering_eq hcalls]
    exact answering_response_of_busy hmap fun hidle => hoff hidle.1

/-- The RESTART of `check_break_fd` is in no buffer: it is sent at once, or was not awaited. -/
theorem AnswerOk.breakCut {fd k : ℕ} {r : Slot} (hs : s.Sound) (hn : s.Notifies fd r c)
    (hp : p = restartPkg (s.channel r).fd) (ho : s.CutShort p.fd p.total k)
    (hG : AnswerKept (.response p) (s.enter (.checkBreakFd .remote fd)).toGlobals
      (s.enter (.checkBreakFd .remote fd)).calls) :
    (((((s.notifying fd c p).wrote p.fd p 0 p.total k).setSendLen c k).startSend c).unbridged fd
      r).AnswerOk c := by
  have hmap : (s.enter (.checkBreakFd .remote fd)).channelMap[p.fd]? = some c :=
    hp ▸ hn.addressed hs
  refine .of_none (answering_response_of_busy (l := (s.enter (.checkBreakFd .remote fd)).calls) hmap
    ?_)
  rintro ⟨hidle, -⟩
  rcases hG (Option.some_ne_none fd) c hmap hidle with hall | herr
  · exact ho.outcome_ne.2 hall
  · exact ho.outcome_ne.1 herr

/-- Nothing is being answered on a channel that a frame was relayed to. -/
theorem AnswerOk.relayed {pkg : Pkg} {srcfd dstfd : ℕ} {a : Slot}
    (hr : s.Relays pkg srcfd dstfd a d)
    (hcalls : t.calls = (.dispatch pkg srcfd dstfd, s.toGlobals) :: s.calls) : t.AnswerOk d := by
  refine .of_none ?_
  rw [answering_eq hcalls]
  refine if_pos ⟨⟨?_, ?_, hr.len⟩, hr.dst⟩
  · rw [hr.src]
    exact Option.some_ne_none a
  · rw [hr.dst]
    exact Option.some_ne_none d

theorem answering_dispatch_of_ne {pkg : Pkg} {srcfd dstfd : ℕ} {a : Slot} {l : History}
    {sent : ℕ → List UInt8} (hr : s.Relays pkg srcfd dstfd a d) (h : c ≠ d) :
    History.answering c sent ((.dispatch pkg srcfd dstfd, s.toGlobals) :: l) =
      l.answering c s.sent := by
  apply if_neg
  rintro ⟨-, hc⟩
  exact h (Option.some.inj (hc.symm.trans hr.dst))

/-- What `server_send_cb` sends is the next part of the answer. -/
theorem Underway.append (h : s.Underway c p bs) (k : ℕ) :
    bs ++ (s.channel c).sendCtx.pkg.slice (s.channel c).sendCtx.len k =
      p.slice 0 ((s.channel c).sendCtx.len + k) := by
  rw [h.sent, h.pkg, Pkg.slice_zero_add]

/-- `send` never takes more than the rest. -/
theorem Underway.le_total {k : ℕ} (h : s.Underway c p bs)
    (ho : s.outcome (s.channel c).fd (s.sendCount c) = .sent k) :
    (s.channel c).sendCtx.len + k ≤ p.total := by
  have hlen := h.len
  have hcount := sendCount_eq (h.pkg ▸ hlen) (h.pkg ▸ Pkg.total_le h.fits)
  rw [h.pkg] at hcount
  have hk := outcome_le ho
  omega

theorem sent_sending (s : Server) (c : Slot) (k : ℕ) :
    (s.sending c k).sent (s.channel c).fd = s.sent (s.channel c).fd ++
      (s.channel c).sendCtx.pkg.slice (s.channel c).sendCtx.len k := by
  simp [sending]

theorem AnswerOk.sendMore {k : ℕ} (h : s.AnswerOk c) (hon : (s.channel c).sendCtx.io.active = true)
    (ho : s.outcome (s.channel c).fd (s.sendCount c) = .again ∧ k = 0 ∨
      s.outcome (s.channel c).fd (s.sendCount c) = .sent k ∧
        (s.channel c).sendCtx.len + k < (s.channel c).sendCtx.pkg.total) :
    (s.sending c k).AnswerOk c := by
  intro p bs hp
  obtain ⟨cs, hq, rfl⟩ := answering_sendCb (l := s.calls) hp (sent_sending s c k)
  have hold := h p cs hq
  rw [if_pos hon] at hold
  have hlt : (s.channel c).sendCtx.len + k < p.total := by
    rcases ho with ⟨-, rfl⟩ | ⟨-, hk⟩
    · exact hold.len
    · rwa [hold.pkg] at hk
  rw [if_pos (by simpa [sending] using hon)]
  refine ⟨by simp [sending, hold.pkg], by simpa [sending] using hlt, ?_, hold.fits, hold.fd⟩
  rw [hold.append k]
  simp [sending]

/-- The end of the packet in the buffer is the end of the answer. -/
theorem AnswerOk.sendEnd {k : ℕ} (h : s.AnswerOk c) (hon : (s.channel c).sendCtx.io.active = true)
    (ho : s.outcome (s.channel c).fd (s.sendCount c) = .sent k)
    (hk : (s.channel c).sendCtx.pkg.total ≤ (s.channel c).sendCtx.len + k)
    (hcalls : t.calls = (.serverSendCb c, s.toGlobals) :: s.calls)
    (hsent : t.sent = (s.sending c k).sent)
    (hoff : (t.channel c).sendCtx.io.active = false) : t.AnswerOk c := by
  intro p bs hp
  rw [answering_eq hcalls, hsent] at hp
  obtain ⟨cs, hq, rfl⟩ := answering_sendCb hp (sent_sending s c k)
  have hold := h p cs hq
  rw [if_pos hon] at hold
  have hle := hold.le_total ho
  rw [hold.pkg] at hk
  rw [hoff, if_neg Bool.false_ne_true, hold.append k, le_antisymm hle hk]
  rfl

theorem AnswerOk.sendFail (h : s.AnswerOk c)
    (hcalls : t.calls = (.serverSendCb c, s.toGlobals) :: s.calls) (hsent : t.sent = s.sent)
    (hch : t.channel = s.channel) : t.AnswerOk c := by
  have hsame : t.answering c = s.answering c := by
    have hadd : s.added (s.channel c).fd s.sent = [] := added_eq (List.append_nil _).symm
    rw [answering_eq hcalls, hsent]
    apply (if_pos rfl).trans
    rw [hadd]
    simp [answering]
  exact h.congr hsame (by rw [hch]) (by rw [hch]) (by rw [hch])

/-- It is so on every channel. -/
def AnswersOk (s : Server) : Prop := ∀ c, s.AnswerOk c

/-- It is enough to look at the channel that was answered. -/
theorem AnswersOk.touch (h : s.AnswersOk) (d : Slot)
    (hcalls : ∀ c, c ≠ d → t.answering c = s.answering c)
    (hother : ∀ c, c ≠ d → (t.channel c).sendCtx = (s.channel c).sendCtx) (hd : t.AnswerOk d) :
    t.AnswersOk := by
  intro c
  by_cases hcd : c = d
  · exact hcd ▸ hd
  · have hsame := hother c hcd
    exact (h c).congr (hcalls c hcd) (by rw [hsame]) (by rw [hsame]) (by rw [hsame])

theorem AnswersOk.congr (h : s.AnswersOk)
    (hcalls : ∀ c, t.answering c = s.answering c)
    (hsend : ∀ c, (t.channel c).sendCtx = (s.channel c).sendCtx) : t.AnswersOk :=
  h.touch 0 (fun c _ => hcalls c) (fun c _ => hsend c)
    ((h 0).congr (hcalls 0) (by rw [hsend 0]) (by rw [hsend 0]) (by rw [hsend 0]))

theorem AnswersOk.listFull {pkg : Pkg} (h : s.AnswersOk) (hd : s.channelMap[pkg.fd]? = some d)
    (ht : pkg.clientType = ClientType.remote.code) (hfull : 8 ≤ (s.raspisFor d).length)
    (hG : AnswerKept (.handleRegisterClientReq pkg) s.toGlobals s.calls) :
    (((s.enter (.handleRegisterClientReq pkg)).setType d .remote).setSendPkg d p).AnswersOk := by
  refine h.touch d (fun c _ => rfl) (fun c hcd => by simp [modify_channel_of_ne hcd]) ?_
  by_cases hon : (s.channel d).sendCtx.io.active = true
  · -- an answer in this buffer would be lost
    exact .of_none (hG ht d hd hfull hon)
  · exact (h d).of_off (by simpa using hon) (by simpa using hon) rfl

theorem AnswersOk.startLost (h : s.AnswersOk) (hfd : p.fd = (s.channel d).sendCtx.pkg.fd)
    (hor : p.fd = 0 ∨ (s.channel d).sendCtx.io.active = false)
    (hnone : s.channelMap[p.fd]? = none) : ((s.setSendPkg d p).enter (.response p)).AnswersOk := by
  have hsame : ∀ c, ((s.setSendPkg d p).enter (.response p)).answering c = s.answering c := by
    intro c
    have hmap : (s.setSendPkg d p).channelMap[p.fd]? = none := hnone
    apply answering_response
    rw [hmap]
    exact (Option.some_ne_none c).symm
  apply h.touch d (fun c _ => hsame c) (fun c hcd => by simp [modify_channel_of_ne hcd])
  by_cases hon : (s.channel d).sendCtx.io.active = true
  · -- the packet of an answer has an address
    intro q bs hq
    have hold := h d q bs ((hsame d).symm.trans hq)
    rw [if_pos hon] at hold
    have hp0 : p.fd = 0 := hor.resolve_right (by simp [hon])
    rw [hfd, hold.pkg] at hp0
    exact absurd hp0 hold.fd
  · exact (h d).of_off (by simpa using hon) (by simpa using hon) (hsame d)

theorem AnswersOk.effect (hs : s.Sound) (h : s.AnswersOk) (he : Effect s t)
    (hG : t.Heeds AnswerKept) : t.AnswersOk := by
  have hne : ∀ {fd : ℕ} {c d : Slot}, s.channelMap[fd]? = some d → c ≠ d →
      s.channelMap[fd]? ≠ some c :=
    fun hd hcd hc => hcd (Option.some.inj (hc.symm.trans hd))
  cases he with
  | log k hk => exact h.congr (fun _ => answering_plain hk) fun _ => rfl
  | free d hd hcl =>
    refine h.touch d (fun c hcd => answering_freeChannel_of_ne (Ne.symm hcd))
      (fun c hcd => by rw [freed_channel, if_neg hcd]) ?_
    exact .of_none answering_freeChannel
  | listFull pkg d p hd ht hfull => exact h.listFull hd ht hfull (hG _ _ _ (by simp))
  | replyCut d p k hr ho =>
    refine h.touch d (fun c hcd => ?_)
      (fun c hcd => by simp [replying, modify_channel_of_ne hcd]) (.replyCut hs hr ho)
    exact answering_response (g := (s.setSendPkg d p).toGlobals) (hne hr.live hcd)
  | replyDone d p hr ho =>
    refine h.touch d (fun c hcd => ?_)
      (fun c hcd => by simp [replying, modify_channel_of_ne hcd]) ?_
    · exact answering_response (g := (s.setSendPkg d p).toGlobals) (hne hr.live hcd)
    · exact .of_sent (g := (s.setSendPkg d p).toGlobals) rfl hr.live ho (by simp [replying])
        (by simp [replying])
  | replyFail d p hr ho =>
    refine h.touch d (fun c hcd => ?_)
      (fun c hcd => by simp [replying, modify_channel_of_ne hcd]) ?_
    · exact answering_response (g := (s.setSendPkg d p).toGlobals) (hne hr.live hcd)
    · exact .of_none (answering_response_of_busy (g := (s.setSendPkg d p).toGlobals) hr.live
        fun hok => hok.2 ho)
  | startLost d p hfd hlen hor hst hnone => exact h.startLost hfd hor hnone
  | breakLost fd r hb hr =>
    refine h.congr (fun c => ?_) fun c => by simp [unbridged]
    apply answering_response (g := (s.enter (.checkBreakFd .remote fd)).toGlobals)
    have hmap : (s.enter (.checkBreakFd .remote fd)).channelMap[(restartPkg (s.channel r).fd).fd]? =
        none := by
      rw [fd_restartPkg (hs.slot r).fd_lt]
      exact hr
    rw [hmap]
    exact (Option.some_ne_none c).symm
  | breakCut fd r d p k hn hp ho =>
    refine h.touch d (fun c hcd => ?_)
      (fun c hcd => by simp [notifying, unbridged, modify_channel_of_ne hcd]) ?_
    · exact answering_response (g := (s.enter (.checkBreakFd .remote fd)).toGlobals)
        (hne (hp ▸ hn.addressed hs) hcd)
    · exact .breakCut hs hn hp ho (hG _ _ _ (by simp [notifying, unbridged]))
  | breakDone fd r d p hn hp ho =>
    refine h.touch d (fun c hcd => ?_)
      (fun c hcd => by simp [notifying, unbridged, modify_channel_of_ne hcd]) ?_
    · exact answering_response (g := (s.enter (.checkBreakFd .remote fd)).toGlobals)
        (hne (hp ▸ hn.addressed hs) hcd)
    · exact .of_sent (g := (s.enter (.checkBreakFd .remote fd)).toGlobals) rfl
        (hp ▸ hn.addressed hs) ho (by simp [notifying, unbridged]) (by simp [notifying, unbridged])
  | breakFail fd r d p hn hp ho =>
    refine h.touch d (fun c hcd => ?_)
      (fun c hcd => by
        simp [notifying, unbridged, freed_channel, hcd, modify_channel_of_ne hcd]) ?_
    · exact (answering_freeChannel_of_ne (Ne.symm hcd)).trans
        (answering_response (g := (s.enter (.checkBreakFd .remote fd)).toGlobals)
          (hne (hp ▸ hn.addressed hs) hcd))
    · exact .of_none answering_freeChannel
  | relayCut pkg srcfd dstfd a d k hr ho =>
    exact h.touch d (fun c hcd => answering_dispatch_of_ne hr hcd)
      (fun c hcd => by simp [relaying, pausing, modify_channel_of_ne hcd]) (.relayed hr rfl)
  | relayDone pkg srcfd dstfd a d hr ho =>
    exact h.touch d (fun c hcd => answering_dispatch_of_ne hr hcd)
      (fun c hcd => by simp [relaying, modify_channel_of_ne hcd]) (.relayed hr rfl)
  | relayFail pkg srcfd dstfd a d hr ho =>
    exact h.touch d (fun c hcd => answering_dispatch_of_ne hr hcd)
      (fun c hcd => by simp [relaying, modify_channel_of_ne hcd]) (.relayed hr rfl)
  | sendMore d k hon ho =>
    exact h.touch d (fun c hcd => answering_sendCb_of_ne (Ne.symm hcd))
      (fun c hcd => by simp [sending, modify_channel_of_ne hcd]) ((h d).sendMore hon ho)
  | sendOver d k a hon ho hk ha =>
    exact h.touch d (fun c hcd => answering_sendCb_of_ne (Ne.symm hcd))
      (fun c hcd => by simp [finishing, sending, modify_channel_of_ne hcd])
      ((h d).sendEnd hon ho hk rfl rfl (by simp [finishing, sending]))
  | sendNull d k hon ho hk ha =>
    exact h.touch d (fun c hcd => answering_sendCb_of_ne (Ne.symm hcd))
      (fun c hcd => by simp [finishing, sending, modify_channel_of_ne hcd])
      ((h d).sendEnd hon ho hk rfl rfl (by simp [finishing, sending]))
  | sendFail d hon ho =>
    exact h.touch d (fun c hcd => answering_sendCb_of_ne (Ne.symm hcd)) (fun c _ => rfl)
      ((h d).sendFail rfl rfl rfl)
  | _ => exact h.congr (fun _ => rfl) fun c => by simp

/-! ### Whole runs -/

/-- A connection gets a slot on which nothing is being answered. -/
theorem AnswerOk.acceptCb {fd : ℕ} (h : s.AnswerOk c)
    (hcalls : t.calls = (.acceptCb fd, s.toGlobals) :: s.calls)
    (hctx : (s.channel c).status ≠ .nonActive → (t.channel c).sendCtx = (s.channel c).sendCtx) :
    t.AnswerOk c := by
  by_cases hst : (s.channel c).status = .nonActive
  · refine .of_none ?_
    rw [answering_eq hcalls]
    exact if_pos hst
  · have hsame := hctx hst
    refine h.congr ?_ (by rw [hsame]) (by rw [hsame]) (by rw [hsame])
    rw [answering_eq hcalls]
    exact if_neg hst

theorem answersOk_keeps : Keeps AnswerKept AnswersOk where
  boot c p bs h := by cases h
  accepting {s fd d} _ h _ _ _ hd _ c := by
    apply (h c).acceptCb rfl
    intro hst
    have hcd : c ≠ d := by
      rintro rfl
      exact hst (freeSlot_some hd)
    rw [accepting_channel, if_neg hcd]
  refusing _ h _ _ c := (h c).acceptCb rfl fun _ => rfl
  effect hs h he hG := h.effect hs he hG
  closing {s c} hs h hc hG := by
    have hX : (s.enter (.closed c)).AnswersOk := h.congr (fun _ => rfl) fun _ => rfl
    have hfree : ((s.enter (.closed c)).freed c).AnswersOk := by
      refine hX.touch c (fun d hdc => answering_freeChannel_of_ne (Ne.symm hdc))
        (fun d hdc => by rw [freed_channel, if_neg hdc]) ?_
      exact .of_none answering_freeChannel
    exact hfree.effect ((hs.enter _).freed hc.1) (closing_effect hs hc) hG
  routed _ _ _ h := h.congr (fun _ => rfl) fun _ => rfl
  recvPkg c p h := h.congr (fun _ => rfl) (by simp)
  recvLen c n h := h.congr (fun _ => rfl) (by simp)

/-- The bytes that `response` and the `server_send_cb` calls after it add to what is sent on the
connection are a prefix of the packet's frame, and all of it once the send watcher is stopped, in
every state of a run whose calls meet `AnswerKept`. -/
theorem response_delivers (hr : Reachable s) (hG : s.Heeds AnswerKept)
    (h : s.answering c = some (p, bs)) :
    bs <+: p.frame ∧ ((s.channel c).sendCtx.io.active = false → bs = p.frame) := by
  have hok := answersOk_keeps.reachable hr hG c p bs h
  split at hok
  · rename_i hon
    refine ⟨?_, fun hoff => absurd (hon.symm.trans hoff) (by decide)⟩
    rw [hok.sent, ← Buffer.take_slice p 0 p.total _ hok.len.le]
    exact List.take_prefix _ _
  · exact ⟨hok ▸ List.prefix_rfl, fun _ => hok⟩

/-- A client registers, of the 48 bytes of the reply the kernel takes 5, none, and then the rest. -/
def replyInParts : List Event :=
  .accept 5 :: Event.register 0 .raspi (fun _ => [.sent 5]) ++
    [.send 0 fun _ => [], .send 0 Event.takesAll]

theorem response_delivers_replyInParts : ∃ p, p.len = sizeofRegisterClientRes ∧
    (after replyInParts).answering 0 = some (p, p.frame) := by
  have hsome : ((after replyInParts).answering 0).isSome = true := by decide +kernel
  obtain ⟨⟨p, bs⟩, h⟩ := Option.isSome_iff_exists.1 hsome
  have hdel := response_delivers (reachable_after _ (by decide +kernel)) (by decide +kernel) h
  refine ⟨p, ?_, ?_⟩
  · have hlen : ((after replyInParts).answering 0).map (fun x => x.1.len) = some 36 := by
      decide +kernel
    rw [h] at hlen
    exact Option.some.inj hlen
  · rw [h, hdel.2 (by decide +kernel)]

/-- A viewer leaves, and the kernel takes nothing of the RESTART for its raspi; then all of what is
in the buffer. -/
def restartAgain : List Event :=
  [.accept 5, .accept 6] ++ Event.register 1 .remote Event.takesAll ++
    Event.choose 1 5 Event.takesAll ++ [.recv 1 .closed fun _ => [], .send 0 Event.takesAll]

/-- The raspi gets its last START again. -/
theorem response_undelivered : ¬ ∀ s, Reachable s → ∀ c p bs, s.answering c = some (p, bs) →
    (s.channel c).sendCtx.io.active = false → bs = p.frame := by
  intro h
  have hsome : ((after restartAgain).answering 0).isSome = true := by decide +kernel
  obtain ⟨⟨p, bs⟩, hp⟩ := Option.isSome_iff_exists.1 hsome
  have hall := h _ (reachable_after _ (by decide +kernel)) 0 p bs hp (by decide +kernel)
  have hne : ((after restartAgain).answering 0).any (fun x => x.2 = x.1.frame) = false := by
    decide +kernel
  rw [hp, hall] at hne
  simp at hne

end Server
end WawaServer
