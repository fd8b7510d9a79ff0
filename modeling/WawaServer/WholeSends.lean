import WawaServer.Outbox

/-!
# Sends that take everything

Most of what can go wrong starts with a `send` that accepts a part of a packet. While every `send`
accepts the whole of it, no packet is ever pending, every connection is read, and what `response`
and `dispatch` are asked to deliver goes out at once (`whole_sends`).
-/

namespace WawaServer

/-- `send` accepts the whole packet. -/
def WholeSends : Call → Globals → History → Prop
  | .response pkg, g, _ => g.channelMap[pkg.fd]? ≠ none →
      g.outcome pkg.fd pkg.total = .sent pkg.total
  | .dispatch pkg srcfd dstfd, g, _ => g.Writes pkg srcfd dstfd →
      g.outcome dstfd pkg.total = .sent pkg.total
  | _, _, _ => True

instance (k : Call) (g : Globals) (l : History) : Decidable (WholeSends k g l) := by
  refine k.casesOn ?_ ?_ ?_ ?_ ?_ ?_ ?_ ?_ ?_ ?_ ?_ ?_ <;> intros <;>
    dsimp only [WholeSends] <;> infer_instance

/-- The packets that `response` and `dispatch` were asked to deliver to the connection last accepted
under `fd` while that was open, the first one first. -/
def History.due (fd : ℕ) : History → List Pkg
  | [] => []
  | (k, g) :: l =>
    match k with
    | .acceptCb fd' => if fd' = fd then [] else due fd l
    | .response pkg =>
      due fd l ++ if pkg.fd = fd ∧ g.channelMap[fd]? ≠ none then [pkg] else []
    | .dispatch pkg srcfd dstfd =>
      due fd l ++ if dstfd = fd ∧ g.Writes pkg srcfd dstfd then [pkg] else []
    | _ => due fd l

namespace Server

open Pkg

variable {s t : Server} {c d e : Slot} {p pkg : Pkg} {k fd srcfd dstfd : ℕ}

/-- The connection in `c` is read, and was sent all that was due. -/
structure Served (s : Server) (c : Slot) : Prop where
  reading : (s.channel c).recvCtx.io.active = true
  sent : s.sent (s.channel c).fd = ((s.calls.due (s.channel c).fd).map frame).flatten

/-- No packet is pending, and all connections are served. -/
structure Prompt (s : Server) : Prop where
  idle : ∀ c, (s.channel c).sendCtx.io.active = false
  served : ∀ c, s.Live c → s.Served c

/-- `Served` reads the descriptor, the receive watcher, what was due and what was sent. -/
theorem Served.congr (h : s.Served c) (hfd : (t.channel c).fd = (s.channel c).fd)
    (hrecv : (t.channel c).recvCtx.io.active = true)
    (hdue : t.calls.due (s.channel c).fd = s.calls.due (s.channel c).fd)
    (hsent : t.sent (s.channel c).fd = s.sent (s.channel c).fd) : t.Served c where
  reading := hrecv
  sent := by rw [hfd, hsent, hdue, h.sent]

/-- One more packet was due, and was sent. -/
theorem Served.more (h : s.Served c) (p : Pkg) (hfd : (t.channel c).fd = (s.channel c).fd)
    (hrecv : (t.channel c).recvCtx.io.active = true)
    (hdue : t.calls.due (s.channel c).fd = s.calls.due (s.channel c).fd ++ [p])
    (hsent : t.sent (s.channel c).fd = s.sent (s.channel c).fd ++ p.frame) : t.Served c where
  reading := hrecv
  sent := by
    rw [hfd, hsent, hdue, h.sent]
    simp

/-! ## What is due after a call -/

section Calls
variable {g : Globals} {l : History}

/-- A packet for others is not due, nor is one for nobody. -/
theorem due_response_of_ne (h : p.fd ≠ fd ∨ g.channelMap[fd]? = none) :
    History.due fd ((.response p, g) :: l) = l.due fd := by
  have hno : ¬ (p.fd = fd ∧ g.channelMap[fd]? ≠ none) :=
    fun ⟨hfd, hmap⟩ => h.elim (absurd hfd) (absurd · hmap)
  rw [History.due, if_neg hno, List.append_nil]

/-- What `response` is given is due to its addressee. -/
theorem due_response (hmap : g.channelMap[p.fd]? ≠ none) :
    History.due p.fd ((.response p, g) :: l) = l.due p.fd ++ [p] := by
  rw [History.due, if_pos ⟨rfl, hmap⟩]

/-- A packet for others is not due, nor is one that `dispatch` drops. -/
theorem due_dispatch_of_ne (h : dstfd ≠ fd ∨ ¬ g.Writes pkg srcfd dstfd) :
    History.due fd ((.dispatch pkg srcfd dstfd, g) :: l) = l.due fd := by
  have hno : ¬ (dstfd = fd ∧ g.Writes pkg srcfd dstfd) :=
    fun ⟨hfd, hw⟩ => h.elim (absurd hfd) (absurd hw)
  rw [History.due, if_neg hno, List.append_nil]

/-- What `dispatch` writes is due to its destination. -/
theorem due_dispatch (hw : g.Writes pkg srcfd dstfd) :
    History.due dstfd ((.dispatch pkg srcfd dstfd, g) :: l) = l.due dstfd ++ [pkg] := by
  rw [History.due, if_pos ⟨rfl, hw⟩]

end Calls

/-! ## Effects -/

/-- An effect that delivers nothing to `e` and leaves its channel alone. -/
theorem Prompt.served_of_same (h : s.Prompt) (he : Effect s t) (hlive : t.Live e)
    (hrecv : (t.channel e).recvCtx = (s.channel e).recvCtx)
    (hdue : t.calls.due (s.channel e).fd = s.calls.due (s.channel e).fd)
    (hsent : t.sent (s.channel e).fd = s.sent (s.channel e).fd) : t.Served e := by
  have hold := h.served e (he.live_of hlive)
  exact hold.congr (he.fd_eq e) (by rw [hrecv]; exact hold.reading) hdue hsent

/-- A reply goes out at once. -/
theorem Prompt.reply (hs : s.Sound) (h : s.Prompt) (hr : s.Replies c p)
    (ho : s.outcome p.fd p.total = .sent p.total) :
    (((s.replying c p).wrote p.fd p 0 p.total p.total).startRecv c).Prompt := by
  have he := Effect.replyDone c p hr ho
  have hfd := hr.fd_eq hs
  refine ⟨fun d => by simpa [replying] using h.idle d, fun e hlive => ?_⟩
  by_cases hec : e = c
  · subst hec
    have hold := h.served e (he.live_of hlive)
    apply hold.more p (he.fd_eq e)
    · simp [replying]
    · rw [hfd]
      exact due_response (by simp [hr.live])
    · simp [replying, hfd]
  · have hne := fd_ne_of_live (he.live_of hlive) hr.live hec
    exact h.served_of_same he hlive (by simp [replying, modify_channel_of_ne hec])
      (due_response_of_ne (.inl hne.symm)) (by simp [replying, hne])

/-- A RESTART goes out at once. -/
theorem Prompt.notify {r : Slot} (hs : s.Sound) (h : s.Prompt) (hn : s.Notifies fd r c)
    (hp : p = restartPkg (s.channel r).fd) (ho : s.outcome p.fd p.total = .sent p.total) :
    ((((s.notifying fd c p).wrote p.fd p 0 p.total p.total).startRecv c).unbridged
      fd r).Prompt := by
  have he := Effect.breakDone fd r c p hn hp ho
  have hmap : s.channelMap[p.fd]? = some c := hp ▸ hn.addressed hs
  have hfd := hs.fd_eq hmap
  refine ⟨fun d => by simpa [notifying, unbridged] using h.idle d, fun e hlive => ?_⟩
  by_cases hec : e = c
  · subst hec
    have hold := h.served e (he.live_of hlive)
    apply hold.more p (he.fd_eq e)
    · simp [notifying, unbridged]
    · rw [hfd]
      exact due_response (by simp [hmap])
    · simp [notifying, unbridged, hfd]
  · have hne := fd_ne_of_live (he.live_of hlive) hmap hec
    exact h.served_of_same he hlive (by simp [notifying, unbridged, modify_channel_of_ne hec])
      (due_response_of_ne (.inl hne.symm)) (by simp [notifying, unbridged, hne])

/-- A relayed frame goes out at once, and its source is read on. -/
theorem Prompt.relay {a : Slot} (hs : s.Sound) (h : s.Prompt) (hr : s.Relays pkg srcfd dstfd a d)
    (ho : s.outcome dstfd pkg.total = .sent pkg.total) :
    ((((s.relaying pkg srcfd dstfd d).wrote dstfd pkg 0 pkg.total pkg.total).stopSend
      d).startRecv a).Prompt := by
  have he := Effect.relayDone pkg srcfd dstfd a d hr ho
  have hfd := hs.fd_eq hr.dst
  have hw : s.Writes pkg srcfd dstfd := ⟨by simp [hr.src], by simp [hr.dst], hr.len⟩
  refine ⟨fun e => ?_, fun e hlive => ?_⟩
  · by_cases hed : e = d
    · subst hed
      simp [relaying]
    · simp [relaying, modify_channel_of_ne hed, h.idle e]
  have hold := h.served e (he.live_of hlive)
  by_cases hed : e = d
  · subst hed
    apply hold.more pkg (he.fd_eq e)
    · simp [relaying, hold.reading]
    · rw [hfd]
      exact due_dispatch hw
    · simp [relaying, hfd]
  · have hne := fd_ne_of_live (he.live_of hlive) hr.dst hed
    apply hold.congr (he.fd_eq e)
    · simp [relaying, hold.reading]
    · exact due_dispatch_of_ne (.inl hne.symm)
    · simp [relaying, hne]

/-- While every `send` takes the whole packet, an effect keeps the server prompt. -/
theorem Prompt.effect (hs : s.Sound) (h : s.Prompt) (he : Effect s t) (hG : t.Heeds WholeSends) :
    t.Prompt := by
  have hpend : ∀ c, ¬ (s.channel c).sendCtx.io.active = true := by
    intro c hc
    cases (h.idle c).symm.trans hc
  cases he with
  | log k hk =>
    refine ⟨h.idle, fun e hlive => h.served_of_same (.log k hk) hlive rfl ?_ rfl⟩
    cases k with
    | dispatch pkg srcfd dstfd =>
      apply due_dispatch_of_ne
      right
      rintro ⟨hsrc, hdst, hlen⟩
      rcases hk with hk | hk | hk
      · exact hsrc hk
      · exact hdst hk
      · omega
    | _ => first | rfl | cases hk
  | answers q => exact ⟨h.idle, fun e hlive => h.served_of_same (.answers q) hlive rfl rfl rfl⟩
  | fail f => exact ⟨h.idle, fun e hlive => h.served_of_same (.fail f) hlive rfl rfl rfl⟩
  | free c hc hcl =>
    refine ⟨fun d => ?_, fun e hlive => ?_⟩
    · rw [freed_channel]
      split
      · rfl
      · exact h.idle d
    · have hec : e ≠ c := by rintro rfl; exact (freed_live.1 hlive).1 rfl
      exact h.served_of_same (.free c hc hcl) hlive (by rw [freed_channel, if_neg hec]) rfl rfl
  | register pkg c ty hc ht =>
    refine ⟨fun d => by simpa using h.idle d, fun e hlive => ?_⟩
    exact h.served_of_same (.register pkg c ty hc ht) hlive (by simp) rfl rfl
  | listFull pkg c p hc ht hfull hfd hlen hcmd =>
    refine ⟨fun d => by simpa using h.idle d, fun e hlive => ?_⟩
    exact h.served_of_same (.listFull pkg c p hc ht hfull hfd hlen hcmd) hlive (by simp) rfl rfl
  | replyCut c p k hr ho =>
    have hw := hG (.response p) (s.setSendPkg c p).toGlobals s.calls (by simp [replying])
      (by simp [hr.live])
    exact absurd hw ho.outcome_ne.2
  | replyDone c p hr ho => exact h.reply hs hr ho
  | replyFail c p hr ho =>
    have hw : s.outcome p.fd p.total = .sent p.total := hG (.response p)
      (s.setSendPkg c p).toGlobals s.calls (by simp [replying]) (by simp [hr.live])
    cases ho.symm.trans hw
  | startLost d p hfd hlen hor hst hnone =>
    refine ⟨fun e => by simpa using h.idle e, fun e hlive => ?_⟩
    refine h.served_of_same (.startLost d p hfd hlen hor hst hnone) hlive (by simp)
      (due_response_of_ne ?_) rfl
    by_cases hpfd : p.fd = (s.channel e).fd
    · exact .inr (hpfd ▸ hnone)
    · exact .inl hpfd
  | bridge fd d hd =>
    exact ⟨h.idle, fun e hlive => h.served_of_same (.bridge fd d hd) hlive rfl rfl rfl⟩
  | breakLost fd r hb hr =>
    refine ⟨fun e => by simpa [unbridged] using h.idle e, fun e hlive => ?_⟩
    refine h.served_of_same (.breakLost fd r hb hr) hlive (by simp [unbridged])
      (due_response_of_ne ?_) rfl
    have hfd := fd_restartPkg (hs.slot r).fd_lt
    by_cases hpfd : (restartPkg (s.channel r).fd).fd = (s.channel e).fd
    · exact .inr (hpfd ▸ hfd.symm ▸ hr)
    · exact .inl hpfd
  | breakCut fd r c p k hn hp ho =>
    have hw := hG (.response p) s.toGlobals ((.checkBreakFd .remote fd, s.toGlobals) :: s.calls)
      (by simp [notifying, unbridged]) (by rw [hp, hn.addressed hs]; exact Option.some_ne_none c)
    exact absurd hw ho.outcome_ne.2
  | breakDone fd r c p hn hp ho => exact h.notify hs hn hp ho
  | breakFail fd r c p hn hp ho =>
    have hw := hG (.response p) s.toGlobals ((.checkBreakFd .remote fd, s.toGlobals) :: s.calls)
      (by simp [notifying, unbridged]) (by rw [hp, hn.addressed hs]; exact Option.some_ne_none c)
    cases ho.symm.trans hw
  | relayCut pkg srcfd dstfd a d k hr ho =>
    have hw := hG (.dispatch pkg srcfd dstfd) s.toGlobals s.calls (by simp [relaying, pausing])
      ⟨by simp [hr.src], by simp [hr.dst], hr.len⟩
    exact absurd hw ho.outcome_ne.2
  | relayDone pkg srcfd dstfd a d hr ho => exact h.relay hs hr ho
  | relayFail pkg srcfd dstfd a d hr ho =>
    have hw := hG (.dispatch pkg srcfd dstfd) s.toGlobals s.calls (by simp [relaying])
      ⟨by simp [hr.src], by simp [hr.dst], hr.len⟩
    cases ho.symm.trans hw
  -- `server_send_cb` is not called
  | sendMore c k hact => exact absurd hact (hpend c)
  | sendOver c k a hact => exact absurd hact (hpend c)
  | sendNull c k hact => exact absurd hact (hpend c)
  | sendFail c hact => exact absurd hact (hpend c)

/-! ## Runs -/

/-- Who leaves owes nobody anything. -/
theorem Prompt.closing (hs : s.Sound) (h : s.Prompt) (hc : s.Freeable c)
    (hG : (s.closing c).Heeds WholeSends) : (s.closing c).Prompt := by
  have hX : ((s.enter (.closed c)).freed c).Prompt := by
    refine ⟨fun d => ?_, fun e hlive => ?_⟩
    · rw [freed_channel]
      split
      · rfl
      · exact h.idle d
    · obtain ⟨hfd, hold⟩ := freed_live.1 hlive
      have hec : e ≠ c := fun hec => hfd (by rw [hec])
      have hserved := h.served e hold
      apply hserved.congr
      · simp
      · rw [freed_channel, if_neg hec]
        exact hserved.reading
      · rfl
      · rfl
  exact hX.effect ((hs.enter _).freed hc.1) (closing_effect hs hc) hG

/-- Nothing is due to a new connection. -/
theorem Prompt.accepting (h : s.Prompt) (hkey : s.channelMap[fd]? = none) :
    (s.accepting fd c).Prompt := by
  refine ⟨fun d => ?_, fun e he => ?_⟩
  · rw [accepting_channel]
    split
    · rfl
    · exact h.idle d
  · by_cases hec : e = c
    · subst hec
      constructor
      · simp [accepting_channel, freshChannel]
      · simp [freshChannel, Server.accepting, History.due]
    · have hlive : s.Live e := ((accepting_live hkey).1 he).resolve_left hec
      have hne := fd_ne_of_none hlive hkey
      have hold := h.served e hlive
      apply hold.congr
      · rw [accepting_channel, if_neg hec]
      · rw [accepting_channel, if_neg hec]
        exact hold.reading
      · simp [Server.accepting, History.due, Ne.symm hne]
      · simp [Server.accepting, hne]

theorem Prompt.refusing (h : s.Prompt) (hkey : s.channelMap[fd]? = none) :
    (s.refusing fd).Prompt := by
  refine ⟨h.idle, fun e he => ?_⟩
  have hne : (s.channel e).fd ≠ fd := fd_ne_of_none he hkey
  have hold := h.served e he
  refine hold.congr rfl hold.reading ?_ ?_ <;>
    simp [Server.refusing, History.due, hne, Ne.symm hne]

theorem Prompt.congr (h : s.Prompt) (hfd : ∀ c, (t.channel c).fd = (s.channel c).fd)
    (hsend : ∀ c, (t.channel c).sendCtx = (s.channel c).sendCtx)
    (hrecv : ∀ c, (t.channel c).recvCtx.io.active = (s.channel c).recvCtx.io.active)
    (hmap : t.channelMap = s.channelMap) (hsent : t.sent = s.sent)
    (hdue : ∀ fd, t.calls.due fd = s.calls.due fd) : t.Prompt := by
  refine ⟨fun c => by rw [hsend]; exact h.idle c, fun c hc => ?_⟩
  rw [Globals.Live, hmap, hfd] at hc
  have hold := h.served c hc
  exact hold.congr (hfd c) (by rw [hrecv]; exact hold.reading) (hdue _) (by rw [hsent])

/-- Every part of a step keeps the server prompt. -/
theorem prompt_keeps : Keeps WholeSends Prompt where
  boot := ⟨fun _ => rfl, fun c hc => by simp [Globals.Live, Server.boot] at hc⟩
  accepting _ h _ _ hkey _ _ := h.accepting hkey
  refusing _ h hkey _ := h.refusing hkey
  effect hs h he hG := h.effect hs he hG
  closing hs h hc hG := h.closing hs hc hG
  routed _ _ _ h := h.congr (fun _ => rfl) (fun _ => rfl) (fun _ => rfl) rfl rfl fun _ => rfl
  recvPkg _ _ h := h.congr (by simp) (by simp) (by simp) (by simp) (by simp) fun _ => rfl
  recvLen _ _ h := h.congr (by simp) (by simp) (by simp) (by simp) (by simp) fun _ => rfl

/-- While every `send` takes the whole packet, nothing is ever pending, every connection is read,
and everything that was due was sent, in whole packets and in order. -/
theorem whole_sends (hr : Reachable s) (hG : s.Heeds WholeSends) :
    (∀ c, (s.channel c).sendCtx.io.active = false) ∧ ∀ c, s.Live c →
      (s.channel c).recvCtx.io.active = true ∧
        s.sent (s.channel c).fd = ((s.calls.due (s.channel c).fd).map frame).flatten := by
  have h := prompt_keeps.reachable hr hG
  exact ⟨h.idle, fun c hc => ⟨(h.served c hc).reading, (h.served c hc).sent⟩⟩

/-- A viewer chooses a raspi, which sends it a frame; then it leaves. -/
def smooth : List Event :=
  [.accept 5, .accept 6] ++ Event.register 0 .raspi Event.takesAll ++
    Event.register 1 .remote Event.takesAll ++ Event.choose 1 5 Event.takesAll ++
    Event.stream 0 6 [77, 78] Event.takesAll ++ [.recv 1 .closed Event.takesAll]

/-- A run in which a frame is relayed. -/
theorem whole_sends_smooth : (∀ c, ((after smooth).channel c).sendCtx.io.active = false) ∧
    ∀ c, (after smooth).Live c → ((after smooth).channel c).recvCtx.io.active = true ∧
      (after smooth).sent ((after smooth).channel c).fd =
        (((after smooth).calls.due ((after smooth).channel c).fd).map frame).flatten :=
  whole_sends (reachable_after _ (by decide +kernel)) (by decide +kernel)

end Server
end WawaServer
