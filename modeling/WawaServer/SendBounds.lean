import WawaServer.Reachable

/-!
# Bounds of a pending send

`sendCtx.len` should point into the frame in `sendCtx.pkg` while the send watcher is started.
Two functions write one without the other. `handle_register_client_req` builds its reply in
`sendCtx.pkg` and gives up at the eighth raspi without calling `response`; and
`check_break_fd` sends a packet of its own, but `response` keeps its offset against
`sendCtx.pkg`.
-/

namespace WawaServer

/-- The list of raspis is not given up while an offset behind the reply is pending, and a
RESTART that is cut short stops within the frame in the raspi's send buffer. -/
def OffsetSafe : Call → Globals → History → Prop
  | .handleRegisterClientReq pkg, g, _ => pkg.clientType = ClientType.remote.code →
      ∀ c ∈ g.channelMap[pkg.fd]?, 8 ≤ (g.raspisFor c).length →
        (g.channel c).sendCtx.io.active = true →
          (g.channel c).sendCtx.len < sizeofRegisterClientRes + sizeofHead
  | .checkBreakFd type fd, g, _ => type = .remote → ∀ r ∈ g.bridgeMap[fd]?,
      ∀ c ∈ g.channelMap[(g.channel r).fd]?, ∀ k < sizeofInt + sizeofHead,
        g.restartOutcome r = .sent k → k < (g.channel c).sendCtx.pkg.total
  | _, _, _ => True

instance (k : Call) (g : Globals) (l : History) : Decidable (OffsetSafe k g l) := by
  refine k.casesOn ?_ ?_ ?_ ?_ ?_ ?_ ?_ ?_ ?_ ?_ ?_ ?_ <;> intros <;>
    dsimp only [OffsetSafe] <;> infer_instance

namespace Server

/-- The bytes that `server_send_cb` would send are bytes of the packet, and their count did
not wrap. -/
def SendBounded (s : Server) : Prop := ∀ c, (s.channel c).sendCtx.io.active = true →
  (s.channel c).sendCtx.len < (s.channel c).sendCtx.pkg.total ∧
  (s.channel c).sendCtx.pkg.total ≤ sizeofPkg ∧
  s.sendCount c = (s.channel c).sendCtx.pkg.total - (s.channel c).sendCtx.len ∧
  (s.channel c).sendCtx.len + s.sendCount c ≤ sizeofPkg

/-- A pending send has bytes left. -/
def OffsetInside (s : Server) : Prop := ∀ c, (s.channel c).sendCtx.io.active = true →
  (s.channel c).sendCtx.len < (s.channel c).sendCtx.pkg.total

variable {s t : Server} {c d : Slot}

/-- The count, when the offset points into the frame. -/
theorem sendCount_eq (hlen : (s.channel c).sendCtx.len < (s.channel c).sendCtx.pkg.total)
    (htot : (s.channel c).sendCtx.pkg.total ≤ sizeofPkg) :
    s.sendCount c = (s.channel c).sendCtx.pkg.total - (s.channel c).sendCtx.len := by
  simp only [Globals.sendCount, Pkg.total_eq]
  rw [← Nat.add_sub_assoc (by simp only [sizeofPkg] at htot; omega), Nat.add_comm,
    Nat.add_sub_assoc hlen.le, Nat.add_mod_left, Nat.mod_eq_of_lt]
  simp only [sizeofPkg] at htot
  omega

/-- An offset inside the packet bounds what is asked of `send`. -/
theorem OffsetInside.sendBounded (h : s.OffsetInside) (hs : s.Sound) : s.SendBounded := by
  intro c hc
  have hlen := h c hc
  have htot := Pkg.total_le (hs.slot c).len_le
  have hcount := sendCount_eq hlen htot
  refine ⟨hlen, htot, hcount, ?_⟩
  rw [hcount]
  omega

/-- It is enough to look at the channel whose send buffer was touched. -/
theorem OffsetInside.touch (h : s.OffsetInside) (c : Slot)
    (hother : ∀ d, d ≠ c → (t.channel d).sendCtx = (s.channel d).sendCtx)
    (hc : (t.channel c).sendCtx.io.active = true →
      (t.channel c).sendCtx.len < (t.channel c).sendCtx.pkg.total) : t.OffsetInside := by
  intro d hact
  by_cases hd : d = c
  · subst d; exact hc hact
  · rw [hother d hd] at hact ⊢
    exact h d hact

/-- `OffsetInside` reads the send contexts. -/
theorem OffsetInside.congr (h : s.OffsetInside)
    (hsend : ∀ d, (t.channel d).sendCtx = (s.channel d).sendCtx) : t.OffsetInside := by
  intro d hact
  rw [hsend d] at hact ⊢
  exact h d hact

/-- A freed slot has nothing pending. -/
theorem OffsetInside.freed (h : s.OffsetInside) (c : Slot) : (s.freed c).OffsetInside := by
  refine h.touch c (fun d hd => ?_) (fun hact => ?_)
  · rw [freed_channel, if_neg hd]
  · exact absurd rfl ((freed_sendActive ..).1 hact).1

/-- Every effect under the condition leaves pending offsets inside their packets. -/
theorem OffsetInside.effect (hs : s.Sound) (h : s.OffsetInside) (he : Effect s t)
    (hG : t.Heeds OffsetSafe) : t.OffsetInside := by
  cases he with
  | free c => exact h.freed c
  | listFull pkg c p hc ht hfull _ hlen =>
    -- the reply is left unsent under the offset of the packet before
    have hcall := hG (.handleRegisterClientReq pkg) s.toGlobals s.calls
      (by simp) ht c hc hfull
    apply h.touch c (fun d hd => by simp [modify_channel_of_ne hd])
    intro hact
    simpa [Pkg.total, hlen] using hcall (by simpa using hact)
  | replyCut c p k hr ho =>
    apply h.touch c (fun d hd => by simp [replying, modify_channel_of_ne hd])
    intro _
    simpa [replying] using ho.lt p.total_pos
  | replyDone c p =>
    apply h.touch c (fun d hd => by simp [replying, modify_channel_of_ne hd])
    intro _
    simpa [replying] using p.total_pos
  | replyFail c p =>
    apply h.touch c (fun d hd => by simp [replying, modify_channel_of_ne hd])
    intro _
    simpa [replying] using p.total_pos
  | startLost d p hfd hlen hor =>
    -- the START overwrites the buffer, and the offset stays
    apply h.touch d (fun e he => by simp [modify_channel_of_ne he])
    intro hact
    have hact' : (s.channel d).sendCtx.io.active = true := by simpa using hact
    have hp0 : p.fd = 0 := hor.resolve_right (by simp [hact'])
    have hlt : (s.channel d).sendCtx.len < p.total := by
      -- a buffer without address holds no more than an `int`
      have hused := (hs.slot d).sendUsed hact'
      have hle : (s.channel d).sendCtx.pkg.len ≤ sizeofInt := by
        rcases (hs.slot d).pkgFd with hz | hz
        · exact hz.2
        · exact absurd (hz.symm.trans (hfd.symm.trans hp0)) hused
      have hold := h d hact'
      rw [← Pkg.total_eq] at hold ⊢
      omega
    simpa using hlt
  | breakCut fd r c p k hn hp ho =>
    -- the offset counts bytes of the RESTART, and points into the packet of the buffer
    have hcall := hG (.checkBreakFd .remote fd) s.toGlobals s.calls
      (by simp [notifying, unbridged])
      rfl r hn.bridge c hn.live k
    refine h.touch c (fun d hd => by simp [notifying, unbridged, modify_channel_of_ne hd])
      fun _ => ?_
    have hlt : k < (s.channel c).sendCtx.pkg.total := by
      subst hp
      have hk := ho.lt (Pkg.total_pos _)
      rw [total_restartPkg] at hk
      cases ho with
      | again => exact Pkg.total_pos _
      | short ho => exact hcall hk (by rw [← hs.outcome_restartPkg]; exact ho)
    simpa [notifying, unbridged] using hlt
  | breakDone fd r c p hn =>
    refine h.touch c (fun d hd => by simp [notifying, unbridged, modify_channel_of_ne hd])
      fun _ => ?_
    simpa [notifying, unbridged] using (s.channel c).sendCtx.pkg.total_pos
  | breakFail fd r c p hn =>
    have hX : ((s.notifying fd c p).popped p.fd 0 p.total).OffsetInside := by
      apply h.touch c (fun d hd => by simp [notifying, modify_channel_of_ne hd])
      intro _
      simpa [notifying] using (s.channel c).sendCtx.pkg.total_pos
    exact (hX.freed c).congr fun d => by simp [unbridged]
  | relayCut pkg srcfd dstfd a d k hr ho =>
    refine h.touch d (fun e he => by simp [relaying, pausing, modify_channel_of_ne he])
      fun _ => ?_
    simpa [relaying, pausing, Pkg.total_copyFrame _ hr.len] using ho.lt pkg.total_pos
  | relayDone pkg srcfd dstfd a d hr =>
    apply h.touch d (fun e he => by simp [relaying, modify_channel_of_ne he])
    intro hact
    simp [relaying] at hact
  | relayFail pkg srcfd dstfd a d hr =>
    apply h.touch d (fun e he => by simp [relaying, modify_channel_of_ne he])
    intro _
    simpa [relaying, Pkg.total_copyFrame _ hr.len] using pkg.total_pos
  | sendMore c k hact ho =>
    apply h.touch c (fun d hd => by simp [sending, modify_channel_of_ne hd])
    intro _
    -- `send` took part of the rest
    have hlt : (s.channel c).sendCtx.len + k < (s.channel c).sendCtx.pkg.total := by
      rcases ho with ⟨-, rfl⟩ | ⟨-, hk⟩
      · exact h c hact
      · exact hk
    simpa [sending] using hlt
  | sendOver c k a =>
    refine h.touch c (fun d hd => by simp [sending, finishing, modify_channel_of_ne hd])
      fun hact => ?_
    simp [sending, finishing] at hact
  | sendNull c k =>
    refine h.touch c (fun d hd => by simp [sending, finishing, modify_channel_of_ne hd])
      fun hact => ?_
    simp [sending, finishing] at hact
  | _ => exact h.congr fun d => by simp [unbridged]

theorem OffsetInside.closing (hs : s.Sound) (h : s.OffsetInside) (hc : s.Freeable c)
    (hG : (s.closing c).Heeds OffsetSafe) : (s.closing c).OffsetInside := by
  have hX : (s.enter (.closed c)).OffsetInside := h
  exact (hX.freed c).effect ((hs.enter _).freed hc.1) (closing_effect hs hc) hG

theorem OffsetInside.accepting (h : s.OffsetInside) (fd : ℕ) (c : Slot) :
    (s.accepting fd c).OffsetInside := by
  apply h.touch c (fun d hd => by rw [accepting_channel, if_neg hd])
  intro hact
  simp [accepting_channel, freshChannel] at hact

/-- Every part of a step under the condition leaves pending offsets inside their packets. -/
theorem offsetInside_keeps : Keeps OffsetSafe OffsetInside where
  boot c := nofun
  accepting _ h _ _ _ _ _ := h.accepting _ _
  refusing _ h _ _ := h
  effect hs h he hG := h.effect hs he hG
  closing hs h hc hG := h.closing hs hc hG
  routed _ _ _ h := h
  recvPkg c p h := h.congr (by simp)
  recvLen c n h := h.congr (by simp)

/-- `send` stays inside the packet in every state of a run whose calls are `OffsetSafe`. -/
theorem send_bounded (hr : Reachable s) (hG : s.Heeds OffsetSafe) : s.SendBounded :=
  (offsetInside_keeps.reachable hr hG).sendBounded hr.sound

/-- A viewer leaves, and the RESTART for its raspi is cut short. -/
def restartCut : List Event :=
  [.accept 5, .accept 6] ++ Event.register 1 .remote Event.takesAll ++
    Event.choose 1 5 Event.takesAll ++ [.recv 1 .closed fun _ => [.sent 13]]

/-- A RESTART that is cut short has the size of the START in the buffer. -/
theorem send_bounded_restartCut : (after restartCut).SendBounded :=
  send_bounded (reachable_after _ (by decide +kernel)) (by decide +kernel)

/-- As `restartCut`, but the last frame the raspi was sent has no body. -/
def shortFrame : List Event :=
  [.accept 5, .accept 6] ++ Event.register 1 .remote Event.takesAll ++
    Event.choose 1 5 Event.takesAll ++ Event.stream 1 5 [] Event.takesAll ++
    [.recv 1 .closed fun _ => [.sent 13]]

/-- The RESTART is longer than the frame that is left in the buffer. -/
theorem send_unbounded : ¬ ∀ s, Reachable s → s.SendBounded := by
  intro h
  have hlt := (h _ (reachable_after shortFrame (by decide +kernel)) 0
    (by decide +kernel)).1
  exact absurd hlt (by decide +kernel)

end Server
end WawaServer
