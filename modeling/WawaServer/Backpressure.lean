import WawaServer.Reachable

/-!
# Back-pressure

`dispatch` stops the source of a frame that was cut short. Two things should follow. The source
stays stopped while its frame is pending; but `response`, `dispatch` and `server_send_cb` start
receive watchers without asking whether their channel is such a source. And some later
`server_send_cb` starts it again; but the destination has one `pSrcChannel`, which the next
`dispatch` overwrites and `free_channel` abandons.
-/

namespace WawaServer

/-- The pending send of `d` will resume `a`. -/
structure Globals.Waits (s : Globals) (a d : Slot) : Prop where
  live : s.Live d
  send : (s.channel d).sendCtx.io.active = true
  src : (s.channel d).sendCtx.pSrcChannel = some a

instance (s : Globals) (a d : Slot) : Decidable (s.Waits a d) :=
  decidable_of_iff (s.Live d ∧ (s.channel d).sendCtx.io.active = true ∧
    (s.channel d).sendCtx.pSrcChannel = some a)
    ⟨fun h => ⟨h.1, h.2.1, h.2.2⟩, fun h => ⟨h.live, h.send, h.src⟩⟩

/-- `a` is received from, or some pending send will resume it. -/
def Globals.Served (s : Globals) (a : Slot) : Prop :=
  (s.channel a).recvCtx.io.active = true ∨ ∃ d, s.Waits a d

instance (s : Globals) (a : Slot) : Decidable (s.Served a) :=
  inferInstanceAs (Decidable (_ ∨ ∃ _, _))

/-- The connection of `a` is stopped, and only the pending send of `d` will resume it. -/
structure Globals.WaitsOnlyFor (s : Globals) (a d : Slot) : Prop where
  live : s.Live a
  stopped : (s.channel a).recvCtx.io.active = false
  waits : s.Waits a d
  only : ∀ d', s.Waits a d' → d' = d

instance (s : Globals) (a d : Slot) : Decidable (s.WaitsOnlyFor a d) :=
  decidable_of_iff (s.Live a ∧ (s.channel a).recvCtx.io.active = false ∧ s.Waits a d ∧
    ∀ d', s.Waits a d' → d' = d)
    ⟨fun h => ⟨h.1, h.2.1, h.2.2.1, h.2.2.2⟩, fun h => ⟨h.live, h.stopped, h.waits, h.only⟩⟩

/-- No channel is started whose frame is pending elsewhere: by a `response` to it, by another
`dispatch` of it, by the end of a packet it waits for or of the last packet it was the source
of. -/
def StartSafe : Call → Globals → History → Prop
  | .response pkg, g, _ => g.outcome pkg.fd pkg.total = .sent pkg.total →
      ∀ c ∈ g.channelMap[pkg.fd]?, ∀ d, g.cut d ≠ some c
  | .dispatch pkg srcfd dstfd, g, _ => g.outcome dstfd pkg.total = .sent pkg.total →
      ∀ a ∈ g.channelMap[srcfd]?, ∀ d, g.cut d = some a → g.channelMap[dstfd]? = some d
  | .serverSendCb c, g, _ => g.Completes c → ∀ d ≠ c, g.cut d ≠ some c ∧
      ∀ a ∈ (g.channel c).sendCtx.pSrcChannel, g.cut d ≠ some a
  | _, _, _ => True

instance (k : Call) (g : Globals) (l : History) : Decidable (StartSafe k g l) := by
  refine k.casesOn ?_ ?_ ?_ ?_ ?_ ?_ ?_ ?_ ?_ ?_ ?_ ?_ <;> intros <;>
    dsimp only [StartSafe] <;> infer_instance

/-- `check_break_fd` on behalf of `c` sends its RESTART to `b`, and is not cut short. -/
def Globals.Restarts (s : Globals) (c b : Slot) : Prop :=
  (s.channel c).type = .remote ∧ ∃ r ∈ s.bridgeMap[(s.channel c).fd]?,
    s.channelMap[(s.channel r).fd]? = some b ∧
      (s.restartOutcome r = .sent (sizeofInt + sizeofHead) ∨ s.restartOutcome r = .error)

instance (s : Globals) (c b : Slot) : Decidable (s.Restarts c b) :=
  inferInstanceAs (Decidable (_ ∧ ∃ _ ∈ _, _ ∧ (_ ∨ _)))

/-- A destination is freed, or takes a frame of another source, only when nobody else waits for
it alone; or its peer has closed, and the RESTART that follows resumes who waits. -/
def StopSafe : Call → Globals → History → Prop
  | .freeChannel c, g, l => ∀ d ∈ g.channelMap[(g.channel c).fd]?, ∀ b ≠ d,
      g.WaitsOnlyFor b d → History.closing l = true ∧ g.Restarts c b
  | .dispatch pkg srcfd dstfd, g, _ => g.outcome dstfd pkg.total ≠ .error →
      ∀ a ∈ g.channelMap[srcfd]?, ∀ d ∈ g.channelMap[dstfd]?, ∀ b ≠ a, ¬ g.WaitsOnlyFor b d
  | _, _, _ => True

instance (k : Call) (g : Globals) (l : History) : Decidable (StopSafe k g l) := by
  refine k.casesOn ?_ ?_ ?_ ?_ ?_ ?_ ?_ ?_ ?_ ?_ ?_ ?_ <;> intros <;>
    dsimp only [StopSafe] <;> infer_instance

namespace Server

/-- While the frame of `a` that was cut short is pending at `d`, the server does not receive
from `a`. -/
def BackPressured (s : Server) : Prop := ∀ d a, s.cut d = some a →
  (s.channel d).sendCtx.io.active = true → (s.channel a).recvCtx.io.active = false

/-- Every connection is received from, or some pending send will resume it. -/
def NoneStranded (s : Server) : Prop := ∀ a, s.Live a → s.Served a

variable {s t : Server} {c d : Slot}

/-! ## The source stays stopped -/

/-- A frame that was cut short is pending, and its source is stopped. -/
def CutPending (s : Server) : Prop := ∀ d a, s.cut d = some a →
  (s.channel d).sendCtx.io.active = true ∧ ¬ (s.channel a).recvCtx.io.active = true

theorem CutPending.backPressured (h : s.CutPending) : s.BackPressured :=
  fun d a hcut _ => Bool.eq_false_iff.2 (h d a hcut).2

/-- Frames are forgotten, but their sources are not started before. -/
theorem CutPending.congr (h : s.CutPending)
    (hcut : ∀ d a, t.cut d = some a → s.cut d = some a)
    (hsend : ∀ d a, t.cut d = some a → (s.channel d).sendCtx.io.active = true →
      (t.channel d).sendCtx.io.active = true)
    (hrecv : ∀ d a, t.cut d = some a → (t.channel a).recvCtx.io.active = true →
      (s.channel a).recvCtx.io.active = true) : t.CutPending := by
  intro d a hd
  obtain ⟨h1, h2⟩ := h d a (hcut d a hd)
  exact ⟨hsend d a hd h1, fun hr => h2 (hrecv d a hd hr)⟩

/-- The last frame of a buffer is forgotten when the buffer is written. -/
@[simp] theorem update_none_eq_some {f : Slot → Option Slot} {a : Slot} :
    Function.update f c none d = some a ↔ d ≠ c ∧ f d = some a := by
  rw [Function.update_apply]
  split <;> simp_all

theorem CutPending.freed (h : s.CutPending) (c : Slot) : (s.freed c).CutPending := by
  intro d a hd
  rw [freed_cut, update_none_eq_some] at hd
  obtain ⟨h1, h2⟩ := h d a hd.2
  exact ⟨(freed_sendActive ..).2 ⟨hd.1, h1⟩, fun hr => h2 ((freed_recvActive ..).1 hr).2⟩

theorem CutPending.effect (hs : s.Sound) (h : s.CutPending) (he : Effect s t)
    (hG : t.Heeds StartSafe) : t.CutPending := by
  cases he with
  | free c => exact h.freed c
  | replyCut c p k =>
    refine h.congr ?_ ?_ ?_ <;> simp [replying]
    grind
  | replyDone c p hr ho =>
    -- `response` resumes the requester; nothing of it may be pending
    have hcall := hG (.response p) (s.setSendPkg c p).toGlobals s.calls
      (by simp [replying]) ho c hr.live
    refine h.congr ?_ ?_ ?_ <;> simp [replying] at hcall ⊢
    grind
  | breakCut fd r c p k =>
    refine h.congr ?_ ?_ ?_ <;> simp [notifying, unbridged]
    grind
  | breakDone fd r c p hn hp ho =>
    subst hp
    -- the RESTART resumes the raspi; nothing of it may be pending
    have hcall := hG (.response (restartPkg (s.channel r).fd)) s.toGlobals
      ((.checkBreakFd .remote fd, s.toGlobals) :: s.calls) (by simp [notifying, unbridged]) ho c
      (hn.addressed hs)
    refine h.congr ?_ ?_ ?_ <;> simp [notifying, unbridged]
    grind
  | breakFail fd r c p =>
    have hX : ((s.notifying fd c p).popped p.fd 0 p.total).CutPending := by
      refine h.congr ?_ ?_ ?_ <;> simp [notifying]
    refine (hX.freed c).congr ?_ ?_ ?_ <;> simp [unbridged]
  | relayCut pkg srcfd dstfd a d k =>
    intro e b hcut
    -- the buffer of `d` has the new frame, and the others have theirs
    by_cases hed : e = d
    · subst hed
      have hba : a = b := by simpa [relaying, pausing] using hcut
      simp [relaying, pausing, hba]
    · -- stopping `a` too does no harm to the source of `e`
      have hold : s.cut e = some b := by simpa [relaying, pausing, hed] using hcut
      have hkeep := h e b hold
      exact ⟨by simpa [relaying, pausing, hed] using hkeep.1, by simp_all [relaying, pausing]⟩
  | relayDone pkg srcfd dstfd a d hr ho =>
    have hcall := hG (.dispatch pkg srcfd dstfd) s.toGlobals s.calls
      (by simp [relaying]) ho a hr.src
    rw [hr.dst] at hcall
    refine h.congr ?_ ?_ ?_ <;> simp [relaying] <;> grind
  | relayFail pkg srcfd dstfd a d =>
    refine h.congr ?_ ?_ ?_ <;> simp [relaying]
  | sendOver c k a hact ho hk ha =>
    have hcall := hG (.serverSendCb c) s.toGlobals s.calls (by simp [finishing, sending])
      (.intro ho hk)
    refine h.congr ?_ ?_ ?_ <;> simp [finishing, sending] <;> grind
  | sendNull c k hact ho hk =>
    have hcall := hG (.serverSendCb c) s.toGlobals s.calls (by simp [finishing, sending])
      (.intro ho hk)
    refine h.congr ?_ ?_ ?_ <;> simp [finishing, sending] <;> grind
  | _ =>
    refine h.congr ?_ ?_ ?_ <;> simp [replying, sending, unbridged]

theorem CutPending.closing (hs : s.Sound) (h : s.CutPending) (hc : s.Freeable c)
    (hG : (s.closing c).Heeds StartSafe) : (s.closing c).CutPending := by
  have hX : (s.enter (.closed c)).CutPending := h
  exact (hX.freed c).effect ((hs.enter _).freed hc.1) (closing_effect hs hc) hG

theorem CutPending.accepting (h : s.CutPending) (fd : ℕ) (c : Slot) :
    (s.accepting fd c).CutPending := by
  intro d a hcut
  have hold : d ≠ c ∧ a ≠ c ∧ s.cut d = some a := by
    simp only [Server.accepting, update_none_eq_some] at hcut
    split at hcut
    · cases hcut
    · rename_i hne
      obtain ⟨hdc, hda⟩ := update_none_eq_some.1 hcut
      exact ⟨hdc, fun hac => hne ⟨hdc, hac ▸ hda⟩, hda⟩
  obtain ⟨hdc, hac, hcut⟩ := hold
  rw [accepting_channel, accepting_channel, if_neg hdc, if_neg hac]
  exact h d a hcut

theorem cutPending_keeps : Keeps StartSafe CutPending where
  boot := nofun
  accepting _ h _ _ _ _ _ := h.accepting _ _
  refusing _ h _ _ := h
  effect hs h he hG := h.effect hs he hG
  closing hs h hc hG := h.closing hs hc hG
  routed _ _ _ h := h
  recvPkg c p h := by refine h.congr ?_ ?_ ?_ <;> simp
  recvLen c n h := by refine h.congr ?_ ?_ ?_ <;> simp

/-- Back-pressure holds in every state of a run whose calls are `StartSafe`. -/
theorem back_pressured (hr : Reachable s) (hG : s.Heeds StartSafe) : s.BackPressured :=
  (cutPending_keeps.reachable hr hG).backPressured

/-- A frame of `5` for `6` is cut short. -/
def frameCut : List Event :=
  [.accept 5, .accept 6, .accept 7] ++ Event.register 0 .raspi Event.takesAll ++
    Event.stream 0 6 [77] (fun _ => [.sent 3])

theorem back_pressured_frameCut : (after frameCut).BackPressured :=
  back_pressured (reachable_after _ (by decide +kernel)) (by decide +kernel)

/-- A viewer chooses the raspi while its frame is pending; the START resumes it. -/
def chosenWhilePaused : List Event := frameCut ++ Event.choose 2 5 Event.takesAll

theorem source_started_early : ¬ ∀ s, Reachable s → s.BackPressured := by
  intro h
  have hstopped := h _ (reachable_after chosenWhilePaused (by decide +kernel)) 1 0
    (by decide +kernel) (by decide +kernel)
  exact absurd hstopped (by decide +kernel)

/-! ## The source is resumed -/

theorem Waits.mono {a d : Slot} (h : s.Waits a d) (hlive : s.Live d → t.Live d)
    (hsend : (s.channel d).sendCtx.io.active = true → (t.channel d).sendCtx.io.active = true)
    (hsrc : (t.channel d).sendCtx.pSrcChannel = (s.channel d).sendCtx.pSrcChannel) :
    t.Waits a d := ⟨hlive h.live, hsend h.send, hsrc.trans h.src⟩

/-- No watcher is stopped and no source forgotten. -/
theorem Served.mono {b : Slot} (h : s.Served b) (hm : t.channelMap = s.channelMap)
    (hfd : ∀ d, (t.channel d).fd = (s.channel d).fd)
    (hrecv : (s.channel b).recvCtx.io.active = true → (t.channel b).recvCtx.io.active = true)
    (hsend : ∀ d, (s.channel d).sendCtx.io.active = true →
      (t.channel d).sendCtx.io.active = true)
    (hsrc : ∀ d, (t.channel d).sendCtx.pSrcChannel = (s.channel d).sendCtx.pSrcChannel) :
    t.Served b := by
  rcases h with hr | ⟨d, hd⟩
  · exact .inl (hrecv hr)
  · exact .inr ⟨d, Waits.mono hd (by rw [Globals.Live, Globals.Live, hm, hfd]; exact id) (hsend d)
      (hsrc d)⟩

/-- The pending send of `d` is abandoned: who has other hopes keeps them. -/
theorem Served.release {b : Slot} (h : s.Served b) (d : Slot) (hlive : s.Live b)
    (hrecv : (s.channel b).recvCtx.io.active = true → t.Served b)
    (hwaits : ∀ d', d' ≠ d → s.Waits b d' → t.Waits b d')
    (honly : s.WaitsOnlyFor b d → t.Served b) : t.Served b := by
  cases hr : (s.channel b).recvCtx.io.active with
  | true => exact hrecv hr
  | false =>
    obtain ⟨e, he⟩ := h.resolve_left (by simp [hr])
    by_cases hed : ∃ e, s.Waits b e ∧ e ≠ d
    · obtain ⟨e, he, hne⟩ := hed
      exact .inr ⟨e, hwaits e hne he⟩
    · have hall : ∀ d', s.Waits b d' → d' = d := fun d' hw => by
        by_contra hne
        exact hed ⟨d', hw, hne⟩
      exact honly ⟨hlive, hr, hall e he ▸ he, hall⟩

/-- Who does not wait for the freed connection alone is still served. -/
theorem Served.freed {b : Slot} (h : s.Served b) (hb : (s.freed c).Live b)
    (hG : ∀ d, s.channelMap[(s.channel c).fd]? = some d → ¬ s.WaitsOnlyFor b d) :
    (s.freed c).Served b := by
  have hwaits : ∀ d, (s.channel d).fd ≠ (s.channel c).fd → s.Waits b d →
      (s.freed c).Waits b d := by
    intro d hfd hw
    have hdc : d ≠ c := fun hdc => hfd (by rw [hdc])
    refine Waits.mono hw (fun hl => freed_live.2 ⟨hfd, hl⟩) (fun ha => ?_) ?_
    · exact (freed_sendActive ..).2 ⟨hdc, ha⟩
    · rw [freed_channel, if_neg hdc]
  -- the connection that loses its descriptor, when there is one
  obtain ⟨d, hd⟩ : ∃ d, ∀ e, s.Live e → (s.channel e).fd = (s.channel c).fd → e = d := by
    refine ⟨(s.channelMap[(s.channel c).fd]?).getD c, fun e he hfd => ?_⟩
    rw [Globals.Live, hfd] at he
    rw [he, Option.getD_some]
  obtain ⟨hfd, hlive⟩ := freed_live.1 hb
  refine Served.release h d hlive (fun hr => .inl ?_)
    (fun e hne hw => hwaits e (fun hfd => hne (hd e hw.live hfd)) hw) fun honly => ?_
  · exact (freed_recvActive ..).2 ⟨fun hbc => hfd (by rw [hbc]), hr⟩
  · by_cases hfd : (s.channel d).fd = (s.channel c).fd
    · have hmap : s.channelMap[(s.channel c).fd]? = some d := hfd ▸ honly.waits.live
      exact absurd honly (hG d hmap)
    · exact .inr ⟨d, hwaits d hfd honly.waits⟩

/-- Who keeps a descriptor is not the connection that loses it. -/
theorem ne_of_freed_live {b : Slot} (hs : s.Sound) (hb : (s.freed c).Live b)
    (hd : s.channelMap[(s.channel c).fd]? = some d) : b ≠ d := by
  rintro rfl
  exact (freed_live.1 hb).1 (hs.fd_eq hd)

theorem Served.effect {b : Slot} (hs : s.Sound) (he : Effect s t) (hG : t.Heeds StopSafe)
    (hb : t.Live b) (h : s.Served b) : t.Served b := by
  have hlive := he.live_of hb
  cases he with
  | free c hc hcl =>
    have hcall := hG (.freeChannel c) s.toGlobals s.calls (by simp)
    -- outside `server_recv_cb` nobody may wait for the freed connection alone
    apply Served.freed h hb
    intro d hd honly
    have hcl' := (hcall d hd b (ne_of_freed_live hs hb hd) honly).1
    rw [hcl] at hcl'
    cases hcl'
  | breakFail fd r c p hn =>
    -- `free_channel` inside `response`, and the bridge is erased after it
    have hX : ((s.notifying fd c p).popped p.fd 0 p.total).Served b := by
      refine Served.mono h ?_ ?_ ?_ ?_ ?_ <;> simp [notifying]
    have hS := (hs.notifying fd c p).popped p.fd 0 p.total
    have hcall := hG (.freeChannel c) ((s.notifying fd c p).popped p.fd 0 p.total).toGlobals
      ((.response p, (s.enter (.checkBreakFd .remote fd)).toGlobals) ::
      (.checkBreakFd .remote fd, s.toGlobals) :: s.calls) (by simp [unbridged, notifying])
    have hb' : (((s.notifying fd c p).popped p.fd 0 p.total).freed c).Live b :=
      unbridged_live.1 hb
    have hY := Served.freed hX hb' fun d hd honly =>
      absurd (hcall d hd b (ne_of_freed_live hS hb' hd) honly).1 (by simp [History.closing])
    refine Served.mono hY ?_ ?_ ?_ ?_ ?_ <;> simp [unbridged]
  | relayCut pkg srcfd dstfd a d k hr ho =>
    have hcall := hG (.dispatch pkg srcfd dstfd) s.toGlobals s.calls
      (by simp [relaying, pausing]) (by cases ho <;> simp_all) a hr.src d hr.dst
    have hpaused : ((((s.relaying pkg srcfd dstfd d).wrote dstfd pkg 0 pkg.total k).setSendLen
        d k).pausing a d).Waits a d :=
      ⟨by simpa [relaying, pausing, Globals.Live] using hs.live hr.dst,
        by simp [relaying, pausing], by simp [relaying, pausing]⟩
    -- the source waits for `d` now; `d` forgets who waited before
    by_cases hba : b = a
    · exact .inr ⟨d, hba ▸ hpaused⟩
    · refine Served.release h d hlive (fun hb => ?_) (fun e hne hw => ?_) fun honly => ?_
      · exact .inl (by simp [relaying, pausing, hb, hba])
      · exact Waits.mono hw (by simp [relaying, pausing, Globals.Live])
          (by simp [relaying, pausing, hne])
          (by simp [relaying, pausing, modify_channel_of_ne hne])
      · exact absurd honly (hcall b hba)
  | relayDone pkg srcfd dstfd a d hr ho =>
    have hcall := hG (.dispatch pkg srcfd dstfd) s.toGlobals s.calls (by simp [relaying])
      (by simp [ho]) a hr.src d hr.dst
    by_cases hba : b = a
    · exact .inl (by simp [relaying, hba])
    · refine Served.release h d hlive (fun hb => ?_) (fun e hne hw => ?_) fun honly => ?_
      · exact .inl (by simp [relaying, hb])
      · exact Waits.mono hw (by simp [relaying, Globals.Live]) (by simp [relaying, hne])
          (by simp [relaying])
      · exact absurd honly (hcall b hba)
  | sendOver c k a hact ho hk ha =>
    refine Served.release h c hlive (fun hb => ?_) (fun e hne hw => ?_) fun honly => ?_
    · exact .inl (by simp [finishing, sending, hb])
    · exact Waits.mono hw (by simp [finishing, sending, Globals.Live])
        (by simp [finishing, sending, hne]) (by simp [finishing, sending])
    · -- who waited for `c` alone is the source that is resumed
      have hba : a = b := Option.some.inj (ha.symm.trans honly.waits.src)
      exact .inl (by simp [finishing, sending, hba])
  | sendNull c k hact ho hk ha =>
    refine Served.release h c hlive (fun hb => ?_) (fun e hne hw => ?_) fun honly => ?_
    · exact .inl (by simp [finishing, sending, hb])
    · exact Waits.mono hw (by simp [finishing, sending, Globals.Live])
        (by simp [finishing, sending, hne]) (by simp [finishing, sending])
    · -- nobody waits for a channel without source
      cases ha.symm.trans honly.waits.src
  | _ =>
    refine Served.mono h ?_ ?_ ?_ ?_ ?_ <;>
      simp +contextual [replying, notifying, relaying, sending, unbridged]

/-- Freeing another connection does not change what `send` answers to the raspi. -/
theorem restartOutcome_freed {r : Slot} (h : (s.channel r).fd ≠ (s.channel c).fd) :
    (s.freed c).restartOutcome r = s.restartOutcome r := by
  have hop : (s.freed c).opened (s.channel r).fd = s.opened (s.channel r).fd := by
    rw [freed_opened, if_neg h]
  simp only [Globals.restartOutcome, Globals.outcome, freed_channel_fd, freed_results, hop]

/-- A RESTART that is not cut short resumes the channel it is for, or ends its connection. -/
theorem checkBreakFd_resumes {fd : ℕ} {r : Slot} (hs : s.Sound) (hn : s.Notifies fd r c)
    (ho : s.restartOutcome r = .sent (sizeofInt + sizeofHead) ∨ s.restartOutcome r = .error)
    (hc : (s.checkBreakFd .remote fd).Live c) :
    ((s.checkBreakFd .remote fd).channel c).recvCtx.io.active = true := by
  have hX : (s.enter (.checkBreakFd .remote fd)).Sound := hs.enter _
  have hl := (hX.lookup_eq _).trans (hn.addressed hs)
  rw [checkBreakFd_of_some hn.bridge] at hc ⊢
  rw [← hs.outcome_restartPkg] at ho
  rcases ho with ho | ho
  · rw [response_of_sent hl (by rw [total_restartPkg] at ho ⊢; exact ho)]
    simp [unbridged]
  · have hY := (hs.notifying fd c (restartPkg (s.channel r).fd)).popped
      (restartPkg (s.channel r).fd).fd 0 (restartPkg (s.channel r).fd).total
    have hfree := hY.freeChannel_eq (c := c) (by simpa [notifying] using hs.used hn.live)
    simp only [notifying] at hfree
    rw [response_of_error hl ho, hfree, unbridged_live, freed_live] at hc
    exact absurd rfl hc.1

/-- The RESTART that answers the close of `c` resumes `b`, or `b` is gone with it. -/
theorem Restarts.closing {b : Slot} (hs : s.Sound) (hc : s.Freeable c)
    (hb : (s.closing c).Live b) (h : s.Restarts c b) : (s.closing c).Served b := by
  obtain ⟨hty, r, hr, hmap, ho⟩ := h
  have hX := (hs.enter (.closed c)).freed hc.1
  have hbc := (freed_live.1 ((closing_effect hs hc).live_of hb)).1
  have hrc : (s.channel r).fd ≠ (s.channel c).fd := by
    rw [← hs.fd_eq hmap]
    exact hbc
  have hn : ((s.enter (.closed c)).freed c).Notifies (s.channel c).fd r b := by
    refine ⟨hr, ?_⟩
    rw [freed_channelMap, freed_channel_fd]
    exact ⟨hrc, hmap⟩
  have hout := restartOutcome_freed (s := s.enter (.closed c)) (c := c) hrc
  rw [Server.closing, hty] at hb ⊢
  exact .inl (checkBreakFd_resumes hX hn (by rw [hout]; exact ho) hb)

theorem NoneStranded.closing (hs : s.Sound) (h : s.NoneStranded) (hc : s.Freeable c)
    (hG : (s.closing c).Heeds StopSafe) : (s.closing c).NoneStranded := by
  intro b hb
  have hcall := hG _ _ _ (closing_suffix hs hc)
  have he := closing_effect hs hc
  have hX := he.live_of hb
  by_cases hwho : ∃ d, s.channelMap[(s.channel c).fd]? = some d ∧ s.WaitsOnlyFor b d
  · obtain ⟨d, hd, honly⟩ := hwho
    have hbd : b ≠ d := ne_of_freed_live (hs.enter _) hX hd
    exact Restarts.closing hs hc hb (hcall d hd b hbd honly).2
  · have hserved : (s.enter (.closed c)).Served b := h b (freed_live.1 hX).2
    exact Served.effect ((hs.enter _).freed hc.1) he hG hb
      (Served.freed hserved hX fun d hd honly => hwho ⟨d, hd, honly⟩)

theorem NoneStranded.accepting (h : s.NoneStranded) {fd : ℕ} (hkey : s.channelMap[fd]? = none)
    (hfree : s.freeSlot = some c) (hs : s.Sound) : (s.accepting fd c).NoneStranded := by
  have hdead : ¬ s.Live c := fun hl => by
    have hact := (hs.map _ c hl).2.2.1
    rw [freeSlot_some hfree] at hact
    cases hact
  intro b hb
  by_cases hbc : b = c
  · exact .inl (by simp [accepting_channel, hbc, freshChannel])
  · have hlive : s.Live b := ((accepting_live hkey).1 hb).resolve_left hbc
    rcases h b hlive with hr | ⟨d, hd⟩
    · exact .inl (by simpa [accepting_channel, hbc] using hr)
    · have hdc : d ≠ c := fun hdc => hdead (hdc ▸ hd.live)
      exact .inr ⟨d, Waits.mono hd (fun hl => (accepting_live hkey).2 (.inr hl))
        (by rw [accepting_channel, if_neg hdc]; exact id) (by rw [accepting_channel, if_neg hdc])⟩

theorem noneStranded_keeps : Keeps StopSafe NoneStranded where
  boot a ha := by simp [Globals.Live, Server.boot] at ha
  accepting hs h _ _ hkey hfree _ := h.accepting hkey hfree hs
  refusing _ h _ _ b hb := Served.mono (h b hb) rfl (fun _ => rfl) id (fun _ => id) (fun _ => rfl)
  effect hs h he hG b hb := Served.effect hs he hG hb (h b (he.live_of hb))
  closing hs h hc hG := h.closing hs hc hG
  routed _ _ _ h := h
  recvPkg c p h b hb := by
    refine Served.mono (h b (by simpa [Globals.Live] using hb)) ?_ ?_ ?_ ?_ ?_ <;> simp
  recvLen c n h b hb := by
    refine Served.mono (h b (by simpa [Globals.Live] using hb)) ?_ ?_ ?_ ?_ ?_ <;> simp

/-- Nobody is stranded in any state of a run whose calls are `StopSafe`. -/
theorem none_stranded (hr : Reachable s) (hG : s.Heeds StopSafe) : s.NoneStranded :=
  noneStranded_keeps.reachable hr hG

theorem none_stranded_frameCut : (after frameCut).NoneStranded :=
  none_stranded (reachable_after _ (by decide +kernel)) (by decide +kernel)

/-- Another source sends to `6` while the frame of `5` is pending, and is taken at once. -/
def superseded : List Event := frameCut ++ Event.stream 2 6 [1] Event.takesAll

theorem source_stranded : ¬ ∀ s, Reachable s → s.NoneStranded := by
  intro h
  have hor := h _ (reachable_after superseded (by decide +kernel)) 0 (by decide +kernel)
  exact absurd hor (by decide +kernel)

end Server
end WawaServer
