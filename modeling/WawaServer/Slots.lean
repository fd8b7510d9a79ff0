import WawaServer.Reachable
import Mathlib.Data.List.Nodup
import Mathlib.Data.List.Perm.Subperm

/-!
# Ownership of slots

A slot that is not `NON_ACTIVE` should be the value of `channel_map` at its own descriptor, so
that the connection that owns it can free it. `check_break_fd` writes `ACTIVE` to the slot of a
raspi without asking whether it was freed, and `free_channel` erases the entry at the slot's
descriptor without asking whose it is. In runs that keep clear of both, no slot is lost.
-/

namespace WawaServer

/-- `check_break_fd` finds the raspi connected and its packet is not refused; `free_channel`
frees a slot whose descriptor is its own or nobody's. -/
def SlotSafe : Call → Globals → History → Prop
  | .checkBreakFd type fd, g, _ => type = .remote → ∀ r ∈ g.bridgeMap[fd]?,
      g.Live r ∧ g.restartOutcome r ≠ .error
  | .freeChannel c, g, _ => g.Live c ∨ g.channelMap[(g.channel c).fd]? = none
  | _, _, _ => True

instance (k : Call) (g : Globals) (l : History) : Decidable (SlotSafe k g l) := by
  refine k.casesOn ?_ ?_ ?_ ?_ ?_ ?_ ?_ ?_ ?_ ?_ ?_ ?_ <;> intros <;>
    dsimp only [SlotSafe] <;> infer_instance

namespace Server

/-- Every slot in use is owned by a connection. -/
def NoLeak (s : Server) : Prop := ∀ c, (s.channel c).status ≠ .nonActive → s.Live c

variable {s t : Server} {c d : Slot}

/-- `NoLeak` reads the descriptors, the status and `channel_map`. -/
theorem NoLeak.congr (h : s.NoLeak) (hm : t.channelMap = s.channelMap)
    (hst : ∀ d, (t.channel d).status = (s.channel d).status)
    (hfd : ∀ d, (t.channel d).fd = (s.channel d).fd) : t.NoLeak := by
  intro d hd
  rw [Globals.Live, hm, hfd]
  exact h d (by rwa [hst] at hd)

/-- A freed slot is not in use; nobody else owned its descriptor. -/
theorem NoLeak.freed (h : s.NoLeak) (hc : s.Live c ∨ s.channelMap[(s.channel c).fd]? = none) :
    (s.freed c).NoLeak := by
  intro d hd
  rw [freed_channel] at hd
  split at hd
  · exact absurd rfl hd
  · rename_i hdc
    have hlive : s.channelMap[(s.channel d).fd]? = some d := h d hd
    rw [Globals.Live, freed_channelMap, freed_channel, if_neg hdc]
    refine ⟨fun hfd => ?_, hlive⟩
    rw [hfd] at hlive
    rcases hc with hc | hc
    · exact hdc (Option.some.inj (hlive.symm.trans hc))
    · cases hlive.symm.trans hc

/-- The slot that `check_break_fd` sets to `ACTIVE` must have an owner. -/
theorem NoLeak.unbridged (h : s.NoLeak) {r : Slot} (hr : s.Live r) (fd : ℕ) :
    (s.unbridged fd r).NoLeak := by
  intro d hd
  have hlive : s.Live d := by
    by_cases hdr : d = r
    · rw [hdr]; exact hr
    · exact h d (by simpa [Server.unbridged, modify_channel_of_ne hdr] using hd)
  simpa [Globals.Live, Server.unbridged] using hlive

/-- The slot that is filled has the new connection as its owner. -/
theorem NoLeak.accepting (h : s.NoLeak) {fd : ℕ} (hkey : s.channelMap[fd]? = none) :
    (s.accepting fd c).NoLeak := by
  intro d hd
  rw [accepting_channel] at hd
  apply (accepting_live hkey).2
  split at hd
  · exact .inl ‹_›
  · exact .inr (h d hd)

/-- Every effect under the condition leaks no slot. -/
theorem NoLeak.effect (hs : s.Sound) (h : s.NoLeak) (he : Effect s t) (hG : t.Heeds SlotSafe) :
    t.NoLeak := by
  cases he with
  | free c hc => exact h.freed (hG (.freeChannel c) s.toGlobals s.calls (by simp))
  | breakLost fd r hb hr =>
    have hcall := hG (.checkBreakFd .remote fd) s.toGlobals s.calls
      (by simp [Server.unbridged])
    -- by `SlotSafe` the raspi is connected when its bridge is broken
    cases (hcall rfl r hb).1.symm.trans hr
  | breakCut fd r c p k hn =>
    have hcall := hG (.checkBreakFd .remote fd) s.toGlobals s.calls
      (by simp [Server.unbridged, notifying])
    -- its channel is `ACTIVE` again, and is connected
    have hr := (hcall rfl r hn.bridge).1
    refine NoLeak.unbridged (NoLeak.congr h ?_ ?_ ?_) ?_ fd <;>
      simp_all [notifying, Globals.Live]
  | breakDone fd r c p hn =>
    have hcall := hG (.checkBreakFd .remote fd) s.toGlobals s.calls
      (by simp [Server.unbridged, notifying])
    have hr := (hcall rfl r hn.bridge).1
    refine NoLeak.unbridged (NoLeak.congr h ?_ ?_ ?_) ?_ fd <;>
      simp_all [notifying, Globals.Live]
  | breakFail fd r c p hn hp ho =>
    have hcall := hG (.checkBreakFd .remote fd) s.toGlobals s.calls
      (by simp [Server.unbridged, notifying, List.suffix_cons_iff])
    subst hp
    -- the raspi takes the RESTART
    rw [hs.outcome_restartPkg] at ho
    exact absurd ho (hcall rfl r hn.bridge).2
  | _ =>
    refine NoLeak.congr h ?_ ?_ ?_ <;>
      simp [replying, relaying, pausing, sending, finishing]

/-- The end of a connection under the condition leaks no slot. -/
theorem NoLeak.closing (hs : s.Sound) (h : s.NoLeak) (hc : s.Freeable c)
    (hG : (s.closing c).Heeds SlotSafe) : (s.closing c).NoLeak := by
  have hX : (s.enter (.closed c)).NoLeak := h
  exact (hX.freed (hG _ _ _ (closing_suffix hs hc))).effect ((hs.enter _).freed hc.1)
    (closing_effect hs hc) hG

/-- `NoLeak` holds along runs whose calls are `SlotSafe`. -/
theorem noLeak_keeps : Keeps SlotSafe NoLeak where
  boot c h := absurd rfl h
  accepting _ h _ _ hkey _ _ := h.accepting hkey
  refusing _ h _ _ := h
  effect hs h he hG := h.effect hs he hG
  closing hs h hc hG := h.closing hs hc hG
  routed _ _ _ h := h
  recvPkg c p h := h.congr rfl (by simp) (by simp)
  recvLen c n h := h.congr rfl (by simp) (by simp)

/-- When every slot is taken, every slot is an entry of `channel_map`. -/
theorem NoLeak.freeSlot_ne_none (h : s.NoLeak)
    (hlt : s.channelMap.size < channelMax) : s.freeSlot ≠ none := by
  intro hnone
  -- every slot has an entry, and so there are as many entries as slots
  have hsub : (List.finRange channelMax).map (fun c => ((s.channel c).fd, c)) ⊆
      s.channelMap.toList := by
    intro e he
    obtain ⟨c, -, rfl⟩ := List.mem_map.1 he
    exact Std.ExtTreeMap.mem_toList_iff_getElem?_eq_some.2 (h c (freeSlot_none hnone c))
  have hnodup : ((List.finRange channelMax).map fun c => ((s.channel c).fd, c)).Nodup :=
    List.Nodup.map (fun _ _ he => (Prod.mk.inj he).2) (List.nodup_finRange _)
  have hle := (hnodup.subperm hsub).length_le
  rw [List.length_map, List.length_finRange, Std.ExtTreeMap.length_toList] at hle
  omega

/-- In the runs where a bridge leads to a live raspi when it is broken no slot is leaked. -/
theorem slots_owned (hr : Reachable s) (hG : s.Heeds SlotSafe) :
    s.NoLeak ∧ (s.channelMap.size < channelMax → s.freeSlot ≠ none) := by
  have h : s.NoLeak := noLeak_keeps.reachable hr hG
  exact ⟨h, h.freeSlot_ne_none⟩

/-- A viewer leaves while its raspi is connected. -/
def viewerLeaves : List Event :=
  [.accept 5, .accept 6] ++ Event.register 1 .remote Event.takesAll ++
    Event.choose 1 5 Event.takesAll ++ [.recv 1 .closed Event.takesAll]

theorem slots_owned_viewerLeaves : (after viewerLeaves).NoLeak :=
  (slots_owned (reachable_after _ (by decide +kernel)) (by decide +kernel)).1

/-- The raspi leaves before its viewer, and its slot is never free again. -/
def raspiLeaves : List Event :=
  [.accept 5, .accept 6] ++ Event.register 1 .remote Event.takesAll ++
    Event.choose 1 5 Event.takesAll ++ [.recv 0 .closed Event.takesAll,
      .recv 1 .closed Event.takesAll]

/-- The raspi leaves first, and its slot is set to `ACTIVE` when the viewer leaves. -/
theorem slot_leaked : ¬ ∀ s, Reachable s → s.NoLeak := by
  intro h
  have hlive := h _ (reachable_after raspiLeaves (by decide +kernel)) 0
  exact absurd (hlive (by decide +kernel)) (by decide +kernel)

end Server
end WawaServer
