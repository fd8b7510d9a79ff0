import WawaServer.Registry
import Mathlib.Data.Fintype.Card

/-!
# Accepting a connection

`get_free_channel` looks for a slot that is `NON_ACTIVE` and sets it up. It leaves two of the fields
as they were: `type`, which is the one declared last on the slot, and `pSrcChannel`, which is the
source of the last frame to the slot that was cut short. When no slot is free it returns null, and
`accept_cb` uses the result all the same.
-/

namespace WawaServer
namespace Server

variable {s t u : Server} {c d : Slot} {fd : ℕ}

/-! ## The resume pointer in the history -/

/-- Each `pSrcChannel` is the source of the last frame to the slot that was cut short. -/
def Sourced (s : Server) : Prop :=
  ∀ d, (s.channel d).sendCtx.pSrcChannel = s.calls.cutSource d

theorem Sourced.congr (h : s.Sourced)
    (hsrc : ∀ d, (t.channel d).sendCtx.pSrcChannel = (s.channel d).sendCtx.pSrcChannel)
    (hcalls : ∀ d, t.calls.cutSource d = s.calls.cutSource d) : t.Sourced := by
  intro d
  rw [hsrc, hcalls]
  exact h d

/-- A `dispatch` that sends all, or fails, leaves no source. -/
theorem cutSource_of_not_cut {pkg : Pkg} {srcfd dstfd : ℕ}
    (ho : ¬ s.Writes pkg srcfd dstfd ∨ s.outcome dstfd pkg.total = .sent pkg.total ∨
      s.outcome dstfd pkg.total = .error) (d : Slot) :
    History.cutSource d ((.dispatch pkg srcfd dstfd, s.toGlobals) :: s.calls) =
      s.calls.cutSource d := by
  rw [History.cutSource, if_neg]
  rintro ⟨hw, -, hsent, herr⟩
  rcases ho with ho | ho | ho
  · exact ho hw
  · exact hsent ho
  · exact herr ho

theorem Relays.writes {pkg : Pkg} {srcfd dstfd : ℕ} {a : Slot} (h : s.Relays pkg srcfd dstfd a d) :
    s.Writes pkg srcfd dstfd :=
  ⟨by rw [h.src]; exact Option.some_ne_none a, by rw [h.dst]; exact Option.some_ne_none d, h.len⟩

theorem freed_src (s : Server) (c d : Slot) :
    ((s.freed c).channel d).sendCtx.pSrcChannel = (s.channel d).sendCtx.pSrcChannel := by
  rw [freed_channel]
  split
  · rename_i hdc
    rw [hdc]
  · rfl

theorem Sourced.effect (h : s.Sourced) (he : Effect s t) : t.Sourced := by
  cases he with
  | log k hk =>
    refine h.congr (fun _ => rfl) fun d => ?_
    cases k with
    | dispatch pkg srcfd dstfd =>
      refine cutSource_of_not_cut (.inl ?_) d
      rintro ⟨hsrc, hdst, hlen⟩
      rcases hk with hk | hk | hk
      · exact hsrc hk
      · exact hdst hk
      · omega
    | _ => rfl
  | free c => exact h.congr (freed_src s c) fun _ => rfl
  | breakFail fd r c =>
    refine h.congr (fun d => ?_) fun _ => rfl
    simp [unbridged, freed_src, notifying]
  | relayCut pkg srcfd dstfd a d k hr ho =>
    intro e
    have hcut : History.cutSource e ((.dispatch pkg srcfd dstfd, s.toGlobals) :: s.calls) =
        if e = d then some a else s.calls.cutSource e := by
      by_cases hed : e = d
      · rw [if_pos hed, History.cutSource, if_pos, hr.src]
        exact ⟨hr.writes, by rw [hr.dst, hed], ho.outcome_ne.2, ho.outcome_ne.1⟩
      · rw [if_neg hed, History.cutSource, if_neg]
        rintro ⟨-, hdst, -⟩
        exact hed (Option.some.inj (hdst.symm.trans hr.dst))
    refine Eq.trans ?_ hcut.symm
    by_cases hed : e = d
    · rw [if_pos hed, hed]
      simp [pausing, setSrcChannel]
    · rw [if_neg hed, ← h e]
      simp [pausing, setSrcChannel, modify_channel_of_ne hed, relaying]
  | relayDone pkg srcfd dstfd a d hr ho =>
    refine h.congr ?_ fun e => cutSource_of_not_cut (.inr (.inl ho)) e
    simp [relaying]
  | relayFail pkg srcfd dstfd a d hr ho =>
    refine h.congr ?_ fun e => cutSource_of_not_cut (.inr (.inr ho)) e
    simp [relaying]
  | _ =>
    refine h.congr ?_ fun _ => rfl
    simp [replying, sending, finishing, notifying, unbridged]

theorem sourced_keeps : Keeps (fun _ _ _ => True) Sourced where
  boot _ := rfl
  accepting {s fd c} _ h _ _ _ _ _ := by
    refine h.congr (fun d => ?_) fun _ => rfl
    rw [accepting_channel]
    split
    · rename_i hdc
      rw [hdc]
      rfl
    · rfl
  refusing _ h _ _ := h.congr (fun _ => rfl) fun _ => rfl
  effect _ h he _ := h.effect he
  closing {s c} hs h hc _ :=
    (h.congr (t := (s.enter (.closed c)).freed c) (freed_src _ c) fun _ => rfl).effect
      (closing_effect hs hc)
  routed _ _ _ h := h.congr (fun _ => rfl) fun _ => rfl
  recvPkg c p h := h.congr (by simp) fun _ => rfl
  recvLen c n h := h.congr (by simp) fun _ => rfl

theorem Reachable.sourced (hr : Reachable s) : s.Sourced :=
  sourced_keeps.reachable hr fun _ _ _ _ => trivial

/-! ## A recycled slot -/

/-- A slot that is used for the first time. -/
structure FirstUse (u : Server) (c : Slot) : Prop where
  free : u.freeSlot = some c
  unused : u.channel c = Channel.unused

/-- The slot is as `accept_cb` leaves it on its first use. -/
def AsFirstUsed (t : Server) (c : Slot) (fd : ℕ) : Prop :=
  ∀ u, FirstUse u c → t.channel c = (u.acceptCb fd).channel c

theorem FirstUse.acceptCb (h : FirstUse u c) (fd : ℕ) :
    (u.acceptCb fd).channel c = freshChannel c fd Channel.unused := by
  rw [acceptCb_of_some h.free, accepting_channel, if_pos rfl, h.unused]

/-- Every slot has a first use. -/
theorem exists_firstUse (c : Slot) : ∃ u, FirstUse u c := by
  let busy : Channel := { Channel.unused with status := .active }
  let u : Server := { boot with channel := Function.update (fun _ => busy) c Channel.unused }
  have hself : u.channel c = Channel.unused := by simp [u]
  have hother : ∀ d, (u.channel d).status = .nonActive → d = c := by
    intro d hd
    by_contra hne
    simp [u, busy, Function.update_of_ne hne] at hd
  refine ⟨u, ?_, hself⟩
  cases hd : u.freeSlot with
  | none => exact absurd (by rw [hself]; rfl) (freeSlot_none hd c)
  | some d => rw [hother d (freeSlot_some hd)]

theorem freshChannel_inj {ch ch' : Channel} : freshChannel c fd ch = freshChannel c fd ch' ↔
    ch.type = ch'.type ∧ ch.sendCtx.pSrcChannel = ch'.sendCtx.pSrcChannel := by
  simp [freshChannel]

/-- `accept_cb` leaves a slot as on its first use exactly if no remote was the last to register on
it and no frame to it was ever cut short. -/
theorem recycled_fresh (hr : Reachable s) (h : s.step (.accept fd) = some t)
    (hc : s.freeSlot = some c) :
    t.AsFirstUsed c fd ↔ s.calls.slotType c = .raspi ∧ s.calls.cutSource c = none := by
  obtain ⟨-, -, rfl⟩ := step_eq_some.1 h
  have hch : (s.acceptCb fd).channel c = freshChannel c fd (s.channel c) := by
    rw [acceptCb_of_some hc, accepting_channel, if_pos rfl]
  have hty : (s.channel c).type = s.calls.slotType c :=
    (typed_keeps.reachable hr fun _ _ _ _ => trivial).slot c
  rw [← hty, ← hr.sourced c]
  constructor
  · intro hall
    obtain ⟨u, hu⟩ := exists_firstUse c
    have heq := hall u hu
    rw [exec, hch, hu.acceptCb] at heq
    exact freshChannel_inj.1 heq
  · intro hold u hu
    rw [exec, hch, hu.acceptCb]
    exact freshChannel_inj.2 hold

/-- A connection comes and goes. -/
def leaves : List Event := [.accept 5, .recv 0 .closed Event.takesAll]

theorem recycled_fresh_leaves : (after (leaves ++ [.accept 6])).AsFirstUsed 0 6 :=
  (recycled_fresh (reachable_after leaves (by decide +kernel))
    (step_after leaves (.accept 6) (by decide +kernel)) (by decide +kernel)).2
    ⟨by decide +kernel, by decide +kernel⟩

/-- A remote registers and goes. -/
def remoteLeaves : List Event :=
  [.accept 5] ++ Event.register 0 .remote Event.takesAll ++ [.recv 0 .closed Event.takesAll]

/-- The next connection on its slot has the type of the remote. -/
theorem recycled_stale : ¬ ∀ s t fd c, Reachable s → s.step (.accept fd) = some t →
    s.freeSlot = some c → t.AsFirstUsed c fd := by
  intro h
  obtain ⟨u, hu⟩ := exists_firstUse 0
  have heq := h _ _ 6 0 (reachable_after remoteLeaves (by decide +kernel))
    (step_after remoteLeaves (.accept 6) (by decide +kernel)) (by decide +kernel) u hu
  rw [hu.acceptCb] at heq
  exact absurd (congrArg Channel.type heq) (by decide +kernel)

/-! ## No slot left -/

/-- The connection is closed at once and nothing else has changed. -/
structure ConnRefused (s : Server) (fd : ℕ) (t : Server) : Prop where
  closed : t.opened fd = false
  channel : t.channel = s.channel
  channelMap : t.channelMap = s.channelMap
  bridgeMap : t.bridgeMap = s.bridgeMap

/-- The connection has taken the slot `c`, and nothing but that slot and one entry of `channel_map`
has changed. -/
structure ConnAccepted (s : Server) (fd : ℕ) (t : Server) (c : Slot) : Prop where
  free : (s.channel c).status = .nonActive
  taken : (t.channel c).status = .active
  others : ∀ d, d ≠ c → t.channel d = s.channel d
  new : s.channelMap[fd]? = none
  entries : ∀ fd', t.channelMap[fd']? = if fd' = fd then some c else s.channelMap[fd']?
  bridgeMap : t.bridgeMap = s.bridgeMap

/-- `accept_cb` refuses the connection if no slot is free, and takes a slot for it if one is. -/
structure AcceptsCleanly (s : Server) (fd : ℕ) (t : Server) : Prop where
  noNull : t.fault ≠ some .nullChannel
  refused : (∀ c, (s.channel c).status ≠ .nonActive) → ConnRefused s fd t
  accepted : (∃ c, (s.channel c).status = .nonActive) → ∃ c, ConnAccepted s fd t c

theorem accepted_accepting (hkey : s.channelMap[fd]? = none) (hc : s.freeSlot = some c) :
    ConnAccepted s fd (s.accepting fd c) c where
  free := freeSlot_some hc
  taken := by rw [accepting_channel, if_pos rfl]; rfl
  others d hd := by rw [accepting_channel, if_neg hd]
  new := hkey
  entries := accepting_channelMap hkey c
  bridgeMap := rfl

/-- `accept_cb` behaves as long as a slot is free, and uses a null channel if none is. -/
theorem accept_clean (hr : Reachable s) (h : s.step (.accept fd) = some t) :
    AcceptsCleanly s fd t ↔ ∃ c, (s.channel c).status = .nonActive := by
  obtain ⟨hf, ⟨-, -, hop⟩, rfl⟩ := step_eq_some.1 h
  have hkey := hr.sound.key_none hop
  rw [exec]
  obtain ⟨c, hc, heq⟩ | ⟨hnone, heq⟩ := acceptCb_cases s fd
  · have hfree := freeSlot_some hc
    rw [heq]
    refine ⟨fun _ => ⟨c, hfree⟩, fun _ => ⟨?_, fun hno => absurd hfree (hno c), fun _ =>
      ⟨c, accepted_accepting hkey hc⟩⟩⟩
    show s.fault ≠ some .nullChannel
    rw [hf]
    exact (Option.some_ne_none _).symm
  · rw [heq]
    constructor
    · intro hclean
      exact absurd rfl hclean.noNull
    · rintro ⟨c, hc⟩
      exact absurd hc (freeSlot_none hnone c)

theorem accept_clean_leaves : AcceptsCleanly (after leaves) 6 (after (leaves ++ [.accept 6])) :=
  (accept_clean (reachable_after leaves (by decide +kernel))
    (step_after leaves (.accept 6) (by decide +kernel))).2 ⟨0, by decide +kernel⟩

/-! ### A run that fills `channel[]` -/

/-- The slots that are free. -/
def freeSlots (s : Server) : Finset Slot :=
  Finset.univ.filter fun c => (s.channel c).status = .nonActive

theorem mem_freeSlots : c ∈ s.freeSlots ↔ (s.channel c).status = .nonActive := by
  simp [freeSlots]

/-- A connection takes one of them. -/
theorem freeSlots_accepting (fd : ℕ) : (s.accepting fd c).freeSlots = s.freeSlots.erase c := by
  ext d
  rw [Finset.mem_erase, mem_freeSlots, mem_freeSlots, accepting_channel]
  by_cases hdc : d = c
  · simp [hdc, freshChannel]
  · rw [if_neg hdc]
    simp [hdc]

/-- `n` connections have been accepted, under the descriptors from 1 on. -/
structure Filled (s : Server) (n : ℕ) : Prop where
  reachable : Reachable s
  fault : s.fault = none
  opened : ∀ fd, n < fd → s.opened fd = false
  free : s.freeSlots.card + n = channelMax

theorem Filled.enabled {n : ℕ} (h : s.Filled n) (hn : n < 2 ^ 31 - 1) :
    s.step (.accept (n + 1)) = some (s.acceptCb (n + 1)) :=
  step_eq_some.2 ⟨h.fault, ⟨Nat.succ_pos n, by omega, h.opened _ (Nat.lt_succ_self n)⟩, rfl⟩

theorem Filled.succ {n : ℕ} (h : s.Filled n) (hn : n < channelMax) :
    ∃ t : Server, t.Filled (n + 1) := by
  have hstep := h.enabled (by simp only [channelMax] at hn; omega)
  have hfree := h.free
  obtain ⟨c, hc, heq⟩ | ⟨hnone, -⟩ := acceptCb_cases s (n + 1)
  · rw [heq] at hstep
    refine ⟨_, h.reachable.snoc _ hstep, h.fault, fun fd hfd => ?_, ?_⟩
    · have hne : fd ≠ n + 1 := by omega
      show Function.update s.opened (n + 1) true fd = false
      rw [Function.update_of_ne hne]
      exact h.opened fd (by omega)
    · have hmem := mem_freeSlots.2 (freeSlot_some hc)
      have hpos := Finset.card_pos.2 ⟨c, hmem⟩
      rw [freeSlots_accepting, Finset.card_erase_of_mem hmem]
      omega
  · -- a slot is left
    obtain ⟨c, hc⟩ := Finset.card_pos.1 (show 0 < s.freeSlots.card by omega)
    exact absurd (mem_freeSlots.1 hc) (freeSlot_none hnone c)

theorem exists_filled {n : ℕ} (hn : n ≤ channelMax) : ∃ s : Server, s.Filled n := by
  induction n with
  | zero =>
    refine ⟨boot, Runs.Reaches.refl _ _, rfl, fun _ _ => rfl, ?_⟩
    have huniv : boot.freeSlots = Finset.univ := by
      ext c
      simp [mem_freeSlots, boot, Channel.unused]
    rw [huniv, Finset.card_univ, Fintype.card_fin]
  | succ n ih =>
    obtain ⟨s, hs⟩ := ih (Nat.le_of_succ_le hn)
    exact hs.succ hn

/-- The connection after 256 others is not refused: `accept_cb` uses a null channel. -/
theorem accept_null : ¬ ∀ s t fd, Reachable s → s.step (.accept fd) = some t →
    AcceptsCleanly s fd t := by
  intro h
  obtain ⟨s, hs⟩ := exists_filled le_rfl
  have hstep := hs.enabled (by decide)
  have hempty : s.freeSlots = ∅ := Finset.card_eq_zero.1 (by have := hs.free; omega)
  have hnone : ∀ c, (s.channel c).status ≠ .nonActive := by
    intro c hc
    have hmem := mem_freeSlots.2 hc
    rw [hempty] at hmem
    cases hmem
  have hclean := (h s _ _ hs.reachable hstep).noNull
  obtain ⟨c, hc, -⟩ | ⟨-, heq⟩ := acceptCb_cases s (channelMax + 1)
  · exact hnone c (freeSlot_some hc)
  · rw [heq] at hclean
    exact hclean rfl

end Server
end WawaServer
