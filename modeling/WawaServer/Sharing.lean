import WawaServer.Choices

/-!
# One viewer a raspi

Two viewers may choose the same raspi: the status `BUSY`, which `check_break_fd` clears, is set
nowhere. In the runs that avoid this no two viewers have a bridge to the same channel, and the
RESTART for a viewer that leaves goes to no raspi that another one was answered for
(`serves_one_viewer`).

Descriptors and slots are given out again while bridges that lead there are left, so the connections
are compared, and a raspi is taken if a bridge leads to any channel with its descriptor.
-/

namespace WawaServer
namespace Server

/-- No connection but that of `fd` has a bridge to `r`, or was answered for the connection that `r`
has or had. -/
def Unshared (s : Server) (fd : ℕ) (r : Slot) : Prop :=
  ∀ e ∈ s.channelMap.toList, e.1 ≠ fd →
    s.bridgeMap[e.1]? ≠ some r ∧ s.calls.conn (s.channel r).fd ∉ s.calls.choices e.1

instance (s : Server) (fd : ℕ) (r : Slot) : Decidable (s.Unshared fd r) :=
  inferInstanceAs (Decidable (∀ e ∈ _, _ → _ ∧ _))

end Server

/-- A viewer chooses a raspi that no other connection has a bridge to or, if a bridge is made, was
answered for. A bridge that an earlier connection of the descriptor has left is shared with nobody
when `accept` returns the descriptor, or when a slot that still holds it has `check_break_fd`
called for it. -/
def ChoosesFree : Call → Globals → History → Prop
  | .handleChooseServerReq pkg, g, l =>
      ∀ d ∈ g.chosen pkg, ∀ e ∈ g.channelMap.toList, e.1 ≠ pkg.fd →
        (∀ r ∈ g.bridgeMap[e.1]?, (g.channel r).fd ≠ (g.channel d).fd) ∧
          (g.bridgeMap[pkg.fd]? = none → l.conn (g.channel d).fd ∉ l.choices e.1)
  | .acceptCb fd, g, l => ∀ r ∈ g.bridgeMap[fd]?, Server.Unshared ⟨g, l⟩ fd r
  | .freeChannel c, g, l => l.closing = true → (g.channel c).type = .remote →
      g.channelMap[(g.channel c).fd]? = none →
        ∀ r ∈ g.bridgeMap[(g.channel c).fd]?, Server.Unshared ⟨g, l⟩ (g.channel c).fd r
  | .checkBreakFd type fd, g, l => type = .remote → l.parting = false →
      g.channelMap[fd]? = none → ∀ r ∈ g.bridgeMap[fd]?, Server.Unshared ⟨g, l⟩ fd r
  | _, _, _ => True

instance (k : Call) (g : Globals) (l : History) : Decidable (ChoosesFree k g l) := by
  refine k.casesOn ?_ ?_ ?_ ?_ ?_ ?_ ?_ ?_ ?_ ?_ ?_ ?_ <;> intros <;>
    dsimp only [ChoosesFree] <;> infer_instance

namespace Server

variable {s t u : Server} {c d r : Slot} {p pkg : Pkg} {fd : ℕ}

/-- Who is connected is in the list of the map. -/
theorem mem_of_live {m : Std.ExtTreeMap ℕ Slot} (h : m[fd]? ≠ none) : ∃ c, (fd, c) ∈ m.toList := by
  obtain ⟨c, hc⟩ := Option.ne_none_iff_exists'.1 h
  exact ⟨c, Std.ExtTreeMap.mem_toList_iff_getElem?_eq_some.2 hc⟩

/-- Nobody else that is connected has a bridge to the channel, or named its connection. -/
theorem unshared_iff : s.Unshared fd r ↔ ∀ fd', fd' ≠ fd → s.channelMap[fd']? ≠ none →
    s.bridgeMap[fd']? ≠ some r ∧ s.calls.conn (s.channel r).fd ∉ s.calls.choices fd' := by
  constructor
  · intro h fd' hne hl
    obtain ⟨c, hc⟩ := mem_of_live hl
    exact h (fd', c) hc hne
  · intro h e he hne
    apply h e.1 hne
    rw [Std.ExtTreeMap.mem_toList_iff_getElem?_eq_some.1 he]
    exact Option.some_ne_none e.2

/-! ## Choices and accepts -/

/-- A connection that was named in a choice had been accepted. -/
theorem gen_le_of_mem {κ : Conn} {l : History} (h : κ ∈ l.choices fd) : κ.2 ≤ l.gen κ.1 := by
  induction l with
  | nil => cases h
  | cons k l ih =>
    obtain ⟨k, g⟩ := k
    cases k with
    | acceptCb fd' =>
      rw [History.choices] at h
      split at h
      · cases h
      · exact (ih h).trans (Nat.le_add_right _ _)
    | handleChooseServerReq pkg =>
      rw [History.choices] at h
      split at h
      · rcases List.mem_cons.1 h with rfl | h
        · exact le_rfl
        · exact ih h
      · exact ih h
    | _ => exact ih h

/-- Nobody has chosen the connection that is accepted, and it has chosen nobody. -/
theorem mem_choices_accepted {x fd' : ℕ} {g : Globals} {l : History}
    (h : History.conn ((.acceptCb fd', g) :: l) x ∈
      History.choices fd ((.acceptCb fd', g) :: l)) :
    x ≠ fd' ∧ fd ≠ fd' ∧ l.conn x ∈ l.choices fd := by
  have hfd : fd ≠ fd' := by
    rintro rfl
    rw [History.choices, if_pos rfl] at h
    cases h
  rw [choices_accepted _ _ hfd] at h
  have hx : x ≠ fd' := by
    rintro rfl
    have hle := gen_le_of_mem h
    simp [History.conn, History.gen] at hle
  rw [conn_accepted _ _ hx] at h
  exact ⟨hx, hfd, h⟩

/-! ## The bridges of the viewers -/

/-- The bridge of `fd` is shared with nobody while `fd` is connected. -/
def Exclusive (s : Server) (fd : ℕ) (r : Slot) : Prop :=
  s.channelMap[fd]? ≠ none → s.Unshared fd r

/-- `Exclusive`, when `fd'` is accepted into the slot `c`. -/
theorem Exclusive.accepting (h : s.Exclusive fd r) {fd' : ℕ} (hkey : s.channelMap[fd']? = none)
    (hb : s.bridgeMap[fd]? = some r) (hG : ChoosesFree (.acceptCb fd') s.toGlobals s.calls) :
    (s.accepting fd' c).Exclusive fd r := by
  -- before, the bridge was shared with nobody that is still there
  have hbefore : (s.accepting fd' c).channelMap[fd]? ≠ none → s.Unshared fd r := by
    intro hl
    by_cases hfd : fd = fd'
    · subst hfd
      exact hG r hb
    · rw [accepting_channelMap hkey, if_neg hfd] at hl
      exact h hl
  intro hl
  rw [unshared_iff]
  intro fd₂ hne hl₂
  have hu := unshared_iff.1 (hbefore hl) fd₂ hne
  rw [accepting_channelMap hkey] at hl hl₂
  constructor
  · show s.bridgeMap[fd₂]? ≠ some r
    by_cases hfd₂ : fd₂ = fd'
    · -- the new connection may find a bridge under its descriptor
      subst hfd₂
      rw [if_neg (Ne.symm hne)] at hl
      intro hb₂
      exact (unshared_iff.1 (hG r hb₂) fd (Ne.symm hne) hl).1 hb
    · rw [if_neg hfd₂] at hl₂
      exact (hu hl₂).1
  · intro hmem
    obtain ⟨hx, hfd₂, hmem⟩ := mem_choices_accepted hmem
    rw [if_neg hfd₂] at hl₂
    rw [accepting_channel] at hx hmem
    split at hx
    · exact hx rfl
    · rename_i hrc
      rw [if_neg hrc] at hmem
      exact (hu hl₂).2 hmem

/-- A connection that finds no slot shares nothing. -/
theorem Exclusive.refusing (h : s.Exclusive fd r) (fd' : ℕ) :
    (s.refusing fd').Exclusive fd r := by
  intro hl
  rw [unshared_iff]
  intro fd₂ hne hl₂
  have hu := unshared_iff.1 (h hl) fd₂ hne hl₂
  exact ⟨hu.1, fun hmem => hu.2 (mem_choices_accepted hmem).2.2⟩

/-- A bridge is exclusive when it is made, and stays so while others choose freely. -/
theorem exclusive_law : BridgeLaw ChoosesFree Exclusive where
  less {s t fd r} hc hm hb h hl := by
    rw [hm] at hl
    rw [unshared_iff]
    intro fd₂ hne hl₂
    rw [hm] at hl₂
    have hu := unshared_iff.1 (h hl) fd₂ hne hl₂
    rw [hc.fd, hc.conn, hc.choices]
    exact ⟨fun hb₂ => hu.1 (hb fd₂ _ hb₂), hu.2⟩
  accepting {s fd fd' c r} _ hI hkey _ hG hb := (hI.entry fd r hb).accepting hkey hb hG
  refusing {s fd fd' r} hI _ _ hb := (hI.entry fd r hb).refusing fd'
  chosen {s pkg fd r} hs hI hG hb hl := by
    rw [unshared_iff]
    intro fd₂ hne hl₂
    have hu := unshared_iff.1 (hI.entry fd r hb hl) fd₂ hne hl₂
    refine ⟨hu.1, ?_⟩
    simp only [Server.enter, History.choices]
    split
    · -- `fd₂` chooses now, and no bridge leads to a channel with that descriptor
      rename_i hch
      obtain ⟨rfl, hch⟩ := hch
      intro hmem
      rcases List.mem_cons.1 hmem with heq | hmem
      · obtain ⟨c, hc⟩ := mem_of_live hl
        obtain ⟨d, hd⟩ := Option.ne_none_iff_exists'.1 hch
        apply (hG d hd (fd, c) hc (Ne.symm hne)).1 r hb
        rw [hs.fd_eq (map_of_chosen hd)]
        exact (Prod.mk.inj heq).1
      · exact hu.2 hmem
    · exact hu.2
  making {s pkg d} _ _ hG _ hd hb hl := by
    rw [unshared_iff]
    intro fd₂ hne hl₂
    obtain ⟨c, hc⟩ := mem_of_live hl₂
    have h := hG d hd (fd₂, c) hc hne
    refine ⟨fun hb₂ => h.1 d hb₂ rfl, ?_⟩
    show History.conn (s.enter (.handleChooseServerReq pkg)).calls (s.channel d).fd ∉ _
    simp only [Server.enter, History.choices]
    rw [if_neg fun hch => hne hch.1.symm]
    exact h.2 hb
  freed {s c fd r} _ _ _ h _ hl := by
    -- who is connected after `free_channel` was connected before
    have hold : ∀ {fd : ℕ}, (s.freed c).channelMap[fd]? ≠ none → s.channelMap[fd]? ≠ none :=
      fun hl hnone => hl ((freed_channelMap_none s c).2 (.inr hnone))
    rw [unshared_iff]
    intro fd₂ hne hl₂
    rw [freed_channel_fd]
    exact unshared_iff.1 (h (hold hl)) fd₂ hne (hold hl₂)
  bridged {s fd fd' r d} h h' hnone hcase hl := by
    rw [unshared_iff]
    intro fd₂ hne hl₂
    have hu := unshared_iff.1 (h hl) fd₂ hne hl₂
    refine ⟨?_, hu.2⟩
    simp only
    rw [BridgeLaw.getElem?_insertIfNew_of_none hnone]
    split
    · subst fd₂
      -- the new bridge is that of `fd₂`, and the old one of `fd` ends elsewhere
      rcases hcase with hb | ⟨rfl, -⟩
      · intro hdr
        exact (unshared_iff.1 (h' hl₂) fd (Ne.symm hne) hl).1 (hb.trans hdr.symm)
      · exact absurd rfl hne
    · exact hu.1

/-! ## Runs -/

/-- Two connections have bridges to different raspis. When `check_break_fd` is called, no other
connection was answered for the raspi of the bridge, or for anyone that is written to. -/
structure ServesOne (s : Server) : Prop where
  bridge : ∀ (fd fd' : ℕ) (r : Slot), fd ≠ fd' → s.channelMap[fd]? ≠ none →
    s.channelMap[fd']? ≠ none → s.bridgeMap[fd]? = some r → s.bridgeMap[fd']? ≠ some r
  raspi : ∀ fd g l, (.checkBreakFd .remote fd, g) :: l <:+ s.calls → ∀ r : Slot,
    g.bridgeMap[fd]? = some r → ∀ fd', fd' ≠ fd → g.channelMap[fd']? ≠ none →
      History.conn l (g.channel r).fd ∉ History.choices fd' l
  sent : ∀ type fd g l, (.checkBreakFd type fd, g) :: l <:+ s.calls → ∀ x,
    ((⟨g, l⟩ : Server).checkBreakFd type fd).sent x = g.sent x ∨
      ∀ fd', fd' ≠ fd → g.channelMap[fd']? ≠ none → History.conn l x ∉ History.choices fd' l

/-- In the runs where raspis are chosen freely no two viewers share one. -/
theorem serves_one_viewer (hr : Reachable s) (hG : s.Heeds ChoosesFree) : s.ServesOne := by
  have hkeep := by
    refine exclusive_law.parted (Q := Unshared) ?_ ?_
    · intro s fd r hpart hG hb h
      by_cases hl : s.channelMap[fd]? = none
      · exact hG rfl hpart hl r hb
      · exact h hl
    · intro s c r hs hc hcl hG hty hb h
      have hu : s.Unshared (s.channel c).fd r := by
        by_cases hl : s.channelMap[(s.channel c).fd]? = none
        · exact hG hcl hty hl r hb
        · exact h hl
      rw [unshared_iff]
      intro fd' hne hl
      rw [freed_channel_fd]
      apply unshared_iff.1 hu fd' hne
      exact fun hnone => hl ((freed_channelMap_none s c).2 (.inr hnone))
  obtain ⟨⟨⟨-, hlaw⟩, -⟩, hpart⟩ := hkeep.reachable hr hG
  have hraspi : ∀ fd g l, (.checkBreakFd .remote fd, g) :: l <:+ s.calls → ∀ r : Slot,
      g.bridgeMap[fd]? = some r → ∀ fd', fd' ≠ fd → g.channelMap[fd']? ≠ none →
        History.conn l (g.channel r).fd ∉ History.choices fd' l :=
    fun fd g l hk r hb fd' hne hl => (unshared_iff.1 (hpart fd g l hk r hb) fd' hne hl).2
  refine ⟨fun fd fd' r hne hl hl' hb => ?_, hraspi, fun type fd g l hk x => ?_⟩
  · exact (unshared_iff.1 (hlaw.entry fd r hb hl) fd' (Ne.symm hne) hl').1
  · apply (checkBreakFd_sent (hr.soundCalls _ g l hk) type fd x).imp_right
    rintro ⟨rfl, r, hb, rfl⟩
    exact hraspi fd g l hk r hb

/-- Two viewers choose a raspi each, and one of them leaves. -/
def choosesOwn : List Event :=
  viewerJoins ++ [.accept 7, .accept 8] ++ Event.register 3 .remote Event.takesAll ++
    Event.choose 3 7 Event.takesAll ++ [.recv 1 .closed Event.takesAll]

theorem serves_one_viewer_choosesOwn : (after choosesOwn).ServesOne :=
  serves_one_viewer (reachable_after _ (by decide +kernel)) (by decide +kernel)

/-- A second viewer chooses the raspi of the first. -/
def choosesTaken : List Event :=
  viewerJoins ++ [.accept 7] ++ Event.register 2 .remote Event.takesAll ++
    Event.choose 2 5 Event.takesAll

/-- Two viewers choose one raspi, and both are answered that it is theirs. -/
theorem raspi_shared : ¬ ∀ s, Reachable s → s.ServesOne := by
  intro h
  have hbridge := (h _ (reachable_after choosesTaken (by decide +kernel))).bridge 6 7 0
    (by decide) (by decide +kernel) (by decide +kernel) (by decide +kernel)
  exact absurd hbridge (by decide +kernel)

end Server
end WawaServer
