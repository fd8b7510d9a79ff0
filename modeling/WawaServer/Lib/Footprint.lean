import Mathlib.Data.Set.Basic

/-!
# Footprints

A state is seen through cells. An operation reads some of them and writes some of those: outside of
what it writes it changes nothing, and what it writes is told by what it reads. Of two operations
where neither writes what the other reads, the order does not matter.

The rules are for operations at one state: which cells an operation reads may depend on where it
starts.
-/

namespace Footprint

variable {σ κ α : Type*} {V : κ → Type*} (view : ∀ k, σ → V k)

/-- The two states are the same in the cells of `R`. -/
def AgreeOn (R : Set κ) (s t : σ) : Prop := ∀ k ∈ R, view k t = view k s

/-- The value of `φ` at `s` is told by the cells of `R`. -/
def Reads (R : Set κ) (φ : σ → α) (s : σ) : Prop := ∀ t, AgreeOn view R s t → φ t = φ s

/-- From `s`, and from states that are the same in the cells of `R`, the operation changes cells of
`W` only, and to values that are told by the cells of `R`. -/
structure LocalAt (R W : Set κ) (f : σ → σ) (s : σ) : Prop where
  frame : ∀ t, AgreeOn view R s t → ∀ k, k ∉ W → view k (f t) = view k t
  reads : ∀ k ∈ W, Reads view R (fun t => view k (f t)) s

variable {view} {R W R' W' : Set κ} {s t : σ} {f g : σ → σ} {φ : σ → α}

theorem AgreeOn.refl (R : Set κ) (s : σ) : AgreeOn view R s s := fun _ _ => rfl

theorem Reads.cell {k : κ} (hk : k ∈ R) : Reads view R (view k) s := fun _ h => h k hk

theorem Reads.congr {ψ : σ → α} (h : Reads view R ψ s)
    (heq : ∀ t, AgreeOn view R s t → φ t = ψ t) : Reads view R φ s := by
  intro t ht
  rw [heq t ht, heq s (.refl R s)]
  exact h t ht

/-! ## Operations -/

/-- An operation on what is not seen. -/
theorem LocalAt.of_unseen (hWR : W ⊆ R) (h : ∀ t k, view k (f t) = view k t) :
    LocalAt view R W f s where
  frame t _ k _ := h t k
  reads k hk t ht := (h t k).trans ((ht k (hWR hk)).trans (h s k).symm)

/-- An operation on one cell. -/
theorem LocalAt.of_cell {k₀ : κ} (hWR : W ⊆ R) (hk₀ : k₀ ∈ W)
    (hframe : ∀ t k, k ≠ k₀ → view k (f t) = view k t)
    (hval : Reads view R (fun t => view k₀ (f t)) s) : LocalAt view R W f s where
  frame t _ k hk := hframe t k fun heq => hk (heq ▸ hk₀)
  reads k hk := by
    by_cases heq : k = k₀
    · subst heq
      exact hval
    · exact fun t ht => (hframe t k heq).trans ((ht k (hWR hk)).trans (hframe s k heq).symm)

/-- After an operation the two states are still the same in the cells of `R`. -/
theorem LocalAt.agree (h : LocalAt view R W f s) (ht : AgreeOn view R s t) :
    AgreeOn view R (f s) (f t) := by
  intro k hk
  by_cases hkW : k ∈ W
  · exact h.reads k hkW t ht
  · rw [h.frame t ht k hkW, h.frame s (.refl R s) k hkW]
    exact ht k hk

theorem LocalAt.comp (hf : LocalAt view R W f s) (hg : LocalAt view R W g (f s)) :
    LocalAt view R W (fun t => g (f t)) s where
  frame t ht k hk := by
    rw [hg.frame (f t) (hf.agree ht) k hk]
    exact hf.frame t ht k hk
  reads k hk t ht := hg.reads k hk (f t) (hf.agree ht)

/-- An operation may depend on what is read. -/
theorem LocalAt.bind {F : α → σ → σ} (hφ : Reads view R φ s) (h : LocalAt view R W (F (φ s)) s) :
    LocalAt view R W (fun t => F (φ t) t) s where
  frame t ht k hk := by
    rw [hφ t ht]
    exact h.frame t ht k hk
  reads k hk t ht := by
    change view k (F (φ t) t) = view k (F (φ s) s)
    rw [hφ t ht]
    exact h.reads k hk t ht

theorem LocalAt.congr (h : LocalAt view R W g s) (heq : ∀ t, AgreeOn view R s t → f t = g t) :
    LocalAt view R W f s where
  frame t ht k hk := by
    rw [heq t ht]
    exact h.frame t ht k hk
  reads k hk := (h.reads k hk).congr fun t ht => by rw [heq t ht]

/-! ## Independence -/

/-- An operation that writes nothing of `R` leaves it alone. -/
theorem LocalAt.agreeOn (hg : LocalAt view R' W' g s) (hW' : ∀ k ∈ W', k ∉ R) :
    AgreeOn view R s (g s) :=
  fun k hk => hg.frame s (.refl R' s) k fun hkW => hW' k hkW hk

/-- What was read is still read. -/
theorem Reads.undisturbed (hφ : Reads view R φ s) (hg : LocalAt view R' W' g s)
    (hW' : ∀ k ∈ W', k ∉ R) : φ (g s) = φ s :=
  hφ _ (hg.agreeOn hW')

/-- Two operations of which neither writes what the other reads commute. -/
theorem LocalAt.comm (hf : LocalAt view R W f s) (hg : LocalAt view R' W' g s) (hWR : W ⊆ R)
    (hW : ∀ k ∈ W, k ∉ R') (hW' : ∀ k ∈ W', k ∉ R) (k : κ) :
    view k (g (f s)) = view k (f (g s)) := by
  have hfs : AgreeOn view R' s (f s) := hf.agreeOn hW
  have hgs : AgreeOn view R s (g s) := hg.agreeOn hW'
  by_cases hk : k ∈ W
  · -- the first one writes it, in either order from the same cells
    have hk' : k ∉ W' := fun h => hW' k h (hWR hk)
    rw [hg.frame _ hfs k hk']
    exact (hf.reads k hk _ hgs).symm
  · by_cases hk' : k ∈ W'
    · rw [hf.frame _ hgs k hk]
      exact hg.reads k hk' _ hfs
    · rw [hg.frame _ hfs k hk', hf.frame s (.refl R s) k hk, hf.frame _ hgs k hk,
        hg.frame s (.refl R' s) k hk']

/-! ## Owners -/

variable {ω : Type*} (owner : κ → Option ω)

/-- The cells that someone in `F` owns. -/
def ownedBy (F : Set ω) : Set κ := {k | ∃ c ∈ F, owner k = some c}

/-- The cells that nobody outside of `F` owns. -/
def openTo (F : Set ω) : Set κ := {k | ∀ c, owner k = some c → c ∈ F}

variable {owner} {F G : Set ω}

theorem ownedBy_subset : ownedBy owner F ⊆ openTo owner F := by
  rintro k ⟨c, hc, hk⟩ d hd
  obtain rfl : c = d := Option.some.inj (hk.symm.trans hd)
  exact hc

theorem not_mem_openTo (h : ∀ c ∈ F, c ∉ G) : ∀ k ∈ ownedBy owner F, k ∉ openTo owner G := by
  rintro k ⟨c, hc, hk⟩ hG
  exact h c hc (hG c hk)

/-- Operations of disjoint sets of owners commute. -/
theorem LocalAt.comm_of_owners (hf : LocalAt view (openTo owner F) (ownedBy owner F) f s)
    (hg : LocalAt view (openTo owner G) (ownedBy owner G) g s) (h : ∀ c ∈ F, c ∉ G)
    (k : κ) : view k (g (f s)) = view k (f (g s)) :=
  hf.comm hg ownedBy_subset (not_mem_openTo h) (not_mem_openTo fun c hG hF => h c hF hG) k

theorem Reads.undisturbed_by (hφ : Reads view (openTo owner F) φ s)
    (hg : LocalAt view (openTo owner G) (ownedBy owner G) g s) (h : ∀ c ∈ G, c ∉ F) :
    φ (g s) = φ s :=
  hφ.undisturbed hg (not_mem_openTo h)

end Footprint
