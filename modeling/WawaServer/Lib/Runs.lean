import Mathlib.Data.List.Induction
import Mathlib.Data.Option.Basic

/-!
# Runs of a deterministic machine

A machine is a partial function `step` from a state and an event to the next state. `run`
folds it over a list of events. The rules below turn what one step preserves into what every
run preserves.
-/

namespace Runs

variable {σ ε : Type*} (step : σ → ε → Option σ)

/-- The state after a list of events. -/
def run (s : σ) : List ε → Option σ
  | [] => some s
  | e :: es => (step s e).bind fun t => run t es

/-- `t` is the state after some run from `s`. -/
def Reaches (s t : σ) : Prop := ∃ es, run step s es = some t

@[simp] theorem run_nil (s : σ) : run step s [] = some s := rfl

theorem run_cons_eq_some {s t : σ} {e : ε} {es : List ε} :
    run step s (e :: es) = some t ↔ ∃ u, step s e = some u ∧ run step u es = some t := by
  simp [run, Option.bind_eq_some_iff]

theorem run_append_eq_some {s t : σ} {es fs : List ε} :
    run step s (es ++ fs) = some t ↔ ∃ u, run step s es = some u ∧ run step u fs = some t := by
  induction es generalizing s with
  | nil => simp
  | cons e es ih =>
    simp only [List.cons_append, run_cons_eq_some, ih]
    constructor
    · rintro ⟨u, hu, v, hv, ht⟩
      exact ⟨v, ⟨u, hu, hv⟩, ht⟩
    · rintro ⟨v, ⟨u, hu, hv⟩, ht⟩
      exact ⟨u, hu, v, hv, ht⟩

theorem run_concat_eq_some {s t : σ} {e : ε} {es : List ε} :
    run step s (es ++ [e]) = some t ↔ ∃ u, run step s es = some u ∧ step u e = some t := by
  simp [run_append_eq_some, run_cons_eq_some]

theorem Reaches.refl (s : σ) : Reaches step s s := ⟨[], rfl⟩

theorem Reaches.trans {s t u : σ} (h : Reaches step s t) (h' : Reaches step t u) :
    Reaches step s u := by
  obtain ⟨es, hes⟩ := h
  obtain ⟨fs, hfs⟩ := h'
  exact ⟨es ++ fs, (run_append_eq_some step).2 ⟨t, hes, hfs⟩⟩

theorem Reaches.snoc {s t u : σ} {e : ε} (h : Reaches step s t) (h' : step t e = some u) :
    Reaches step s u := by
  obtain ⟨es, hes⟩ := h
  exact ⟨es ++ [e], (run_concat_eq_some step).2 ⟨t, hes, h'⟩⟩

/-- What every step preserves, every run preserves. -/
theorem run_invariant {P : σ → Prop} (hstep : ∀ s e t, P s → step s e = some t → P t)
    {s t : σ} {es : List ε} (h : run step s es = some t) (hs : P s) : P t := by
  induction es generalizing s with
  | nil =>
    obtain rfl : s = t := by simpa using h
    exact hs
  | cons e es ih =>
    obtain ⟨u, hu, ht⟩ := (run_cons_eq_some step).1 h
    exact ih ht (hstep s e u hs hu)

/-- Induction over the states that can be reached; a step may use that its first state is one
of them. -/
theorem Reaches.induction {s : σ} {P : σ → Prop} (hs : P s)
    (hstep : ∀ t e u, Reaches step s t → P t → step t e = some u → P u) {t : σ}
    (h : Reaches step s t) : P t := by
  obtain ⟨es, hes⟩ := h
  induction es using List.reverseRecOn generalizing t with
  | nil =>
    obtain rfl : s = t := by simpa using hes
    exact hs
  | append_singleton es e ih =>
    obtain ⟨u, hu, ht⟩ := (run_concat_eq_some step).1 hes
    exact hstep u e t ⟨es, hu⟩ (ih hu) ht

/-! ## Conditions on the steps of a run -/

variable {R : σ → ε → σ → Prop}

/-- Every step of the run on a list of events meets `R`. -/
def Along (R : σ → ε → σ → Prop) : σ → List ε → Prop
  | _, [] => True
  | s, e :: es => ∀ t ∈ step s e, R s e t ∧ Along R t es

instance instDecidableAlong [∀ s e t, Decidable (R s e t)] :
    ∀ s es, Decidable (Along step R s es)
  | _, [] => inferInstanceAs (Decidable True)
  | s, e :: es =>
    have := fun t => instDecidableAlong t es
    Option.decidableForallMem (step s e)

theorem along_of_forall {es : List ε} (h : ∀ e ∈ es, ∀ s t, R s e t) (s : σ) :
    Along step R s es := by
  induction es generalizing s with
  | nil => trivial
  | cons e es ih =>
    intro t _
    exact ⟨h e List.mem_cons_self s t, ih (fun f hf => h f (List.mem_cons_of_mem e hf)) t⟩

/-- A condition that follows from another one on the steps that can be reached follows along every
run. -/
theorem Along.imp {R' : σ → ε → σ → Prop} {s : σ} {es : List ε}
    (h : ∀ t e u, Reaches step s t → step t e = some u → R t e u → R' t e u)
    (hal : Along step R s es) : Along step R' s es := by
  induction es generalizing s with
  | nil => trivial
  | cons e es ih =>
    intro t ht
    obtain ⟨hR, hrest⟩ := hal t ht
    have hreach : Reaches step s t := (Reaches.refl step s).snoc step ht
    exact ⟨h s e t (Reaches.refl step s) ht hR,
      ih (fun u f v hu hv => h u f v (hreach.trans step hu) hv) hrest⟩

/-- Conditions that agree on the steps that can be reached agree along every run. -/
theorem along_iff {R' : σ → ε → σ → Prop} {s : σ}
    (h : ∀ t e u, Reaches step s t → step t e = some u → (R t e u ↔ R' t e u)) (es : List ε) :
    Along step R s es ↔ Along step R' s es :=
  ⟨fun hal => hal.imp step fun t e u hr hst => (h t e u hr hst).1,
    fun hal => hal.imp step fun t e u hr hst => (h t e u hr hst).2⟩

/-- What steps that meet `R` preserve holds of all states of a run whose steps meet `R`. -/
theorem Along.invariant {P : σ → Prop} {s : σ} {es : List ε}
    (h : ∀ t e u, P t → step t e = some u → R t e u → P u) (hs : P s)
    (hal : Along step R s es) : Along step (fun _ _ t => P t) s es := by
  induction es generalizing s with
  | nil => trivial
  | cons e es ih =>
    intro t ht
    obtain ⟨hR, hrest⟩ := hal t ht
    have hP := h s e t hs ht hR
    exact ⟨hP, ih hP hrest⟩

theorem along_concat {s t u : σ} {e : ε} {es : List ε} (h : Along step R s (es ++ [e]))
    (hes : run step s es = some t) (he : step t e = some u) : Along step R s es ∧ R t e u := by
  induction es generalizing s with
  | nil =>
    obtain rfl : s = t := by simpa using hes
    exact ⟨trivial, (h u he).1⟩
  | cons f es ih =>
    obtain ⟨v, hv, hvt⟩ := (run_cons_eq_some step).1 hes
    obtain ⟨hR, hal⟩ := h v hv
    refine ⟨fun w hw => ?_, (ih hal hvt).2⟩
    obtain rfl : v = w := Option.some.inj (hv.symm.trans hw)
    exact ⟨hR, (ih hal hvt).1⟩

/-- Induction along a run whose steps meet `R`, on what is known of the events so far and of the
state they lead to. -/
theorem along_induction {s : σ} {P : List ε → σ → Prop} (hs : P [] s)
    (hstep : ∀ es t e u, run step s es = some t → P es t → step t e = some u → R t e u →
      P (es ++ [e]) u)
    {t : σ} {es : List ε} (hrun : run step s es = some t) (hal : Along step R s es) : P es t := by
  induction es using List.reverseRecOn generalizing t with
  | nil =>
    obtain rfl : s = t := by simpa using hrun
    exact hs
  | append_singleton es e ih =>
    obtain ⟨u, hu, ht⟩ := (run_concat_eq_some step).1 hrun
    obtain ⟨hal, hR⟩ := along_concat step hal hu ht
    exact hstep es u e t hu (ih hu hal) ht hR

end Runs
