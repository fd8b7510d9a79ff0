import WawaServer.Lib.Runs

/-!
# Machines at two levels

What one machine does in several steps, or in none, another machine may do in one. `events` tells
which events of the upper machine a step of the lower one stands for, and `view` how the upper one
sees a state. If the upper machine can follow every step (`Simulates`) it can follow every run, and
if the lower one can carry out every step (`Realizes`) it can carry out every run.
-/

namespace Runs

variable {σ ε τ δ : Type*} (step : σ → ε → Option σ) (step' : τ → δ → Option τ)
  (events : σ → ε → List δ) (view : σ → τ) (R : σ → ε → σ → Prop)

/-- The events of a run, as the upper machine has them. -/
def trace : σ → List ε → List δ
  | _, [] => []
  | s, e :: es => events s e ++ (step s e).elim [] fun t => trace t es

variable {step step' events view R} {I : σ → Prop} {s t : σ} {e : ε} {es fs : List ε}

theorem trace_cons (h : step s e = some t) :
    trace step events s (e :: es) = events s e ++ trace step events t es := by
  rw [trace, h, Option.elim_some]

theorem trace_append (h : run step s es = some t) :
    trace step events s (es ++ fs) = trace step events s es ++ trace step events t fs := by
  induction es generalizing s with
  | nil =>
    obtain rfl : s = t := by simpa using h
    rfl
  | cons e es ih =>
    obtain ⟨u, hu, ht⟩ := (run_cons_eq_some step).1 h
    rw [List.cons_append, trace_cons hu, trace_cons hu, ih ht, List.append_assoc]

theorem along_append (h : run step s es = some t) (hes : Along step R s es)
    (hfs : Along step R t fs) : Along step R s (es ++ fs) := by
  induction es generalizing s with
  | nil =>
    obtain rfl : s = t := by simpa using h
    exact hfs
  | cons e es ih =>
    obtain ⟨u, hu, ht⟩ := (run_cons_eq_some step).1 h
    intro v hv
    obtain rfl : u = v := Option.some.inj (hu.symm.trans hv)
    exact ⟨(hes u hu).1, ih ht (hes u hu).2⟩

/-- Events that do nothing can be left out. -/
theorem run_filter {p : ε → Bool} (hI : ∀ {s e t}, I s → step s e = some t → I t)
    (hp : ∀ e ∈ es, p e = false → ∀ {s t}, I s → step s e = some t → t = s) (hs : I s)
    (h : run step s es = some t) : run step s (es.filter p) = some t := by
  induction es generalizing s with
  | nil => exact h
  | cons e es ih =>
    obtain ⟨u, hu, ht⟩ := (run_cons_eq_some step).1 h
    have hrest := ih (fun f hf => hp f (List.mem_cons_of_mem e hf)) (hI hs hu) ht
    cases hpe : p e with
    | true =>
      rw [List.filter_cons_of_pos hpe, run_cons_eq_some]
      exact ⟨u, hu, hrest⟩
    | false =>
      obtain rfl := hp e List.mem_cons_self hpe hs hu
      rwa [List.filter_cons_of_neg (by simp [hpe])]

variable (step step' events view R I)

/-- The upper machine can follow the steps that meet `R`. -/
structure Simulates : Prop where
  keeps : ∀ {s e t}, I s → step s e = some t → R s e t → I t
  follows : ∀ {s e t}, I s → step s e = some t → R s e t →
    run step' (view s) (events s e) = some (view t)

/-- The lower machine can carry out the steps of the upper one, in steps that meet `R`. -/
def Realizes : Prop :=
  ∀ {s d u}, I s → step' (view s) d = some u → ∃ es t, run step s es = some t ∧
    Along step R s es ∧ trace step events s es = [d] ∧ view t = u ∧ I t

variable {step step' events view R I}

theorem Simulates.run (h : Simulates step step' events view R I) (hs : I s)
    (hrun : Runs.run step s es = some t) (hal : Along step R s es) :
    Runs.run step' (view s) (trace step events s es) = some (view t) ∧ I t := by
  induction es generalizing s with
  | nil =>
    obtain rfl : s = t := by simpa using hrun
    exact ⟨rfl, hs⟩
  | cons e es ih =>
    obtain ⟨u, hu, ht⟩ := (run_cons_eq_some step).1 hrun
    obtain ⟨hR, hal⟩ := hal u hu
    obtain ⟨hrest, hI⟩ := ih (h.keeps hs hu hR) ht hal
    refine ⟨?_, hI⟩
    rw [trace_cons hu, run_append_eq_some]
    exact ⟨view u, h.follows hs hu hR, hrest⟩

theorem Realizes.run (h : Realizes step step' events view R I) {ds : List δ} {u : τ} (hs : I s)
    (hrun : Runs.run step' (view s) ds = some u) : ∃ es t, Runs.run step s es = some t ∧
      Along step R s es ∧ trace step events s es = ds ∧ view t = u ∧ I t := by
  induction ds generalizing s with
  | nil =>
    obtain rfl : view s = u := by simpa using hrun
    exact ⟨[], s, rfl, trivial, rfl, rfl, hs⟩
  | cons d ds ih =>
    obtain ⟨v, hv, hu⟩ := (run_cons_eq_some step').1 hrun
    obtain ⟨es, t, hes, hal, htr, rfl, hI⟩ := h hs hv
    obtain ⟨fs, w, hfs, hal', htr', hw, hI'⟩ := ih hI hu
    refine ⟨es ++ fs, w, (run_append_eq_some step).2 ⟨t, hes, hfs⟩, along_append hes hal hal', ?_,
      hw, hI'⟩
    rw [trace_append hes, htr, htr']
    rfl

end Runs
