import Mathlib.Data.List.Basic

/-!
# Loops that leave from the middle

The body of a `while (1)` goes on with a new state, leaves with a result, or waits for something
that does not come. `run` bounds the rounds. `run_total` is the rule for total correctness: an
invariant, and a measure that every round decreases.
-/

namespace Loop

variable {α σ ρ : Type*} {body : σ → Option (σ ⊕ ρ)} {s t : σ} {n : ℕ}

/-- The result of at most `n` rounds. -/
def run (body : σ → Option (σ ⊕ ρ)) : ℕ → σ → Option ρ
  | 0, _ => none
  | n + 1, s =>
    match body s with
    | none => none
    | some (.inl t) => run body n t
    | some (.inr r) => some r

/-- The state after `n` rounds, none of which leaves. -/
def rounds (body : σ → Option (σ ⊕ ρ)) : ℕ → σ → Option σ
  | 0, s => some s
  | n + 1, s =>
    match body s with
    | none => none
    | some (.inl t) => rounds body n t
    | some (.inr _) => none

theorem run_of_inl (h : body s = some (.inl t)) (n : ℕ) : run body (n + 1) s = run body n t := by
  rw [run, h]

theorem run_of_inr {r : ρ} (h : body s = some (.inr r)) (n : ℕ) :
    run body (n + 1) s = some r := by
  rw [run, h]

theorem run_of_none (h : body s = none) (n : ℕ) : run body n s = none := by
  cases n with
  | zero => rfl
  | succ n => rw [run, h]

theorem rounds_of_inl (h : body s = some (.inl t)) (n : ℕ) :
    rounds body (n + 1) s = rounds body n t := by
  rw [rounds, h]

/-- A loop that has reached a state where it waits never leaves. -/
theorem run_eq_none (h : rounds body n s = some t) (ht : body t = none) (m : ℕ) :
    run body m s = none := by
  induction n generalizing s m with
  | zero =>
    obtain rfl : s = t := Option.some.inj h
    exact run_of_none ht m
  | succ n ih =>
    rw [rounds] at h
    split at h
    · cases h
    · rename_i u hu
      cases m with
      | zero => rfl
      | succ m => rw [run_of_inl hu, ih h]
    · cases h

/-- A loop none of whose rounds leaves while they keep an invariant never leaves. -/
theorem run_eq_none_of_keeps (I : σ → Prop)
    (hbody : ∀ s, I s → body s = none ∨ ∃ t, body s = some (.inl t) ∧ I t) (hs : I s) (n : ℕ) :
    run body n s = none := by
  induction n generalizing s with
  | zero => rfl
  | succ n ih =>
    rcases hbody s hs with hnone | ⟨t, ht, hI⟩
    · exact run_of_none hnone _
    · rw [run_of_inl ht]
      exact ih hI

/-- A loop whose rounds keep an invariant and decrease a measure until one leaves as it should,
leaves as it should. -/
theorem run_total (body : σ → Option (σ ⊕ ρ)) (I : σ → Prop) (Q : ρ → Prop) (m : σ → ℕ)
    (hbody : ∀ s, I s → (∃ t, body s = some (.inl t) ∧ I t ∧ m t < m s) ∨
      ∃ r, body s = some (.inr r) ∧ Q r)
    (hs : I s) (hn : m s < n) : ∃ r, run body n s = some r ∧ Q r := by
  induction n generalizing s with
  | zero => exact absurd hn (Nat.not_lt_zero _)
  | succ n ih =>
    rcases hbody s hs with ⟨t, ht, hI, hm⟩ | ⟨r, hr, hQ⟩
    · obtain ⟨r, hr, hQ⟩ := ih hI (by omega)
      exact ⟨r, (run_of_inl ht n).trans hr, hQ⟩
    · exact ⟨r, run_of_inr hr n, hQ⟩

/-- A loop that leaves under one bound leaves with the same result under a larger one. -/
theorem run_mono {r : ρ} (h : run body n s = some r) {m : ℕ} (hm : n ≤ m) :
    run body m s = some r := by
  induction n generalizing s m with
  | zero => cases h
  | succ n ih =>
    obtain ⟨m, rfl⟩ : ∃ k, m = k + 1 := ⟨m - 1, by omega⟩
    rw [run] at h ⊢
    split at h
    · cases h
    · exact ih h (by omega)
    · exact h

/-- The bound does not decide the result. -/
theorem run_unique {m : ℕ} {r r' : ρ} (h : run body n s = some r) (h' : run body m s = some r') :
    r = r' := by
  have hn := run_mono h (Nat.le_max_left n m)
  have hm := run_mono h' (Nat.le_max_right n m)
  exact Option.some.inj (hn.symm.trans hm)

/-- What every round that goes on keeps holds after any number of them. -/
theorem rounds_keeps (I : σ → Prop) (hinl : ∀ s t, I s → body s = some (.inl t) → I t) (hs : I s)
    (h : rounds body n s = some t) : I t := by
  induction n generalizing s with
  | zero =>
    obtain rfl : s = t := Option.some.inj h
    exact hs
  | succ n ih =>
    rw [rounds] at h
    split at h
    · cases h
    · rename_i u hu
      exact ih (hinl s u hs hu) h
    · cases h

/-- What every round keeps, whichever way it ends, holds of the result. -/
theorem run_keeps (I : σ → Prop) (Q : ρ → Prop)
    (hinl : ∀ s t, I s → body s = some (.inl t) → I t)
    (hinr : ∀ s r, I s → body s = some (.inr r) → Q r) (hs : I s) {r : ρ}
    (h : run body n s = some r) : Q r := by
  induction n generalizing s with
  | zero => cases h
  | succ n ih =>
    rw [run] at h
    split at h
    · cases h
    · rename_i t ht
      exact ih (hinl s t hs ht) h
    · rename_i u hu
      obtain rfl : u = r := Option.some.inj h
      exact hinr s u hs hu

/-- A loop whose rounds each write one item to a log writes those of the states that it reaches. -/
theorem run_logs (body : σ → Option (σ ⊕ ρ)) (item : σ → α) (log : σ → List α) (out : ρ → List α)
    (hinl : ∀ s t, body s = some (.inl t) → log t = log s ++ [item s])
    (hinr : ∀ s r, body s = some (.inr r) → out r = log s ++ [item s]) {r : ρ}
    (h : run body n s = some r) : ∃ xs, out r = log s ++ xs ∧
      ∀ x, x ∈ xs ↔ ∃ m t, rounds body m s = some t ∧ x = item t := by
  induction n generalizing s with
  | zero => cases h
  | succ n ih =>
    rw [run] at h
    split at h
    · cases h
    · rename_i u hu
      obtain ⟨xs, hxs, hmem⟩ := ih h
      refine ⟨item s :: xs, by simp [hxs, hinl s u hu], fun x => ?_⟩
      rw [List.mem_cons, hmem]
      constructor
      · rintro (hx | ⟨m, t, ht, hx⟩)
        · exact ⟨0, s, rfl, hx⟩
        · exact ⟨m + 1, t, (rounds_of_inl hu m).trans ht, hx⟩
      · rintro ⟨m, t, ht, hx⟩
        cases m with
        | zero =>
          obtain rfl : s = t := Option.some.inj ht
          exact .inl hx
        | succ m => exact .inr ⟨m, t, (rounds_of_inl hu m).symm.trans ht, hx⟩
    · rename_i q hq
      obtain rfl : q = r := Option.some.inj h
      refine ⟨[item s], hinr s q hq, fun x => ?_⟩
      rw [List.mem_singleton]
      constructor
      · intro hx
        exact ⟨0, s, rfl, hx⟩
      · rintro ⟨m, t, ht, hx⟩
        cases m with
        | zero =>
          obtain rfl : s = t := Option.some.inj ht
          exact hx
        | succ m =>
          rw [rounds, hq] at ht
          cases ht

/-- A loop that takes one item of a list in each round takes them all. -/
theorem rounds_of_each (body : σ → Option (σ ⊕ ρ)) (P : List α → σ → Prop)
    (hbody : ∀ x xs s, P (x :: xs) s → ∃ t, body s = some (.inl t) ∧ P xs t) {xs : List α}
    (hs : P xs s) : ∃ t, rounds body xs.length s = some t ∧ P [] t := by
  induction xs generalizing s with
  | nil => exact ⟨s, rfl, hs⟩
  | cons x xs ih =>
    obtain ⟨u, hu, hP⟩ := hbody x xs s hs
    obtain ⟨t, ht, hP'⟩ := ih hP
    exact ⟨t, (rounds_of_inl hu _).trans ht, hP'⟩

/-- A loop that takes one frame of its input in each round, and waits while the next one is not
complete: of the frames of `xs` it takes those that are there. -/
theorem rounds_of_prefix {ι β : Type*} (body : σ → Option (σ ⊕ ρ)) (input : σ → List α)
    (out : σ → List β) (frame : ι → List α) (data : ι → List β) (xs : List ι) (part : List α)
    (hwhole : ∀ x ∈ xs, ∀ s rest, input s = frame x ++ rest →
      ∃ t, body s = some (.inl t) ∧ input t = rest ∧ out t = out s ++ data x)
    (hpart : ∀ x ∈ xs, ∀ s, input s <+: frame x → (input s).length < (frame x).length →
      body s = none)
    (hrest : ∀ s, input s <+: part → body s = none)
    (hs : input s <+: (xs.map frame).flatten ++ part) :
    ∃ n t, rounds body n s = some t ∧ body t = none ∧
      out t = out s ++ ((xs.take n).map data).flatten ∧
      ((xs.map frame).flatten <+: input s → n = xs.length) := by
  induction xs generalizing s with
  | nil => exact ⟨0, s, rfl, hrest s (by simpa using hs), by simp, fun _ => rfl⟩
  | cons x xs ih =>
    rw [List.map_cons, List.flatten_cons, List.append_assoc] at hs
    rw [List.map_cons, List.flatten_cons]
    by_cases hlt : (input s).length < (frame x).length
    · have hpre := List.prefix_of_prefix_length_le hs (List.prefix_append _ _)
        (Nat.le_of_lt hlt)
      refine ⟨0, s, rfl, hpart x List.mem_cons_self s hpre hlt, by simp, fun hall => ?_⟩
      have hle := hall.length_le
      rw [List.length_append] at hle
      omega
    · obtain ⟨rest, hrest'⟩ :=
        List.prefix_of_prefix_length_le (List.prefix_append _ _) hs (Nat.le_of_not_lt hlt)
      obtain ⟨u, hu, hin, hout⟩ := hwhole x List.mem_cons_self s rest hrest'.symm
      rw [← hrest', List.prefix_append_right_inj, ← hin] at hs
      obtain ⟨n, t, ht, hwait, hdata, hall⟩ :=
        ih (fun y hy => hwhole y (List.mem_cons_of_mem x hy))
          (fun y hy => hpart y (List.mem_cons_of_mem x hy)) hs
      refine ⟨n + 1, t, (rounds_of_inl hu n).trans ht, hwait, ?_, fun hpre => ?_⟩
      · rw [hdata, hout]
        simp
      · rw [← hrest', List.prefix_append_right_inj, ← hin] at hpre
        rw [hall hpre, List.length_cons]

/-- A loop that takes one frame of its input in each round, unless it leaves at one that it refuses.
`P xs` holds when it has taken the frames of `xs`: it takes those that are there, and then it waits
or has left. -/
theorem rounds_of_frames {ι : Type*} (body : σ → Option (σ ⊕ ρ)) (input : σ → List α)
    (frame : ι → List α) (P : List ι → σ → Prop) (Q : List ι → σ → ι → ρ → Prop)
    (done xs : List ι) (part : List α)
    (hwhole : ∀ done, ∀ x ∈ xs, ∀ s rest, P done s → input s = frame x ++ rest →
      (∃ t, body s = some (.inl t) ∧ input t = rest ∧ P (done ++ [x]) t) ∨
        ∃ r, body s = some (.inr r) ∧ Q done s x r)
    (hpart : ∀ x ∈ xs, ∀ s, input s <+: frame x → (input s).length < (frame x).length →
      body s = none)
    (hrest : ∀ s, input s <+: part → body s = none)
    (hP : P done s) (hs : input s <+: (xs.map frame).flatten ++ part) :
    ∃ n t, rounds body n s = some t ∧ P (done ++ xs.take n) t ∧ n ≤ xs.length ∧
      (body t = none ∧ ((xs.map frame).flatten <+: input s → n = xs.length) ∨
        ∃ x r, xs[n]? = some x ∧ body t = some (.inr r) ∧ Q (done ++ xs.take n) t x r) := by
  induction xs generalizing s done with
  | nil =>
    refine ⟨0, s, rfl, ?_, Nat.le_refl _, .inl ⟨hrest s (by simpa using hs), fun _ => rfl⟩⟩
    simpa using hP
  | cons x xs ih =>
    rw [List.map_cons, List.flatten_cons, List.append_assoc] at hs
    rw [List.map_cons, List.flatten_cons]
    by_cases hlt : (input s).length < (frame x).length
    · have hpre := List.prefix_of_prefix_length_le hs (List.prefix_append _ _)
        (Nat.le_of_lt hlt)
      refine ⟨0, s, rfl, by simpa using hP, Nat.zero_le _,
        .inl ⟨hpart x List.mem_cons_self s hpre hlt, fun hall => ?_⟩⟩
      have hle := hall.length_le
      rw [List.length_append] at hle
      omega
    · obtain ⟨rest, hrest'⟩ :=
        List.prefix_of_prefix_length_le (List.prefix_append _ _) hs (Nat.le_of_not_lt hlt)
      rcases hwhole done x List.mem_cons_self s rest hP hrest'.symm with
        ⟨u, hu, hin, hPu⟩ | ⟨r, hr, hQ⟩
      · rw [← hrest', List.prefix_append_right_inj, ← hin] at hs
        obtain ⟨n, t, ht, hPt, hn, hend⟩ :=
          ih (done ++ [x]) (fun done y hy => hwhole done y (List.mem_cons_of_mem x hy))
            (fun y hy => hpart y (List.mem_cons_of_mem x hy)) hPu hs
        rw [List.append_assoc, List.singleton_append] at hPt hend
        refine ⟨n + 1, t, (rounds_of_inl hu n).trans ht, hPt, Nat.succ_le_succ hn, ?_⟩
        refine hend.imp (fun hwait => ⟨hwait.1, fun hpre => ?_⟩) id
        rw [← hrest', List.prefix_append_right_inj, ← hin] at hpre
        rw [hwait.2 hpre, List.length_cons]
      · exact ⟨0, s, rfl, by simpa using hP, Nat.zero_le _,
          .inr ⟨x, r, rfl, hr, by simpa using hQ⟩⟩

end Loop
