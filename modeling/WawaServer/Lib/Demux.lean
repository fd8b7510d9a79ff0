import Mathlib.Data.List.Basic
import Mathlib.Logic.Function.Basic

/-!
# A demultiplexer with one frame in hand

The specification of a relay from one source to many outputs. It takes a frame only when the one
before is written out, whichever output that was for. So each output gets the frames that are for
it in their order, and nothing is missing anywhere but the end of the last frame of all.
-/

namespace Demux

variable {ι α : Type*} [DecidableEq ι]

/-- The frames of a log that are for `i`. -/
def framesOf (i : ι) (log : List (ι × List α)) : List (List α) :=
  (log.filter fun x => x.1 = i).map Prod.snd

/-- One more frame for `i`. -/
theorem framesOf_concat_self (i : ι) (log : List (ι × List α)) (f : List α) :
    framesOf i (log ++ [(i, f)]) = framesOf i log ++ [f] := by
  simp [framesOf]

/-- A frame for another output. -/
theorem framesOf_concat_of_ne {i j : ι} (h : i ≠ j) (log : List (ι × List α)) (f : List α) :
    framesOf j (log ++ [(i, f)]) = framesOf j log := by
  simp [framesOf, h]

end Demux

open Demux in
/-- `log` are the frames so far, `out` the bytes written, `rest` those in hand. -/
structure Demux (ι α : Type*) [DecidableEq ι] where
  log : List (ι × List α)
  out : ι → List α
  rest : ι → List α
  flatten_framesOf : ∀ i, (framesOf i log).flatten = out i ++ rest i
  rest_suffix : ∀ i, rest i ≠ [] → ∃ f, log.getLast? = some (i, f) ∧ rest i <:+ f

namespace Demux

variable {ι α : Type*} [DecidableEq ι] {q : Demux ι α} {i j : ι}

/-- At most one output has a frame in hand. -/
theorem eq_of_rest_ne_nil (hi : q.rest i ≠ []) (hj : q.rest j ≠ []) : i = j := by
  obtain ⟨f, hf, -⟩ := q.rest_suffix i hi
  obtain ⟨g, hg, -⟩ := q.rest_suffix j hj
  exact congrArg Prod.fst (Option.some.inj (hf.symm.trans hg))

/-- Nothing taken and nothing written. -/
def empty : Demux ι α where
  log := []
  out _ := []
  rest _ := []
  flatten_framesOf _ := rfl
  rest_suffix _ h := absurd rfl h

/-- Take the frame `f` for `i` and write its first `k` bytes. -/
def take (q : Demux ι α) (i : ι) (f : List α) (k : ℕ) (h : ∀ j, q.rest j = []) : Demux ι α where
  log := q.log ++ [(i, f)]
  out := Function.update q.out i (q.out i ++ f.take k)
  rest := Function.update q.rest i (f.drop k)
  flatten_framesOf j := by
    have hj := q.flatten_framesOf j
    by_cases hij : j = i
    · subst hij
      rw [framesOf_concat_self, List.flatten_append, hj, h j]
      simp
    · rw [framesOf_concat_of_ne (Ne.symm hij), hj]
      simp [hij]
  rest_suffix j hj := by
    by_cases hij : j = i
    · subst hij
      exact ⟨f, by simp, by simpa using List.drop_suffix k f⟩
    · simp [hij, h j] at hj

/-- Write `k` more bytes of the frame in hand for `i`. -/
def write (q : Demux ι α) (i : ι) (k : ℕ) : Demux ι α where
  log := q.log
  out := Function.update q.out i (q.out i ++ (q.rest i).take k)
  rest := Function.update q.rest i ((q.rest i).drop k)
  flatten_framesOf j := by
    have hj := q.flatten_framesOf j
    by_cases hij : j = i
    · subst hij
      simp [hj]
    · simp [hij, hj]
  rest_suffix j hj := by
    by_cases hij : j = i
    · subst hij
      rw [Function.update_self] at hj ⊢
      obtain ⟨f, hf, hsuf⟩ := q.rest_suffix j fun hnil => hj (by simp [hnil])
      exact ⟨f, hf, (List.drop_suffix k _).trans hsuf⟩
    · rw [Function.update_of_ne hij] at hj ⊢
      exact q.rest_suffix j hj

section Lemmas
variable (f : List α) (k : ℕ) (h : ∀ j, q.rest j = [])

@[simp] theorem take_log : (q.take i f k h).log = q.log ++ [(i, f)] := rfl

/-- The output of the frame grows by what is written of it. -/
@[simp] theorem take_out_self : (q.take i f k h).out i = q.out i ++ f.take k :=
  Function.update_self ..

/-- What is not written is in hand. -/
@[simp] theorem take_rest_self : (q.take i f k h).rest i = f.drop k := Function.update_self ..

@[simp] theorem write_out_self : (q.write i k).out i = q.out i ++ (q.rest i).take k :=
  Function.update_self ..

@[simp] theorem write_rest_self : (q.write i k).rest i = (q.rest i).drop k :=
  Function.update_self ..

variable {f k h}

/-- The other outputs stay as they are. -/
theorem take_out_of_ne (hij : j ≠ i) : (q.take i f k h).out j = q.out j :=
  Function.update_of_ne hij ..

theorem take_rest_of_ne (hij : j ≠ i) : (q.take i f k h).rest j = q.rest j :=
  Function.update_of_ne hij ..

/-- Writing is to one output. -/
theorem write_out_of_ne (hij : j ≠ i) : (q.write i k).out j = q.out j :=
  Function.update_of_ne hij ..

theorem write_rest_of_ne (hij : j ≠ i) : (q.write i k).rest j = q.rest j :=
  Function.update_of_ne hij ..

end Lemmas

end Demux
