import Mathlib.Data.List.Basic

/-!
# Streams of frames

A byte stream carries frames one after the other. `Whole F l` says that `l` is a concatenation
of frames for which `F` holds, and `Prefix F l` that `l` is a prefix of one, which is what has
been sent when the last frame is not finished.
-/

namespace Frames

variable {α : Type*} {F G : List α → Prop} {f l : List α}

def Whole (F : List α → Prop) (l : List α) : Prop :=
  ∃ fs : List (List α), (∀ f ∈ fs, F f) ∧ l = fs.flatten

def Prefix (F : List α → Prop) (l : List α) : Prop :=
  ∃ fs : List (List α), (∀ f ∈ fs, F f) ∧ l <+: fs.flatten

theorem Whole.nil : Whole F [] := ⟨[], nofun, rfl⟩

theorem Whole.mono (h : Whole F l) (hFG : ∀ f, F f → G f) : Whole G l := by
  obtain ⟨fs, hfs, rfl⟩ := h
  exact ⟨fs, fun f hf => hFG f (hfs f hf), rfl⟩

/-- One more frame. -/
theorem Whole.append (h : Whole F l) (hf : F f) : Whole F (l ++ f) := by
  obtain ⟨fs, hfs, rfl⟩ := h
  refine ⟨fs ++ [f], fun g hg => ?_, by simp⟩
  rcases List.mem_append.1 hg with hg | hg
  · exact hfs g hg
  · rw [List.mem_singleton.1 hg]; exact hf

theorem Whole.toPrefix (h : Whole F l) : Prefix F l := by
  obtain ⟨fs, hfs, rfl⟩ := h
  exact ⟨fs, hfs, List.prefix_rfl⟩

theorem Prefix.of_append {l' : List α} (h : Prefix F (l ++ l')) : Prefix F l := by
  obtain ⟨fs, hfs, hpre⟩ := h
  exact ⟨fs, hfs, (List.prefix_append l l').trans hpre⟩

/-- The beginning of one more frame. -/
theorem Whole.append_take (h : Whole F l) (hf : F f) (n : ℕ) : Prefix F (l ++ f.take n) := by
  have hall := (h.append hf).toPrefix
  rw [← List.take_append_drop n f, ← List.append_assoc] at hall
  exact hall.of_append

/-- What was sent begins with a frame. -/
theorem Prefix.exists_take {n : ℕ} (h : Prefix F l) (hn : 0 < n) (hl : n ≤ l.length)
    (hlen : ∀ f, F f → n ≤ f.length) : ∃ f, F f ∧ f.take n = l.take n := by
  obtain ⟨fs, hfs, hpre⟩ := h
  cases fs with
  | nil =>
    have hnil : l = [] := by simpa using hpre
    simp [hnil] at hl
    omega
  | cons f fs =>
    refine ⟨f, hfs f List.mem_cons_self, ?_⟩
    obtain ⟨r, hr⟩ := hpre
    have htake := congrArg (List.take n) hr
    rw [List.flatten_cons, List.take_append_of_le_length hl,
      List.take_append_of_le_length (hlen f (hfs f List.mem_cons_self))] at htake
    exact htake.symm

/-! ## Reading the frames back -/

/-- No frame is the beginning of another, and none is empty: frames can be told apart. -/
structure PrefixFree (F : List α → Prop) : Prop where
  eq : ∀ f g, F f → F g → f <+: g → f = g
  ne_nil : ¬ F []

/-- The frames at the beginning of a stream of frames are its first frames. -/
theorem PrefixFree.eq_take (hF : PrefixFree F) {fs gs : List (List α)} (hfs : ∀ f ∈ fs, F f)
    (hgs : ∀ g ∈ gs, F g) (h : fs.flatten ++ l <+: gs.flatten) :
    fs = gs.take fs.length ∧ l <+: (gs.drop fs.length).flatten := by
  induction fs generalizing gs with
  | nil => exact ⟨by simp, by simpa using h⟩
  | cons f fs ih =>
    have hf := hfs f List.mem_cons_self
    have hfh : f <+: gs.flatten := by
      refine List.IsPrefix.trans ?_ h
      rw [List.flatten_cons, List.append_assoc]
      exact List.prefix_append _ _
    cases gs with
    | nil =>
      have hnil : f = [] := by simpa using hfh
      exact absurd (hnil ▸ hf) hF.ne_nil
    | cons g gs =>
      have hg := hgs g List.mem_cons_self
      rw [List.flatten_cons] at hfh h
      have hfg : f = g := by
        rcases List.prefix_or_prefix_of_prefix hfh (List.prefix_append g gs.flatten) with hp | hp
        · exact hF.eq f g hf hg hp
        · exact (hF.eq g f hg hf hp).symm
      subst hfg
      rw [List.flatten_cons, List.append_assoc, List.prefix_append_right_inj] at h
      obtain ⟨htake, hrest⟩ := ih (fun x hx => hfs x (List.mem_cons_of_mem f hx))
        (fun x hx => hgs x (List.mem_cons_of_mem f hx)) h
      refine ⟨?_, hrest⟩
      rw [List.length_cons, List.take_succ_cons, ← htake]

/-- A beginning of a stream that holds no whole frame is a beginning of its first frame. -/
theorem prefix_head {gs : List (List α)} (h : l <+: gs.flatten) (hgs : ∀ g ∈ gs, ¬ g <+: l) :
    (gs = [] ∧ l = []) ∨ ∃ g gs', gs = g :: gs' ∧ l <+: g := by
  cases gs with
  | nil => exact .inl ⟨rfl, by simpa using h⟩
  | cons g gs =>
    refine .inr ⟨g, gs, rfl, ?_⟩
    rw [List.flatten_cons] at h
    rcases List.prefix_or_prefix_of_prefix h (List.prefix_append g gs.flatten) with hp | hp
    · exact hp
    · exact absurd hp (hgs g List.mem_cons_self)

end Frames
