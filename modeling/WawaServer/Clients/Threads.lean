import WawaServer.Clients.Process
import WawaServer.Handler

/-!
# Camera threads

`main` creates a thread for every START and never joins one. A RESTART stops the thread through
`camera_status`, but the next START sets it back, and whether the thread saw it depends on the
schedule. So no two threads are in `camera_thread` exactly where each is created after all threads
before it have ended.
-/

namespace WawaServer
namespace Raspi
namespace Process

variable {s t : Process} {i j : ℕ} {e : ThreadEvent}

/-! ## Steps -/

theorem step_thread : s.step (.thread i e) = some t ↔ ∃ x y ps, s.threads[i]? = some x ∧
    x.next s.status s.remotefd e = some (y, ps) ∧
      t = { s with threads := s.threads.set i y, pkgs := s.pkgs ++ ps } := by
  simp only [step]
  constructor
  · intro h
    split at h
    · cases h
    · rename_i x hx
      split at h
      · cases h
      · rename_i y ps hy
        exact ⟨x, y, ps, hx, hy, (Option.some.inj h).symm⟩
  · rintro ⟨x, y, ps, hx, hy, rfl⟩
    simp only [hx, hy]

/-- What a step of `main` does to the threads: nothing, or it ends them all, or creates one. -/
inductive MainStep (s : Process) (e : ProcessEvent) (t : Process) : Prop
  | same (h : t.threads = s.threads)
  | returned (h : t.threads = [])
  | created (he : e = .create true) (h : t.threads = s.threads ++ [.created])

theorem received_threads (s : Process) (recvpkg : Option Pkg) :
    (s.received recvpkg).threads = s.threads ∨ (s.received recvpkg).threads = [] := by
  cases recvpkg with
  | none => exact .inr rfl
  | some recvpkg =>
    left
    simp only [received]
    split
    · rfl
    · split
      · rfl
      · rfl

theorem received_pkgs (s : Process) (recvpkg : Option Pkg) :
    (s.received recvpkg).pkgs = s.pkgs := by
  cases recvpkg with
  | none => rfl
  | some recvpkg =>
    simp only [received]
    split
    · rfl
    · split
      · rfl
      · rfl

/-- A step is one of a thread, or one of `main`, which sends no packet. -/
theorem step_cases {e : ProcessEvent} (h : s.step e = some t) :
    (∃ i e', e = .thread i e') ∨
      (∀ i e', e ≠ .thread i e') ∧ t.pkgs = s.pkgs ∧ MainStep s e t := by
  cases e with
  | recv recvpkg =>
    simp only [Process.step] at h
    split at h
    · cases h
      refine .inr ⟨(fun _ _ he => by cases he), received_pkgs s recvpkg, ?_⟩
      exact (received_threads s recvpkg).elim .same .returned
    · cases h
  | assign =>
    simp only [Process.step] at h
    split at h
    · cases h
      exact .inr ⟨(fun _ _ he => by cases he), rfl, .same rfl⟩
    · cases h
  | create ok =>
    simp only [Process.step] at h
    split at h
    · cases h
      refine .inr ⟨(fun _ _ he => by cases he), rfl, ?_⟩
      cases ok with
      | false => exact .same rfl
      | true => exact .created rfl rfl
    · cases h
  | thread i e => exact .inl ⟨i, e, rfl⟩

/-- A thread that has ended takes no step. -/
theorem next_ended (status : CameraStatus) (remotefd : ℕ) (e : ThreadEvent) :
    ThreadAt.ended.next status remotefd e = none := by
  cases e <;> rfl

/-- A step of a thread moves no other one. -/
theorem step_thread_others (h : s.step (.thread i e) = some t) (hij : j ≠ i) :
    t.threads[j]? = s.threads[j]? := by
  obtain ⟨x, y, ps, -, -, rfl⟩ := step_thread.1 h
  exact List.getElem?_set_ne hij.symm

/-! ## Threads that have not ended -/

/-- The thread `i` is between `init_camera` and the end of `camera_thread`. -/
def Inside (s : Process) (i : ℕ) : Prop := ∃ x, s.threads[i]? = some x ∧ x.Inside

/-- At most one thread is. -/
def OneCamera (s : Process) : Prop := ∀ i j, s.Inside i → s.Inside j → i = j

/-- The thread `i` was created and has not ended. -/
def Unended (s : Process) (i : ℕ) : Prop := ∃ x, s.threads[i]? = some x ∧ x ≠ .ended

def OneUnended (s : Process) : Prop := ∀ i j, s.Unended i → s.Unended j → i = j

theorem Inside.unended (h : s.Inside i) : s.Unended i := by
  obtain ⟨x, hx, hin⟩ := h
  refine ⟨x, hx, ?_⟩
  rintro rfl
  exact hin

theorem OneUnended.oneCamera (h : s.OneUnended) : s.OneCamera :=
  fun i j hi hj => h i j hi.unended hj.unended

/-- No step of a thread brings one back. -/
theorem unended_of_step_thread (h : s.step (.thread i e) = some t) (hj : t.Unended j) :
    s.Unended j := by
  by_cases hij : j = i
  · obtain ⟨x, y, ps, hx, hy, -⟩ := step_thread.1 h
    refine ⟨x, hij ▸ hx, ?_⟩
    rintro rfl
    rw [next_ended] at hy
    cases hy
  · obtain ⟨x, hx, hne⟩ := hj
    exact ⟨x, (step_thread_others h hij).symm.trans hx, hne⟩

theorem OneUnended.step_thread (h : s.OneUnended) (hst : s.step (.thread i e) = some t) :
    t.OneUnended :=
  fun j k hj hk => h j k (unended_of_step_thread hst hj) (unended_of_step_thread hst hk)

/-- A thread that has not ended is inside, or gets there alone. -/
theorem Unended.exists_inside (h : s.Unended i) : ∃ fs t,
    (∀ f ∈ fs, ∃ i e, f = ProcessEvent.thread i e) ∧ Runs.run step s fs = some t ∧ t.Inside i ∧
      ∀ j, j ≠ i → t.threads[j]? = s.threads[j]? := by
  obtain ⟨x, hx, hne⟩ := h
  cases x with
  | created =>
    have hst : s.step (.thread i .initCamera) =
        some { s with threads := s.threads.set i .testing, pkgs := s.pkgs ++ [] } :=
      Process.step_thread.2 ⟨_, _, _, hx, rfl, rfl⟩
    refine ⟨[.thread i .initCamera], _, ?_, (Runs.run_cons_eq_some step).2 ⟨_, hst, rfl⟩,
      ⟨.testing, ?_, trivial⟩, fun j hj => step_thread_others hst hj⟩
    · intro f hf
      exact ⟨i, .initCamera, List.mem_singleton.1 hf⟩
    · obtain ⟨hlt, -⟩ := List.getElem?_eq_some_iff.1 hx
      exact List.getElem?_set_self hlt
  | ended => exact absurd rfl hne
  | _ => exact ⟨[], s, by simp, rfl, ⟨_, hx, trivial⟩, fun _ _ => rfl⟩

/-- However its threads go on, at most one of them is between `init_camera` and the end of
`camera_thread`. -/
def Safe (s : Process) : Prop := ∀ fs t, (∀ f ∈ fs, ∃ i e, f = ProcessEvent.thread i e) →
  Runs.run step s fs = some t → t.OneCamera

theorem OneUnended.safe (h : s.OneUnended) : s.Safe := by
  intro fs
  induction fs generalizing s with
  | nil =>
    intro t _ hrun
    obtain rfl : s = t := Option.some.inj hrun
    exact h.oneCamera
  | cons f fs ih =>
    intro t hfs hrun
    obtain ⟨i, e, rfl⟩ := hfs f List.mem_cons_self
    obtain ⟨u, hu, hut⟩ := (Runs.run_cons_eq_some step).1 hrun
    exact ih (h.step_thread hu) t (fun g hg => hfs g (List.mem_cons_of_mem _ hg)) hut

/-- Two threads that have not ended can both be inside. -/
theorem Safe.oneUnended (h : s.Safe) : s.OneUnended := by
  intro i j hi hj
  by_contra hij
  obtain ⟨fs, t, hfs, ht, hin, hothers⟩ := hi.exists_inside
  have hj' : t.Unended j := by
    obtain ⟨x, hx, hne⟩ := hj
    exact ⟨x, (hothers j (Ne.symm hij)).trans hx, hne⟩
  obtain ⟨gs, u, hgs, hu, hin', hothers'⟩ := hj'.exists_inside
  have hini : u.Inside i := by
    obtain ⟨x, hx, hx'⟩ := hin
    exact ⟨x, (hothers' i hij).trans hx, hx'⟩
  refine hij (h (fs ++ gs) u ?_ ((Runs.run_append_eq_some step).2 ⟨t, ht, hu⟩) i j hini hin')
  intro f hf
  exact (List.mem_append.1 hf).elim (hfs f) (hgs f)

/-! ## Whole runs -/

/-- A thread is created after all threads before it have ended. -/
def CreatesAlone (s : Process) (e : ProcessEvent) (_ : Process) : Prop :=
  e = .create true → ∀ i, ¬ s.Unended i

theorem OneUnended.step (h : s.OneUnended) {e : ProcessEvent} (hst : s.step e = some t)
    (he : CreatesAlone s e t) : t.OneUnended := by
  rcases step_cases hst with ⟨i, e', rfl⟩ | ⟨-, -, hmain⟩
  · exact h.step_thread hst
  · cases hmain with
    | same hthreads =>
      unfold OneUnended Unended
      rw [hthreads]
      exact h
    | returned hthreads =>
      rintro i j ⟨x, hx, -⟩
      rw [hthreads] at hx
      cases hx
    | created hcreate hthreads =>
      -- only the new thread has not ended
      have hlast : ∀ i, t.Unended i → i = s.threads.length := by
        rintro i ⟨x, hx, hne⟩
        rw [hthreads] at hx
        by_contra hi
        have hlt : i < s.threads.length := by
          obtain ⟨hlt, -⟩ := List.getElem?_eq_some_iff.1 hx
          rw [List.length_append, List.length_singleton] at hlt
          omega
        exact he hcreate i ⟨x, (List.getElem?_append_left hlt).symm.trans hx, hne⟩
      intro i j hi hj
      rw [hlast i hi, hlast j hj]

/-- Where a second thread is created beside one that has not ended, both can be inside. -/
theorem createsAlone_of_oneUnended {e : ProcessEvent} (hst : s.step e = some t)
    (h : t.OneUnended) : CreatesAlone s e t := by
  rintro rfl i ⟨x, hx, hne⟩
  simp only [Process.step] at hst
  split at hst
  · cases hst
    obtain ⟨hlt, -⟩ := List.getElem?_eq_some_iff.1 hx
    have hold : Unended { s with main := .receiving, threads := s.threads ++ [.created] } i :=
      ⟨x, (List.getElem?_append_left hlt).trans hx, hne⟩
    have hnew : Unended { s with main := .receiving, threads := s.threads ++ [.created] }
        s.threads.length := by
      refine ⟨.created, ?_, nofun⟩
      rw [List.getElem?_append_right le_rfl, Nat.sub_self]
      rfl
    exact absurd (h i _ hold hnew) hlt.ne
  · cases hst

/-- All along a run at most one thread is, and can come to be, between `init_camera` and the end of
`camera_thread`, exactly if every thread is created after all threads before it have ended. -/
theorem one_camera (es : List ProcessEvent) :
    Runs.Along step (fun _ _ t => t.Safe) boot es ↔ Runs.Along step CreatesAlone boot es := by
  have hboot : boot.OneUnended := by
    rintro i j ⟨x, hx, -⟩
    cases hx
  constructor
  · intro hal
    exact hal.imp step fun s e t _ hst hsafe => createsAlone_of_oneUnended hst hsafe.oneUnended
  · intro hal
    exact (hal.invariant step (fun s e t hs hst he => hs.step hst he) hboot).imp step
      fun s e t _ _ hone => hone.safe

/-- A viewer leaves and the next one comes before the thread tests `camera_status` again. -/
def restarted : List ProcessEvent :=
  [.recv (some (Server.startNtf Pkg.construct 6)), .assign, .create true,
    .thread 0 .initCamera, .thread 0 .test,
    .recv (some (Server.restartPkg 5)),
    .recv (some (Server.startNtf Pkg.construct 7)), .assign, .create true,
    .thread 1 .initCamera, .thread 0 .again, .thread 0 .test]

theorem two_cameras : ¬ ∀ es t, Runs.run step boot es = some t → t.OneCamera := by
  intro h
  have hboth : ∃ t, Runs.run step boot restarted = some t ∧ t.Inside 0 ∧ t.Inside 1 :=
    ⟨_, rfl, ⟨_, rfl, trivial⟩, ⟨_, rfl, trivial⟩⟩
  obtain ⟨t, ht, h0, h1⟩ := hboth
  cases h restarted t ht 0 1 h0 h1

end Process
end Raspi
end WawaServer
