import WawaServer.Clients.Pictures

/-!
# Stopping the camera

A RESTART sets `camera_status`, which a thread reads only between two pictures. Until the next START
no thread is created, and each thread sends what is left of its picture and at most one more
(`winds_down`).
-/

namespace WawaServer
namespace Raspi

variable {R fd i : ℕ} {x y : ThreadAt} {e : ThreadEvent} {ps : List Pkg}

/-- How many pictures a thread can encode before it tests `camera_status`. -/
def ThreadAt.credit : ThreadAt → ℕ
  | .looping => 1
  | .header _ _ _ _ => 1
  | _ => 0

theorem ThreadAt.credit_le (x : ThreadAt) : x.credit ≤ 1 := by
  unfold credit
  split <;> omega

/-- Once `camera_status` is `CAMERA_STOP`, the test leads out of the loop. -/
theorem next_credit (h : x.next .stop fd e = some (y, ps)) :
    y.credit + (e.encodes fd).length ≤ x.credit := by
  cases x with
  | looping =>
    cases e with
    | encodeDo encBuf =>
      simp only [ThreadAt.next] at h
      split at h
      · cases h
        exact le_rfl
      · cases h
        exact le_rfl
    | packGet pacBuf beyond =>
      cases h
      exact le_rfl
    | _ => cases h <;> exact Nat.zero_le 1
  | header pkg pacBuf beyond byteLeft =>
    cases e with
    | round ok =>
      simp only [ThreadAt.next] at h
      split at h
      · cases ok with
        | true =>
          cases h
          exact le_rfl
        | false =>
          cases h
          exact Nat.zero_le _
      · cases h
        exact le_rfl
    | _ => cases h
  | picture pkg encBuf byteLeft =>
    cases e with
    | round ok =>
      simp only [ThreadAt.next] at h
      split at h
      · cases ok with
        | true =>
          cases h
          exact le_rfl
        | false =>
          cases h
          exact le_rfl
      · cases h
        exact le_rfl
    | _ => cases h
  | testing =>
    cases e with
    | test =>
      cases h
      exact le_rfl
    | _ => cases h
  | _ => cases e <;> cases h <;> exact le_rfl

namespace Process

variable {s t u : Process} {ev : ProcessEvent} {es fs : List ProcessEvent}

/-! ## Steps after a RESTART -/

/-- `camera_status` is `CAMERA_STOP`, and `main` is not on its way to `pthread_create`. -/
structure Stopped (s : Process) : Prop where
  status : s.status = .stop
  main : s.main = .receiving ∨ s.main = .returned

/-- The event is no START. -/
def NoStart (ev : ProcessEvent) : Prop := ∀ ntf, ev = .recv (some ntf) → ¬ ntf.IsStart

/-- `main` creates the thread of a START before it receives a RESTART. -/
theorem stopped_of_run (h : Runs.run step boot es = some s) (hstop : s.status = .stop) :
    s.Stopped := by
  refine ⟨hstop, ?_⟩
  revert hstop
  refine Runs.run_invariant step (P := fun s => s.status = .stop → s.main = .receiving ∨
    s.main = .returned) ?_ h (fun _ => .inl rfl)
  intro s ev t hs hst hstop
  cases ev with
  | recv recvpkg =>
    simp only [step] at hst
    split at hst
    · rename_i hmain
      cases hst
      cases recvpkg with
      | none => exact .inr rfl
      | some recvpkg =>
        revert hstop
        simp only [received]
        split
        · exact fun _ => .inl hmain
        · split
          · intro hstop
            cases hstop
          · exact fun _ => .inl hmain
    · cases hst
  | assign =>
    simp only [step] at hst
    split at hst
    · rename_i r hmain
      cases hst
      rcases hs hstop with h | h
      · cases hmain.symm.trans h
      · cases hmain.symm.trans h
    · cases hst
  | create ok =>
    simp only [step] at hst
    split at hst
    · cases hst
      exact .inl rfl
    · cases hst
  | thread i e =>
    obtain ⟨x, y, ps, -, -, rfl⟩ := step_thread.1 hst
    exact hs hstop

/-- The state stays so, and `main` creates no thread. -/
theorem Stopped.step (h : s.Stopped) (hst : s.step ev = some t) (hno : NoStart ev) :
    t.Stopped ∧ ((∀ j e, ev ≠ .thread j e) → t.threads = s.threads ∨ t.threads = []) := by
  have hmain : ∀ r, s.main ≠ .assigning r ∧ s.main ≠ .creating := by
    intro r
    rcases h.main with hm | hm
    · simp [hm]
    · simp [hm]
  cases ev with
  | recv recvpkg =>
    simp only [Process.step] at hst
    split at hst
    · rename_i hrecv
      cases hst
      cases recvpkg with
      | none => exact ⟨⟨h.status, .inr rfl⟩, fun _ => .inr rfl⟩
      | some recvpkg =>
        simp only [received]
        split
        · exact ⟨⟨rfl, h.main⟩, fun _ => .inl rfl⟩
        · split
          · rename_i hstart
            exact absurd hstart (hno recvpkg rfl)
          · exact ⟨h, fun _ => .inl rfl⟩
    · cases hst
  | assign =>
    simp only [Process.step] at hst
    split at hst
    · rename_i r hm
      exact absurd hm (hmain r).1
    · cases hst
  | create ok =>
    simp only [Process.step] at hst
    split at hst
    · rename_i hm
      exact absurd hm (hmain 0).2
    · cases hst
  | thread i e =>
    obtain ⟨x, y, ps, -, -, rfl⟩ := step_thread.1 hst
    exact ⟨⟨h.status, h.main⟩, fun hev => absurd rfl (hev i e)⟩

/-- The credit of the thread `i`. -/
def credit (s : Process) (i : ℕ) : ℕ := (s.threads[i]?).elim 0 ThreadAt.credit

theorem credit_le (s : Process) (i : ℕ) : s.credit i ≤ 1 := by
  unfold credit
  cases s.threads[i]? with
  | none => exact Nat.zero_le _
  | some x => exact x.credit_le

theorem credit_eq (hx : s.threads[i]? = some x) : s.credit i = x.credit := by
  rw [credit, hx]
  rfl

theorem Stopped.step_credit (h : s.Stopped) (hst : s.step ev = some t) (hno : NoStart ev) (i : ℕ) :
    t.credit i + (s.encodesOf i ev).length ≤ s.credit i := by
  by_cases hev : ∃ j e, ev = .thread j e
  · obtain ⟨j, e, rfl⟩ := hev
    obtain ⟨x, y, ps, hx, hy, rfl⟩ := step_thread.1 hst
    by_cases hji : j = i
    · subst hji
      obtain ⟨hlt, -⟩ := List.getElem?_eq_some_iff.1 hx
      rw [credit_eq hx, credit_eq (List.getElem?_set_self hlt), encodesOf_self]
      rw [h.status] at hy
      exact next_credit hy
    · rw [encodesOf_of_ne hji, credit, credit]
      rw [show (s.threads.set j y)[i]? = s.threads[i]? from List.getElem?_set_ne hji]
      exact le_rfl
  · push Not at hev
    rw [encodesOf_main hev]
    rcases (h.step hst hno).2 hev with hthreads | hthreads
    · rw [credit, credit, hthreads]
      exact le_rfl
    · rw [credit, hthreads]
      exact Nat.zero_le _

/-! ## Runs after a RESTART -/

theorem Stopped.run (h : s.Stopped) (hrun : Runs.run Process.step s fs = some u)
    (hno : ∀ ev ∈ fs, NoStart ev) : u.Stopped ∧ u.threads.length ≤ s.threads.length := by
  induction fs generalizing s with
  | nil =>
    obtain rfl : s = u := Option.some.inj hrun
    exact ⟨h, le_rfl⟩
  | cons ev fs ih =>
    obtain ⟨t, ht, hu⟩ := (Runs.run_cons_eq_some Process.step).1 hrun
    obtain ⟨hstop, hmain⟩ := h.step ht (hno ev List.mem_cons_self)
    obtain ⟨hend, hlen⟩ := ih hstop hu fun f hf => hno f (List.mem_cons_of_mem ev hf)
    refine ⟨hend, hlen.trans ?_⟩
    by_cases hev : ∃ j e, ev = .thread j e
    · obtain ⟨j, e, rfl⟩ := hev
      obtain ⟨x, y, ps, -, -, rfl⟩ := step_thread.1 ht
      exact (List.length_set).le
    · push Not at hev
      rcases hmain hev with hthreads | hthreads
      · rw [hthreads]
      · rw [hthreads]
        exact Nat.zero_le _

theorem Stopped.run_credit (h : s.Stopped) (hrun : Runs.run Process.step s fs = some u)
    (hno : ∀ ev ∈ fs, NoStart ev) (i : ℕ) :
    u.credit i + (Runs.trace Process.step (encodesOf i) s fs).length ≤ s.credit i := by
  induction fs generalizing s with
  | nil =>
    obtain rfl : s = u := Option.some.inj hrun
    exact le_rfl
  | cons ev fs ih =>
    obtain ⟨t, ht, hu⟩ := (Runs.run_cons_eq_some Process.step).1 hrun
    have hev := hno ev List.mem_cons_self
    have hstep := h.step_credit ht hev i
    have hrest := ih (h.step ht hev).1 hu (fun f hf => hno f (List.mem_cons_of_mem ev hf))
    rw [Runs.trace_cons ht, List.length_append]
    omega

/-- A thread that can encode no more encodes no more. -/
theorem Stopped.encodes_nil (h : s.Stopped) (hrun : Runs.run Process.step s fs = some u)
    (hno : ∀ ev ∈ fs, NoStart ev) (hzero : s.credit i = 0) :
    Runs.trace Process.step (encodesOf i) s fs = [] := by
  have hle := h.run_credit hrun hno i
  exact List.eq_nil_of_length_eq_zero (by omega)

theorem Stopped.run_sends (hR : R ≠ 0) (h : s.Stopped) (hs : s.Wellformed)
    (hrun : Runs.run Process.step s fs = some u) (hno : ∀ ev ∈ fs, NoStart ev) (i : ℕ) :
    dataFor R (Runs.trace Process.step (sendsOf i) s fs) <+:
      s.leftOver R i ++ picturesFor R (Runs.trace Process.step (encodesOf i) s fs) := by
  induction fs generalizing s with
  | nil => exact List.nil_prefix
  | cons ev fs ih =>
    obtain ⟨t, ht, hu⟩ := (Runs.run_cons_eq_some Process.step).1 hrun
    have hev := hno ev List.mem_cons_self
    have hfs : ∀ f ∈ fs, NoStart f := fun f hf => hno f (List.mem_cons_of_mem ev hf)
    obtain ⟨hstop, hmain⟩ := h.step ht hev
    have hrest := ih hstop (hs.step ht) hu hfs
    -- after the end of the thread there is nothing more
    have hover : t.credit i = 0 → t.leftOver R i = [] →
        dataFor R (Runs.trace Process.step (sendsOf i) t fs) = [] := by
      intro hzero hleft
      rw [hstop.encodes_nil hu hfs hzero, hleft] at hrest
      exact List.prefix_nil.1 hrest
    rw [Runs.trace_cons ht, Runs.trace_cons ht, dataFor_append, picturesFor_append]
    by_cases hthread : ∃ j e, ev = .thread j e
    · obtain ⟨j, e, rfl⟩ := hthread
      by_cases hji : j = i
      · subst hji
        obtain ⟨x, y, ps, hx, hy, rfl⟩ := step_thread.1 ht
        obtain ⟨hlt, -⟩ := List.getElem?_eq_some_iff.1 hx
        have hset : (s.threads.set j y)[j]? = some y := List.getElem?_set_self hlt
        obtain ⟨lost, hpass, hlost⟩ :=
          (next_passes hR hs.remotefd (hs.threads x (List.mem_of_getElem? hx)) hy).data
        rw [sendsOf_self hx hy, encodesOf_self, leftOver_eq hx, ← List.append_assoc, ← hpass]
        by_cases hend : y = .ended
        · subst hend
          rw [hover ((credit_eq hset).trans rfl) ((leftOver_eq hset).trans rfl)]
          simp only [List.append_assoc]
          exact List.prefix_append_right_inj _ |>.2 List.nil_prefix
        · rw [hlost hend, List.append_nil, List.append_assoc, List.prefix_append_right_inj]
          rw [leftOver_eq hset] at hrest
          exact hrest
      · rw [leftOver_congr (step_thread_others ht (Ne.symm hji))] at hrest
        rw [sendsOf_of_ne hji, encodesOf_of_ne hji]
        exact hrest
    · push Not at hthread
      rw [sendsOf_main hthread, encodesOf_main hthread]
      rcases hmain hthread with hthreads | hthreads
      · rw [leftOver_congr (congrArg (fun l => l[i]?) hthreads)] at hrest
        exact hrest
      · have hnone : t.threads[i]? = none := by
          rw [hthreads]
          rfl
        rw [hover (by rw [credit, hnone]; rfl) (by rw [leftOver, hnone]; rfl)]
        exact List.nil_prefix

/-- From a RESTART to the next START: `camera_status` stays, no thread is created, and each thread
encodes at most one picture. It sends nothing but that, after what was left. -/
theorem winds_down (hR : R ≠ 0) (h : Runs.run step boot es = some s) (hstop : s.status = .stop)
    (hrun : Runs.run step s fs = some u) (hno : ∀ ev ∈ fs, NoStart ev) (i : ℕ) :
    u.status = .stop ∧ u.threads.length ≤ s.threads.length ∧
      (Runs.trace step (encodesOf i) s fs).length ≤ 1 ∧
      dataFor R (Runs.trace step (sendsOf i) s fs) <+:
        s.leftOver R i ++ picturesFor R (Runs.trace step (encodesOf i) s fs) := by
  obtain ⟨hend, hlen⟩ := (stopped_of_run h hstop).run hrun hno
  have hcredit := (stopped_of_run h hstop).run_credit hrun hno i
  refine ⟨hend.status, hlen, ?_, ?_⟩
  · have hle := s.credit_le i
    omega
  · exact (stopped_of_run h hstop).run_sends hR (wellformed_of_run h) hrun hno i

/-- A RESTART while the first picture is sent. -/
def restartedLate : List ProcessEvent :=
  [.recv (some (Server.startNtf Pkg.construct 6)), .assign, .create true, .thread 0 .initCamera,
    .thread 0 .test, .thread 0 (.encodeDo [1]), .recv (some (Server.restartPkg 5))]

/-- The thread sends the picture and stops. -/
def stopping : List ProcessEvent :=
  [.thread 0 (.round true), .thread 0 (.round true), .thread 0 .test, .thread 0 .close]

theorem winds_down_restartedLate : ∃ s u, Runs.run step boot restartedLate = some s ∧
    Runs.run step s stopping = some u ∧ u.threads.length ≤ 1 ∧
    dataFor 6 (Runs.trace step (sendsOf 0) s stopping) <+: [1] := by
  have hruns : ∃ s u, Runs.run step boot restartedLate = some s ∧ s.status = .stop ∧
      Runs.run step s stopping = some u ∧ s.threads.length = 1 ∧ s.leftOver 6 0 = [1] ∧
      picturesFor 6 (Runs.trace step (encodesOf 0) s stopping) = [] := by
    refine ⟨_, _, rfl, rfl, rfl, rfl, ?_, ?_⟩ <;> decide +kernel
  obtain ⟨s, u, hs, hstop, hu, hlen, hleft, hpics⟩ := hruns
  have hno : ∀ ev ∈ stopping, NoStart ev := by
    intro ev hev ntf hntf
    subst hntf
    simp [stopping] at hev
  obtain ⟨-, hthreads, -, hsent⟩ := winds_down (R := 6) (by decide) hs hstop hu hno 0
  rw [hleft, hpics] at hsent
  exact ⟨s, u, hs, hu, hlen ▸ hthreads, hsent⟩

end Process
end Raspi
end WawaServer
