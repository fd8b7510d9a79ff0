import WawaServer.Clients.Family

/-!
# Who reads the connection

The original process reads the notifications, and no other process should. A child gets into the
loop where its branch ends: after a packet that is no START, after the stream of the camera has
ended, and where `execlp` fails. Nothing else leads there.
-/

namespace WawaServer
namespace Client

variable {p : Process} {o : Outcome} {e : ProcessEvent} {pid : ℤ} {a : ProcessAt} {i j : ℕ}
  {s t : Family}

/-! ## One process -/

/-- The step goes past the end of the branch. -/
def Process.FallsThrough (p : Process) : ProcessEvent → Prop
  | .test => ∃ pkg, p.here = .forked pkg ∧ ¬ pkg.IsStart
  | .exec r => p.here = .starting ∧ r = .execError
  | .read r _ => (∃ pkg, p.here = .streaming pkg) ∧ (r = none ∨ r = some [])
  | _ => False

theorem ProcessAt.InLoop.not_inBranch (h : a.InLoop) : ¬ a.InBranch := by
  cases a <;> first | exact id | exact h.elim

/-- What a step of a process does. -/
inductive Goes (p : Process) (e : ProcessEvent) (o : Outcome) : Prop
  | ends (hp : p.here ≠ .ended) (ho : o.self.here = .ended) (hc : o.child = none)
      (hf : ¬ p.FallsThrough e)
  | loops (hp : p.here.InLoop) (ho : o.self.here.InLoop) (hc : ∀ c ∈ o.child, c.here.InBranch)
      (hf : ¬ p.FallsThrough e)
  | stays (hp : p.here.InBranch) (ho : o.self.here.InBranch) (hc : ∀ c ∈ o.child, c.here.InBranch)
      (hf : ¬ p.FallsThrough e)
  | falls (hp : p.here.InBranch) (ho : o.self.here.InLoop) (hc : o.child = none)
      (hf : p.FallsThrough e)

namespace Process

theorem received_goes (recvpkg : Pkg) (hp : p.here = .receiving) :
    Goes p (.recv (some recvpkg)) (p.received recvpkg) := by
  have hloop : p.here.InLoop := by
    rw [hp]
    trivial
  have hne : p.here ≠ .ended := by
    rw [hp]
    exact nofun
  unfold received
  split
  · by_cases hpid : p.childPid = 0
    · rw [if_pos hpid]
      exact .ends hne rfl rfl id
    · rw [if_neg hpid]
      exact .loops hloop trivial nofun id
  · split
    · exact .loops hloop trivial nofun id
    · exact .loops hloop trivial nofun id

/-- A child that reads the pipe goes on, gives up, or falls through. -/
theorem read_goes {pkg : Pkg} {r : Option (List UInt8)} {ok : Bool} (hp : p.here = .streaming pkg)
    (h : p.next pid (.read r ok) = some o) : Goes p (.read r ok) o := by
  have hbranch : p.here.InBranch := by
    rw [hp]
    trivial
  have hne : p.here ≠ .ended := by
    rw [hp]
    exact nofun
  simp only [next, hp] at h
  cases r with
  | none =>
    cases h
    exact .falls hbranch trivial rfl ⟨⟨pkg, hp⟩, .inl rfl⟩
  | some bs =>
    simp only at h
    by_cases hpos : 0 < bs.length
    · have hread : ¬ p.FallsThrough (.read (some bs) ok) := by
        rintro ⟨-, hnone | hnil⟩
        · cases hnone
        · cases hnil
          exact absurd hpos (by decide)
      rw [if_pos hpos] at h
      split at h
      · cases h
        exact .stays hbranch trivial nofun hread
      · cases h
        exact .ends hne rfl rfl hread
    · rw [if_neg hpos] at h
      cases h
      have hnil : bs = [] := List.eq_nil_of_length_eq_zero (by omega)
      exact .falls hbranch trivial rfl ⟨⟨pkg, hp⟩, .inr (congrArg some hnil)⟩

theorem next_goes (h : p.next pid e = some o) : Goes p e o := by
  have hne : ∀ {b}, p.here = b → b ≠ .ended → p.here ≠ .ended := fun hp hb => hp ▸ hb
  have hloop : ∀ {b}, p.here = b → b.InLoop → p.here.InLoop := fun hp hb => hp ▸ hb
  have hbranch : ∀ {b}, p.here = b → b.InBranch → p.here.InBranch := fun hp hb => hp ▸ hb
  cases e with
  | recv recvpkg =>
    simp only [next] at h
    split at h
    · rename_i hp
      cases h
      exact .ends (hne hp nofun) rfl rfl id
    · rename_i hp
      cases h
      exact received_goes _ hp
    · rename_i hp
      cases h
      exact .ends (hne hp nofun) rfl rfl id
    · rename_i hp
      cases h
      exact .loops (hloop hp trivial) trivial nofun id
    · cases h
  | fork ok =>
    simp only [next] at h
    split at h
    · rename_i hp
      split at h
      · cases h
        refine .loops (hloop hp trivial) trivial (fun c hc => ?_) id
        obtain rfl := Option.some.inj hc
        trivial
      · cases h
        exact .ends (hne hp nofun) rfl rfl id
    · cases h
  | test =>
    simp only [next] at h
    split at h
    · rename_i recvpkg hp
      cases h
      by_cases hstart : recvpkg.IsStart
      · refine .stays (hbranch hp trivial) ?_ nofun ?_
        · rw [if_pos hstart]
          trivial
        · rintro ⟨pkg, hpkg, hnot⟩
          cases hp.symm.trans hpkg
          exact hnot hstart
      · refine .falls (hbranch hp trivial) ?_ rfl ⟨recvpkg, hp, hstart⟩
        rw [if_neg hstart]
        trivial
    · cases h
  | forkCamera ok =>
    simp only [next] at h
    split at h
    · rename_i hp
      split at h
      · cases h
        refine .stays (hbranch hp trivial) trivial (fun c hc => ?_) id
        obtain rfl := Option.some.inj hc
        trivial
      · cases h
        exact .ends (hne hp nofun) rfl rfl id
    · cases h
  | exec r =>
    simp only [next] at h
    split at h
    · rename_i hp
      cases r with
      | dupError =>
        cases h
        exact .ends (hne hp nofun) rfl rfl fun hf => nomatch hf.2
      | execError =>
        cases h
        exact .falls (hbranch hp trivial) trivial rfl ⟨hp, rfl⟩
      | started =>
        cases h
        exact .stays (hbranch hp trivial) trivial nofun fun hf => nomatch hf.2
    · cases h
  | read r ok =>
    have hp : ∃ pkg, p.here = .streaming pkg := by
      simp only [next] at h
      split at h
      · exact ⟨_, ‹_›⟩
      · cases h
    obtain ⟨pkg, hp⟩ := hp
    exact read_goes hp h
  | quit =>
    simp only [next] at h
    split at h
    · rename_i hp
      cases h
      exact .ends (hne hp nofun) rfl rfl id
    · cases h
  | signal =>
    simp only [next] at h
    split at h
    · cases h
    · rename_i hp
      split at h
      · cases h
        exact .ends hp rfl rfl id
      · cases h

end Process

/-! ## All processes -/

namespace Family

/-- Where the process `i` is. -/
def here (s : Family) (i : ℕ) : Option ProcessAt := s.processes[i]?.map Process.here

theorem step_eq_some {e : ℕ × ProcessEvent} : s.step e = some t ↔ ∃ p o,
    s.processes[e.1]? = some p ∧ p.next (s.processes.length + 1) e.2 = some o ∧
      s.apply e.1 o = t := by
  unfold step
  constructor
  · intro h
    split at h
    · cases h
    · rename_i p hp
      obtain ⟨o, ho, heq⟩ := Option.map_eq_some_iff.1 h
      exact ⟨p, o, hp, ho, heq⟩
  · rintro ⟨p, o, hp, ho, heq⟩
    simp only [hp, ho, Option.map_some, heq]

/-- A signal moves no process. -/
theorem kill_here (ps : List Process) (pid : ℤ) (j : ℕ) :
    (kill ps pid)[j]?.map Process.here = ps[j]?.map Process.here := by
  unfold kill
  rw [List.getElem?_mapIdx, Option.map_map]
  congr 1
  funext p
  simp only [Function.comp]
  split <;> rfl

/-- After a step of `i`: that process, the one it has forked, and the others. -/
theorem apply_here (h : i < s.processes.length) (o : Outcome) (j : ℕ) :
    (s.apply i o).here j =
      if j = i then some o.self.here
      else if j = s.processes.length then o.child.map Process.here
      else s.here j := by
  have hkill : (s.apply i o).here j =
      (s.processes.set i o.self ++ o.child.toList)[j]?.map Process.here := by
    unfold here apply
    cases o.kills with
    | none => rfl
    | some pid => exact kill_here _ _ _
  rw [hkill]
  split_ifs with hi hlen
  · rw [hi, List.getElem?_append_left (by simpa using h), List.getElem?_set_self h]
    rfl
  · rw [hlen, List.getElem?_append_right (by simp), List.length_set, Nat.sub_self]
    cases o.child <;> rfl
  · rcases Nat.lt_or_ge j s.processes.length with hlt | hge
    · rw [List.getElem?_append_left (by simpa using hlt), List.getElem?_set_ne (Ne.symm hi)]
      rfl
    · rw [List.getElem?_eq_none, here, List.getElem?_eq_none hge]
      have hchild : o.child.toList.length ≤ 1 := by cases o.child <;> simp
      rw [List.length_append, List.length_set]
      omega

/-- No process but the original one is in the loop that calls `recv_pkg`. -/
def OnlyParent (s : Family) : Prop := ∀ i a, s.here i = some a → a.InLoop → i = 0

/-- The process that takes the step goes past the end of its branch. -/
def FallsThrough (s : Family) (e : ℕ × ProcessEvent) : Prop :=
  ∃ p, s.processes[e.1]? = some p ∧ p.FallsThrough e.2

/-- There is an original process, and it is not in the branch of a child. -/
structure Rooted (s : Family) : Prop where
  pos : 0 < s.processes.length
  root : ∀ a, s.here 0 = some a → ¬ a.InBranch

theorem rooted_boot : boot.Rooted where
  pos := Nat.one_pos
  root a ha := by
    cases ha
    exact id

theorem onlyParent_boot : boot.OnlyParent := by
  intro i a ha _
  cases i with
  | zero => rfl
  | succ i => cases ha

/-- If after a step only the original process is in the loop, so it is if no process forks one that
is and the one that moved is the original process or out of the loop. -/
theorem OnlyParent.apply {o : Outcome} (hs : s.OnlyParent) (hi : i < s.processes.length)
    (ho : o.self.here.InLoop → i = 0) (hc : ∀ c ∈ o.child, ¬ c.here.InLoop) :
    (s.apply i o).OnlyParent := by
  intro j a ha hloop
  rw [apply_here hi] at ha
  split_ifs at ha with hj hlen
  · cases ha
    exact hj.trans (ho hloop)
  · obtain ⟨c, hchild, rfl⟩ := Option.map_eq_some_iff.1 ha
    exact absurd hloop (hc c hchild)
  · exact hs j a ha hloop

theorem Rooted.apply {o : Outcome} (hr : s.Rooted) (hi : i < s.processes.length)
    (ho : i = 0 → ¬ o.self.here.InBranch) : (s.apply i o).Rooted where
  pos := by
    have hne : (s.apply i o).here 0 ≠ none := by
      rw [apply_here hi]
      split_ifs with h h'
      · exact nofun
      · exact absurd h' (by have := hr.pos; omega)
      · rw [here, List.getElem?_eq_getElem hr.pos]
        exact nofun
    by_contra hnil
    exact hne (by rw [here, List.getElem?_eq_none (not_lt.1 hnil)]; rfl)
  root a ha := by
    rw [apply_here hi] at ha
    split_ifs at ha with h h'
    · cases ha
      exact ho h.symm
    · exact absurd h' (by have := hr.pos; omega)
    · exact hr.root a ha

/-- One step: still only the original process is in the loop, exactly if no process has gone past
the end of its branch. -/
theorem step_onlyParent {e : ℕ × ProcessEvent} (hr : s.Rooted) (hs : s.OnlyParent)
    (h : s.step e = some t) : t.Rooted ∧ (t.OnlyParent ↔ ¬ s.FallsThrough e) := by
  obtain ⟨i, e⟩ := e
  obtain ⟨p, o, hp, ho, rfl⟩ := step_eq_some.1 h
  simp only at hp ho
  obtain ⟨hi, -⟩ := List.getElem?_eq_some_iff.1 hp
  have hhere : s.here i = some p.here := by rw [here, hp]; rfl
  have hfalls : s.FallsThrough (i, e) ↔ p.FallsThrough e := by
    refine ⟨fun ⟨q, hq, hf⟩ => ?_, fun hf => ⟨p, hp, hf⟩⟩
    obtain rfl := Option.some.inj (hp.symm.trans hq)
    exact hf
  have hout : ∀ c ∈ o.child, c.here.InBranch → ¬ c.here.InLoop :=
    fun c _ hc hl => hl.not_inBranch hc
  rw [hfalls]
  show (s.apply i o).Rooted ∧ ((s.apply i o).OnlyParent ↔ ¬ p.FallsThrough e)
  cases Process.next_goes ho with
  | ends hp hend hc hf =>
    have hnot : ¬ o.self.here.InLoop ∧ ¬ o.self.here.InBranch := by
      rw [hend]
      exact ⟨id, id⟩
    refine ⟨hr.apply hi fun _ => hnot.2, fun _ => hf, fun _ => ?_⟩
    exact hs.apply hi (fun hl => absurd hl hnot.1) (by rw [hc]; exact nofun)
  | loops hp hloop hc hf =>
    refine ⟨hr.apply hi fun _ => hloop.not_inBranch, fun _ => hf, fun _ => ?_⟩
    exact hs.apply hi (fun _ => hs i _ hhere hp) fun c hchild => hout c hchild (hc c hchild)
  | stays hp hbranch hc hf =>
    refine ⟨hr.apply hi fun h0 => ?_, fun _ => hf, fun _ => ?_⟩
    · exact absurd hp (hr.root _ (h0 ▸ hhere))
    · exact hs.apply hi (fun hl => absurd hbranch hl.not_inBranch)
        fun c hchild => hout c hchild (hc c hchild)
  | falls hp hloop hc hf =>
    -- a child is in the loop now
    refine ⟨hr.apply hi fun h0 => absurd hp (hr.root _ (h0 ▸ hhere)), fun honly => ?_,
      fun hn => absurd hf hn⟩
    have h0 := honly i o.self.here (by rw [apply_here hi, if_pos rfl]) hloop
    exact absurd hp (hr.root _ (h0 ▸ hhere))

/-- A run, whatever the server sends and in whatever order the processes step: only the original
process is ever in the loop that calls `recv_pkg`, exactly if no step goes past the end of a branch:
no child is forked for a packet other than a START, no stream of a camera ends, and no `execlp`
fails. -/
theorem only_parent_iff (es : List (ℕ × ProcessEvent)) :
    boot.OnlyParent ∧ Runs.Along step (fun _ _ t => t.OnlyParent) boot es ↔
      Runs.Along step (fun s e _ => ¬ s.FallsThrough e) boot es := by
  have hrun : ∀ s : Family, s.Rooted → s.OnlyParent →
      (Runs.Along step (fun _ _ t => t.OnlyParent) s es ↔
        Runs.Along step (fun s e _ => ¬ s.FallsThrough e) s es) := by
    induction es with
    | nil => exact fun _ _ _ => Iff.rfl
    | cons e es ih =>
      intro s hr hs
      apply forall₂_congr
      intro t ht
      obtain ⟨hrt, hiff⟩ := step_onlyParent hr hs ht
      exact ⟨fun h => ⟨hiff.1 h.1, (ih t hrt h.1).1 h.2⟩,
        fun h => ⟨hiff.2 h.1, (ih t hrt (hiff.2 h.1)).2 h.2⟩⟩
  rw [hrun boot rooted_boot onlyParent_boot]
  exact ⟨fun h => h.2, fun h => ⟨onlyParent_boot, h⟩⟩

/-- A START is received, a child and the camera are started, and the stream ends. -/
def streamEnds : List (ℕ × ProcessEvent) :=
  [(0, .recv (some (Pkg.construct.setCmd .startSendDataNtf))), (0, .fork true), (1, .test),
    (1, .forkCamera true), (2, .exec .started), (1, .read (some []) true)]

/-- The child is in the loop then. -/
theorem child_receives : ¬ ∀ es t, Runs.run step boot es = some t → t.OnlyParent := by
  intro h
  have hrun : ∃ t, Runs.run step boot streamEnds = some t ∧ t.here 1 = some .receiving := by
    refine ⟨_, rfl, ?_⟩
    rfl
  obtain ⟨t, ht, hhere⟩ := hrun
  exact absurd (h streamEnds t ht 1 .receiving hhere trivial) (by decide)

end Family
end Client
end WawaServer
