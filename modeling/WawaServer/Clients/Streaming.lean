import WawaServer.Clients.Forks
import WawaServer.Clients.Video
import WawaServer.Inert

/-!
# What becomes of the stream of `client.cpp`

The processes that `client.cpp` forks send what the camera writes to the pipe, piece by piece. They
never set the descriptor in the head, so that the frames name no destination and the server passes
none of them on (`stream_unheard`).
-/

namespace WawaServer
namespace Client

open Pkg

variable {p : Process} {o : Outcome} {e : ProcessEvent} {pid : ℤ} {s t : Family} {pkg : Pkg}
  {bs : List UInt8}

/-- `read` returns no more than `BUF_SIZE` bytes. -/
def ProcessEvent.ReadsFit : ProcessEvent → Prop
  | .read (some bs) _ => bs.length ≤ bufSize
  | _ => True

instance : ∀ e, Decidable (ProcessEvent.ReadsFit e)
  | .read (some _) _ => inferInstanceAs (Decidable (_ ≤ _))
  | .read none _ => inferInstanceAs (Decidable True)
  | .recv _ => inferInstanceAs (Decidable True)
  | .fork _ => inferInstanceAs (Decidable True)
  | .test => inferInstanceAs (Decidable True)
  | .forkCamera _ => inferInstanceAs (Decidable True)
  | .exec _ => inferInstanceAs (Decidable True)
  | .quit => inferInstanceAs (Decidable True)
  | .signal => inferInstanceAs (Decidable True)

/-- The bytes that are read from a pipe and sent. -/
def ProcessEvent.sends : ProcessEvent → List (List UInt8)
  | .read (some bs) true => if 0 < bs.length then [bs] else []
  | _ => []

/-- The descriptor in the head of the packet of a child that streams is 0. -/
def ProcessAt.Unaddressed : ProcessAt → Prop
  | .streaming pkg => pkg.fd = 0
  | _ => True

/-! ## One packet -/

/-- The packet that a child sends for the bytes `bs`. -/
def streamed (pkg : Pkg) (bs : List UInt8) : Pkg :=
  (Pkg.setCmd (Buffer.write pkg sizeofHead bs) .streamDataNtf).setLen bs.length

theorem fd_streamed (pkg : Pkg) (bs : List UInt8) : (streamed pkg bs).fd = pkg.fd := by
  have hhead : Pkg.fd (Buffer.write pkg sizeofHead bs) = pkg.fd :=
    Buffer.word_write_of_outside _ _ _ (.inl (by decide))
  rw [streamed, fd_setLen, fd_setCmd, hhead]

theorem len_streamed (pkg : Pkg) (hle : bs.length ≤ bufSize) :
    (streamed pkg bs).len = bs.length := by
  apply len_setLen
  simp only [bufSize] at hle
  omega

theorem inert_streamed (h0 : pkg.fd = 0) (hle : bs.length ≤ bufSize) : (streamed pkg bs).Inert where
  fd := (fd_streamed pkg bs).trans h0
  handler := by
    rw [streamed, HasHandler, cmd_setLen, cmd_setCmd]
    decide
  len := by rwa [len_streamed pkg hle]

theorem streamData_streamed (pkg : Pkg) (hle : bs.length ≤ bufSize) :
    (streamed pkg bs).streamData = bs := by
  have hslice := Buffer.slice_write_self pkg sizeofHead bs (by
    simp only [bufSize, sizeofHead, sizeofPkg] at *
    omega)
  rw [streamData, len_streamed pkg hle]
  refine Eq.trans (Buffer.slice_congr _ _ _ _ _ fun k _ => ?_) hslice
  -- the assignments to the head leave the body alone
  rw [streamed, setLen, setCmd, Buffer.setWord, Buffer.setWord,
    Buffer.get_write_of_outside _ _ _ (by simp [sizeofHead]; omega),
    Buffer.get_write_of_outside _ _ _ (by simp [sizeofHead]; omega)]

/-! ## One process -/

/-- What a step of a process has to do with the stream. -/
structure Streams (e : ProcessEvent) (o : Outcome) : Prop where
  self : o.self.here.Unaddressed
  child : ∀ c ∈ o.child, c.here.Unaddressed
  inert : ∀ q ∈ o.pkgs, q.Inert
  data : o.pkgs.map streamData = e.sends

theorem Streams.of_quiet (hself : o.self.here.Unaddressed)
    (hchild : ∀ c ∈ o.child, c.here.Unaddressed) (hpkgs : o.pkgs = []) (hsends : e.sends = []) : Streams e o where
  self := hself
  child := hchild
  inert := by simp [hpkgs]
  data := by rw [hpkgs, hsends]; rfl

theorem Streams.of_alone (hself : o.self.here.Unaddressed) (hchild : o.child = none)
    (hpkgs : o.pkgs = []) (hsends : e.sends = []) : Streams e o :=
  .of_quiet hself (by simp [hchild]) hpkgs hsends

/-- The process ends. -/
theorem streams_exits (p : Process) (hsends : e.sends = []) : Streams e p.exits :=
  .of_alone trivial rfl rfl hsends

theorem streams_received (recvpkg : Pkg) : Streams (.recv (some recvpkg)) (p.received recvpkg) := by
  unfold Process.received
  split
  · refine .of_alone ?_ rfl rfl rfl
    by_cases hpid : p.childPid = 0
    · rw [if_pos hpid]
      trivial
    · rw [if_neg hpid]
      trivial
  · split
    · exact .of_alone trivial rfl rfl rfl
    · exact .of_alone trivial rfl rfl rfl

theorem streams_read {r : Option (List UInt8)} {ok : Bool} (hp : p.here = .streaming pkg)
    (h0 : pkg.fd = 0) (hfit : (ProcessEvent.read r ok).ReadsFit)
    (h : p.next pid (.read r ok) = some o) : Streams (.read r ok) o := by
  simp only [Process.next, hp] at h
  cases r with
  | none =>
    cases h
    exact .of_alone trivial rfl rfl rfl
  | some bs =>
    have hle : bs.length ≤ bufSize := hfit
    simp only at h
    by_cases hpos : 0 < bs.length
    · rw [if_pos hpos] at h
      cases ok with
      | true =>
        cases h
        refine ⟨(fd_streamed pkg bs).trans h0, by simp [Process.moved], ?_, ?_⟩
        · intro q hq
          obtain rfl := List.mem_singleton.1 hq
          exact inert_streamed h0 hle
        · show [(streamed pkg bs).streamData] = if 0 < bs.length then [bs] else []
          rw [streamData_streamed pkg hle, if_pos hpos]
      | false =>
        cases h
        exact streams_exits p rfl
    · rw [if_neg hpos] at h
      cases h
      refine .of_alone trivial rfl rfl ?_
      cases ok with
      | true => exact if_neg hpos
      | false => rfl

theorem next_streams (hp : p.here.Unaddressed) (hfit : e.ReadsFit) (h : p.next pid e = some o) :
    Streams e o := by
  cases e with
  | recv recvpkg =>
    simp only [Process.next] at h
    split at h
    · cases h
      exact streams_exits p rfl
    · cases h
      exact streams_received _
    · cases h
      exact streams_exits p rfl
    · cases h
      exact .of_alone trivial rfl rfl rfl
    · cases h
  | fork ok =>
    simp only [Process.next] at h
    split at h
    · split at h
      · cases h
        refine .of_quiet trivial (fun c hc => ?_) rfl rfl
        obtain rfl := Option.some.inj hc
        trivial
      · cases h
        exact streams_exits _ rfl
    · cases h
  | test =>
    simp only [Process.next] at h
    split at h
    · rename_i recvpkg _
      cases h
      refine .of_alone ?_ rfl rfl rfl
      by_cases hstart : recvpkg.IsStart
      · rw [if_pos hstart]
        trivial
      · rw [if_neg hstart]
        trivial
    · cases h
  | forkCamera ok =>
    simp only [Process.next] at h
    split at h
    · split at h
      · cases h
        refine .of_quiet fd_construct (fun c hc => ?_) rfl rfl
        obtain rfl := Option.some.inj hc
        trivial
      · cases h
        exact streams_exits _ rfl
    · cases h
  | exec r =>
    simp only [Process.next] at h
    split at h
    · cases r with
      | dupError =>
        cases h
        exact streams_exits p rfl
      | _ =>
        cases h
        exact .of_alone trivial rfl rfl rfl
    · cases h
  | read r ok =>
    have hhere : ∃ pkg, p.here = .streaming pkg := by
      simp only [Process.next] at h
      split at h
      · exact ⟨_, ‹_›⟩
      · cases h
    obtain ⟨pkg, hhere⟩ := hhere
    rw [hhere] at hp
    exact streams_read hhere hp hfit h
  | quit =>
    simp only [Process.next] at h
    split at h
    · cases h
      exact .of_alone trivial rfl rfl rfl
    · cases h
  | signal =>
    simp only [Process.next] at h
    split at h
    · cases h
    · split at h
      · cases h
        exact .of_alone trivial rfl rfl rfl
      · cases h

/-! ## All processes -/

namespace Family

/-- What has been sent is the bytes that were read, in frames that name no destination. -/
structure Streamed (s : Family) (read : List (List UInt8)) : Prop where
  here : ∀ i a, s.here i = some a → a.Unaddressed
  inert : ∀ q ∈ s.pkgs, q.Inert
  data : s.pkgs.map streamData = read

theorem streamed_boot : boot.Streamed [] where
  here i a ha := by
    cases i with
    | zero =>
      cases ha
      trivial
    | succ i => cases ha
  inert := by simp [boot]
  data := rfl

theorem Streamed.step {e : ℕ × ProcessEvent} {read : List (List UInt8)} (hs : s.Streamed read)
    (h : s.step e = some t) (hfit : e.2.ReadsFit) : t.Streamed (read ++ e.2.sends) := by
  obtain ⟨i, e⟩ := e
  obtain ⟨p, o, hp, ho, rfl⟩ := step_eq_some.1 h
  obtain ⟨hi, -⟩ := List.getElem?_eq_some_iff.1 hp
  have hhere : s.here i = some p.here := by rw [Family.here, hp]; rfl
  have hst := next_streams (hs.here i _ hhere) hfit ho
  refine ⟨fun j a ha => ?_, fun q hq => ?_, ?_⟩
  · rw [apply_here hi] at ha
    split_ifs at ha with hj hlen
    · cases ha
      exact hst.self
    · obtain ⟨c, hchild, rfl⟩ := Option.map_eq_some_iff.1 ha
      exact hst.child c hchild
    · exact hs.here j a ha
  · rcases List.mem_append.1 hq with hq | hq
    · exact hs.inert q hq
    · exact hst.inert q hq
  · show (s.pkgs ++ o.pkgs).map streamData = _
    rw [List.map_append, hs.data, hst.data]

/-- Whatever the processes do, what they have sent is what they have read, in frames that name no
destination. -/
theorem streamed_run {fs : List (ℕ × ProcessEvent)} (h : Runs.run step boot fs = some t)
    (hfit : ∀ f ∈ fs, f.2.ReadsFit) : t.Streamed (fs.flatMap (·.2.sends)) := by
  refine Runs.along_induction step (R := fun _ f _ => f.2.ReadsFit)
    (P := fun fs t => t.Streamed (fs.flatMap (·.2.sends))) streamed_boot ?_ h
    (Runs.along_of_forall step (fun f hf _ _ => hfit f hf) boot)
  intro fs u f v _ ih hst hf
  rw [List.flatMap_append, List.flatMap_singleton]
  exact ih.step hst hf

end Family

/-- Whatever the processes of `client.cpp` do, they send all that they read, and nothing comes of
it: while it arrives on `c`, however cut, a server that is told of everything but the frames on `c`
comes to the same state as the server. -/
theorem stream_unheard {fs : List (ℕ × ProcessEvent)} {f : Family} {s t : Server} {c : Slot}
    {es : List Event} (hf : Runs.run Family.step Family.boot fs = some f)
    (hfit : ∀ e ∈ fs, e.2.ReadsFit) (hr : Server.Reachable s) (hc : s.Live c)
    (h0 : (s.channel c).recvCtx.len = 0) (hrun : Runs.run Server.step s es = some t)
    (hown : Runs.Along Server.step Server.ReadsOwn s es)
    (hal : Runs.Along Server.step (fun _ _ u => u.Live c) s es)
    (hin : Event.inputs c es <+: (f.pkgs.map frame).flatten) :
    f.pkgs.map streamData = fs.flatMap (·.2.sends) ∧
      Runs.run Server.messageStep s.settled
        ((Runs.trace Server.step Server.messages s es).filter (·.notOn c)) = some t.settled := by
  have hsent := Family.streamed_run hf hfit
  exact ⟨hsent.data, Server.unheard hr hc h0 hrun hown hal hsent.inert hin⟩

/-- A START is received, and the camera writes four bytes. -/
def fourBytes : List (ℕ × ProcessEvent) :=
  [(0, .recv (some (construct.setCmd .startSendDataNtf))), (0, .fork true), (1, .test),
    (1, .forkCamera true), (2, .exec .started), (1, .read (some [1, 2, 3]) true),
    (1, .read (some [4]) true)]

/-- Meanwhile a viewer registers. -/
def fourBytesArrive : List Event :=
  [.recv 0 (.data ((encode .streamDataNtf 0 [1, 2, 3]).take 7)) Event.takesAll, .accept 6,
    .recv 0 (.data ((encode .streamDataNtf 0 [1, 2, 3]).drop 7)) Event.takesAll] ++
    Event.register 1 .remote Event.takesAll ++ Event.stream 0 0 [4] Event.takesAll

theorem fourBytes_unheard : ∃ f, Runs.run Family.step Family.boot fourBytes = some f ∧
    f.pkgs.map streamData = fourBytes.flatMap (·.2.sends) ∧
    Runs.run Server.messageStep (Server.after [.accept 5]).settled
      ((Runs.trace Server.step Server.messages (Server.after [.accept 5]) fourBytesArrive).filter
        (·.notOn 0)) = some (Server.after ([.accept 5] ++ fourBytesArrive)).settled := by
  refine ⟨_, rfl, ?_⟩
  exact stream_unheard rfl (by decide +kernel) (Server.reachable_after _ (by decide +kernel))
    (by decide +kernel) (by decide +kernel) (Server.run_after _ _ (by decide +kernel))
    (by decide +kernel) (by decide +kernel) (by decide +kernel)

end Client
end WawaServer
