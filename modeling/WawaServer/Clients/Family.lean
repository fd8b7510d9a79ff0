import WawaServer.Protocol
import WawaServer.Lib.Runs

/-!
# The processes of the client

The notification loop in `main` of `client.cpp` and the processes that it forks. A child has a copy
of the variables and shares the connection. It is forked in the middle of the loop, and where its
branch ends it goes on in the loop. A step is one of some process, up to its next system call, with
what the kernel, the server and the pipe give it.
-/

namespace WawaServer
namespace Client

/-- Where a process is. -/
inductive ProcessAt
  /-- in the first `recv_pkg` of the loop -/
  | receiving
  /-- in the `recv_pkg` after a RESTART -/
  | receivingAgain
  /-- at `child_pid = fork()` -/
  | forking (recvpkg : Pkg)
  /-- a child, before its test of `recvpkg` -/
  | forked (recvpkg : Pkg)
  /-- a child, at `camera_pid = fork()` -/
  | forkingCamera
  /-- the child of a child, at `dup2` and `execlp` -/
  | starting
  /-- the program that `execlp` has started -/
  | camera
  /-- a child, in the loop that reads the pipe -/
  | streaming (pkg : Pkg)
  | ended

/-- The notification loop, between the first `recv_pkg` and `fork`. -/
def ProcessAt.InLoop : ProcessAt → Prop
  | .receiving => True
  | .receivingAgain => True
  | .forking _ => True
  | _ => False

/-- In the branch of a child, or after it. -/
def ProcessAt.InBranch : ProcessAt → Prop
  | .receiving => False
  | .receivingAgain => False
  | .forking _ => False
  | .ended => False
  | _ => True

/-- A process and its variables. A pid is a positive number; 0 and -1 name all processes. -/
structure Process where
  here : ProcessAt
  childPid : ℤ
  cameraPid : ℤ
  /-- `atexit_func` is registered. -/
  atExit : Bool
  /-- A signal that ends the process was sent to it. -/
  signalled : Bool

/-- What comes of `execlp("./out", "./out", NULL)` and the `dup2` before it. -/
inductive ExecResult
  | dupError
  | execError
  | started
deriving DecidableEq

/-- A step of a process, and what it gets. -/
inductive ProcessEvent
  /-- `recv_pkg` returns a packet, or fails. -/
  | recv (recvpkg : Option Pkg)
  | fork (ok : Bool)
  | test
  | forkCamera (ok : Bool)
  | exec (r : ExecResult)
  /-- What `read` returns: an error, or bytes, which are none at the end of the stream; and whether
  `send_pkg` returns 0, if it is called. -/
  | read (r : Option (List UInt8)) (ok : Bool)
  /-- The program that was started ends. -/
  | quit
  /-- A signal arrives. No process handles SIGHUP. -/
  | signal

/-- What a step of a process does: where it leads, the process that it forks, the pid that it sends
a signal to, and the packets that it sends. -/
structure Outcome where
  self : Process
  child : Option Process
  kills : Option ℤ
  pkgs : List Pkg

namespace Process

def moved (p : Process) (here : ProcessAt) : Outcome := ⟨{ p with here := here }, none, none, []⟩

/-- The process ends, and calls `atexit_func` if that is registered. -/
def exits (p : Process) : Outcome :=
  ⟨{ p with here := .ended }, none, if p.atExit then some p.cameraPid else none, []⟩

/-- The loop after `recv_pkg` has returned 0. A process that sends a SIGHUP to all processes gets it
before `kill` returns. -/
def received (p : Process) (recvpkg : Pkg) : Outcome :=
  if recvpkg.cmd = PkgCmdType.restartClientNtf.code then
    { p.moved (if p.childPid = 0 then .ended else .receivingAgain) with kills := some p.childPid }
  else if recvpkg.cmd = PkgCmdType.startSendDataNtf.code then p.moved (.forking recvpkg)
  else p.moved .receiving

/-- A step of a process. If it forks, `pid` is the one of the new process. -/
def next (p : Process) (pid : ℤ) : ProcessEvent → Option Outcome
  | .recv recvpkg =>
    match p.here, recvpkg with
    | .receiving, none => some p.exits
    | .receiving, some recvpkg => some (p.received recvpkg)
    | .receivingAgain, none => some p.exits
    | .receivingAgain, some recvpkg => some (p.moved (.forking recvpkg))
    | _, _ => none
  | .fork ok =>
    match p.here with
    | .forking recvpkg =>
      if ok then
        some { { p with childPid := pid }.moved .receiving with
          child := some { p with here := .forked recvpkg, childPid := 0, signalled := false } }
      else some { p with childPid := -1 }.exits
    | _ => none
  | .test =>
    match p.here with
    | .forked recvpkg => some (p.moved (if recvpkg.IsStart then .forkingCamera else .receiving))
    | _ => none
  | .forkCamera ok =>
    match p.here with
    | .forkingCamera =>
      if ok then
        some { { p with cameraPid := pid, atExit := true }.moved (.streaming Pkg.construct) with
          child := some { p with here := .starting, cameraPid := 0, signalled := false } }
      else some { p with cameraPid := -1 }.exits
    | _ => none
  | .exec r =>
    match p.here with
    | .starting =>
      match r with
      | .dupError => some p.exits
      | .execError => some (p.moved .receiving)
      | .started => some (p.moved .camera)
    | _ => none
  | .read r ok =>
    match p.here with
    | .streaming pkg =>
      match r with
      | none => some (p.moved .receiving)
      | some bs =>
        if 0 < bs.length then
          let pkg : Pkg := Buffer.write pkg sizeofHead bs
          let pkg := (pkg.setCmd .streamDataNtf).setLen bs.length
          if ok then some { p.moved (.streaming pkg) with pkgs := [pkg] } else some p.exits
        else some (p.moved .receiving)
    | _ => none
  | .quit =>
    match p.here with
    | .camera => some (p.moved .ended)
    | _ => none
  | .signal =>
    match p.here with
    | .ended => none
    | _ => if p.signalled then some (p.moved .ended) else none

end Process

/-- All processes, the first one being the original, and the packets for which `send_pkg` has
returned 0. The process at the index `i` has the pid `i + 1`. -/
structure Family where
  processes : List Process
  pkgs : List Pkg

namespace Family

/-- `main` enters its loop. -/
def boot : Family where
  processes := [⟨.receiving, 0, 0, false, false⟩]
  pkgs := []

/-- A signal to `pid`. -/
def kill (ps : List Process) (pid : ℤ) : List Process :=
  ps.mapIdx fun i p => if pid ≤ 0 ∨ pid = i + 1 then { p with signalled := true } else p

/-- The process `i` has done `o`. -/
def apply (s : Family) (i : ℕ) (o : Outcome) : Family where
  processes := o.kills.elim id (fun pid ps => kill ps pid)
    (s.processes.set i o.self ++ o.child.toList)
  pkgs := s.pkgs ++ o.pkgs

/-- A step of the process `e.1`. -/
def step (s : Family) (e : ℕ × ProcessEvent) : Option Family :=
  match s.processes[e.1]? with
  | none => none
  | some p => (p.next (s.processes.length + 1) e.2).map (s.apply e.1)

end Family
end Client
end WawaServer
