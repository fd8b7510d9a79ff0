import WawaServer.State
import WawaServer.Lib.Runs

/-!
# The event loop of the raspi

`raspi_ev.cpp`: one connection, a watcher for reading it and one for writing it, and static packets
and counters that the callbacks share. `step` runs a callback whose watcher is started. An `int`
that counts bytes is a natural number.
-/

namespace WawaServer
namespace RaspiEv

/-- The static variables, and what the kernel keeps for the connection. -/
structure State where
  /-- `raspi_send_io` is started. -/
  sendIo : Bool
  /-- `raspi_recv_io` is started. -/
  recvIo : Bool
  sendPkg : Pkg
  sendLen : ℕ
  recvPkg : Pkg
  recvLen : ℕ
  /-- `sockfd` is not closed. -/
  opened : Bool
  /-- The bytes that `send` has accepted. -/
  output : List UInt8
  /-- A call of `send` has asked for bytes outside of `send_pkg`. -/
  overread : Bool
  /-- A call of `recv` has stored bytes past the end of `recv_pkg`. -/
  overrun : Bool

namespace State

/-- `send(sockfd, (char*)&send_pkg + off, n, 0)`, when the kernel means to return `q`. -/
def send (s : State) (off n : ℕ) (q : SendResult) : State × SendResult :=
  let s := { s with overread := s.overread || decide (sizeofPkg < off + n) }
  match q with
  | .sent k =>
    let k := Globals.accepted k n
    ({ s with output := s.output ++ Buffer.slice s.sendPkg off k }, .sent k)
  | .again => (s, .again)
  | .error => (s, .error)

def sendPkg2Server (s : State) (q : SendResult) : State × ℤ :=
  match s.send 0 (sizeofHead + s.sendPkg.len) q with
  | (s, .again) => ({ s with recvIo := false, sendIo := true }, 0)
  | (s, .error) => ({ s with sendIo := false, opened := false }, -1)
  | (s, .sent k) =>
    if k < s.sendLen then
      ({ s with sendLen := s.sendLen + k, recvIo := false, sendIo := true }, 1)
    else ({ s with sendIo := true, recvIo := true }, 0)

/-- `pkg` is `recv_pkg`. What `read` returns is `stdin`: an error, or bytes, which are none at the
end of the file. -/
def handleStartSendDataNtf (s : State) (stdin : Option (List UInt8)) (q : SendResult) :
    State × ℤ :=
  let s := { s with sendPkg := Pkg.construct }
  match stdin with
  | none => (s, 0)
  | some bs =>
    let s := { s with sendPkg := Buffer.write s.sendPkg sizeofHead bs }
    if 0 < bs.length then
      let s := { s with recvPkg := (s.recvPkg.setCmd .streamDataNtf).setLen bs.length }
      s.sendPkg2Server q
    else ({ s with recvPkg := Pkg.construct }, 0)

/-- `handle_pkg(recv_pkg)` -/
def handlePkg (s : State) (stdin : Option (List UInt8)) (q : SendResult) : State × ℤ :=
  if s.recvPkg.cmd = PkgCmdType.registerClientRes.code then (s, 0)
  else if s.recvPkg.cmd = PkgCmdType.restartClientNtf.code then (s, 0)
  else if s.recvPkg.cmd = PkgCmdType.startSendDataNtf.code then s.handleStartSendDataNtf stdin q
  else (s, -1)

/-- The count that `recv_cb` asks `recv` for, in 64-bit unsigned arithmetic. -/
def recvCount (s : State) : ℕ := (s.recvPkg.len + sizeofHead + (2 ^ 64 - s.recvLen)) % 2 ^ 64

/-- `recv_len += r` after `recv` stored the bytes `bs` at offset `recv_len`. -/
def store (s : State) (bs : List UInt8) : State :=
  { s with
    recvPkg := Buffer.write s.recvPkg s.recvLen bs
    recvLen := s.recvLen + bs.length
    overrun := s.overrun || decide (sizeofPkg < s.recvLen + bs.length) }

def recvCb (s : State) (r : RecvResult) (stdin : Option (List UInt8)) (q : SendResult) : State :=
  match r with
  | .closed => { s with recvIo := false, opened := false }
  | .again => { s with sendIo := false, recvIo := true }
  | .error => { s with recvIo := false, sendIo := false, opened := false }
  | .data bs =>
    let s := s.store bs
    let pkglen := s.recvPkg.len + sizeofHead
    if s.recvLen < sizeofHead then s
    else if bufSize < s.recvPkg.len then
      { s with recvIo := false, sendIo := false, opened := false }
    else if s.recvLen < pkglen then { s with sendIo := false, recvIo := true }
    else
      let s := (s.handlePkg stdin q).1
      { s with recvLen := 0, recvPkg := Pkg.construct, recvIo := false }

def sendCb (s : State) (q : SendResult) : State :=
  let len := s.sendLen + sizeofHead
  match s.send s.sendLen (len - s.sendLen) q with
  | (s, .again) => { s with recvIo := false, sendIo := true }
  | (s, .error) => { s with sendIo := false, opened := false }
  | (s, .sent k) =>
    if s.sendLen < len then { s with sendLen := s.sendLen + k, recvIo := false, sendIo := true }
    else { s with sendIo := false, recvIo := true }

/-- `init`, when the loop is not yet running. -/
def init : State where
  sendIo := false
  recvIo := false
  sendPkg := Pkg.construct
  sendLen := 0
  recvPkg := Pkg.construct
  recvLen := 0
  opened := true
  output := []
  overread := false
  overrun := false

end State

/-- A callback, and what the kernel returns to it: to `recv`, to `read` on the standard input and to
`send`, as far as they are called. -/
inductive Event
  | recv (r : RecvResult) (stdin : Option (List UInt8)) (q : SendResult)
  | send (q : SendResult)

namespace State

/-- The register request is built in `send_pkg`; its `stHead.len` stays 0. -/
def registerPkg : Pkg :=
  Buffer.setWord (Pkg.construct.setCmd .registerClientReq) sizeofHead ClientType.raspi.code

/-- `main`, up to the event loop; `q` is what its call of `send` returns. -/
def boot (q : SendResult) : State :=
  let s := { init with sendPkg := registerPkg }
  let s := (s.sendPkg2Server q).1
  { s with sendIo := true, recvIo := true }

/-- `recv` returns between one byte and the count asked for, and `read` no more than `BUF_SIZE`. -/
def Enabled (s : State) : Event → Prop
  | .recv r stdin _ => s.recvIo = true ∧ s.opened = true ∧
      (∀ bs, r = .data bs → 0 < bs.length ∧ bs.length ≤ s.recvCount) ∧
      ∀ bs ∈ stdin, bs.length ≤ bufSize
  | .send _ => s.sendIo = true ∧ s.opened = true

def exec (s : State) : Event → State
  | .recv r stdin q => s.recvCb r stdin q
  | .send q => s.sendCb q

instance (s : State) : ∀ r : RecvResult,
    Decidable (∀ bs, r = .data bs → 0 < bs.length ∧ bs.length ≤ s.recvCount)
  | .data bs => decidable_of_iff (0 < bs.length ∧ bs.length ≤ s.recvCount)
      ⟨fun h _ heq => by cases heq; exact h, fun h => h bs rfl⟩
  | .closed => .isTrue (fun _ heq => by cases heq)
  | .again => .isTrue (fun _ heq => by cases heq)
  | .error => .isTrue (fun _ heq => by cases heq)

instance (s : State) : ∀ e, Decidable (s.Enabled e)
  | .recv _ _ _ => inferInstanceAs (Decidable (_ ∧ _ ∧ _ ∧ _))
  | .send _ => inferInstanceAs (Decidable (_ ∧ _))

/-- One turn of the event loop. -/
def step (s : State) (e : Event) : Option State :=
  if s.Enabled e then some (s.exec e) else none

/-- A state between two callbacks. -/
def Reachable (s : State) : Prop := ∃ q, Runs.Reaches step (boot q) s

end State
end RaspiEv
end WawaServer
