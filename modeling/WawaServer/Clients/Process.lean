import WawaServer.Protocol
import WawaServer.Lib.Runs

/-!
# The process of the raspi

The notification loop in `main` of `raspi.cpp` and the camera threads that it creates. They share
`camera_status` and `remotefd`. An event is an atomic step of `main` or of one thread, with what the
camera, the encoder and the kernel return; `step` is `none` where such a step cannot come next.
-/

namespace WawaServer
namespace Raspi

/-- `camera_status` -/
inductive CameraStatus
  | start
  | stop
deriving DecidableEq, Repr

/-- Where `main` is. -/
inductive MainAt
  /-- in `recv_pkg` -/
  | receiving
  /-- at `remotefd = recvpkg.stBody.stStartSendDataNtf.reserve` -/
  | assigning (reserve : ℕ)
  /-- at `pthread_create` -/
  | creating
  | returned

/-- Where a camera thread is. -/
inductive ThreadAt
  /-- before `init_camera` -/
  | created
  /-- at the test of `camera_status` -/
  | testing
  /-- in the body of that loop -/
  | looping
  /-- in the loop that sends a packet `pac_buf` of the headers; `beyond` is the memory after it -/
  | header (pkg : Pkg) (pacBuf beyond : List UInt8) (byteLeft : ℤ)
  /-- in the loop that sends an encoded picture `enc_buf` -/
  | picture (pkg : Pkg) (encBuf : List UInt8) (byteLeft : ℤ)
  /-- after the loop -/
  | closing
  | ended

/-- Between `init_camera` and the end of `camera_thread`. -/
def ThreadAt.Inside : ThreadAt → Prop
  | .created => False
  | .ended => False
  | _ => True

/-- The process. `pkgs` are the packets for which `send_pkg` has returned 0 to a camera thread. -/
structure Process where
  main : MainAt
  status : CameraStatus
  remotefd : ℕ
  threads : List ThreadAt
  pkgs : List Pkg

/-- The process when `main` enters its loop. -/
def Process.boot : Process where
  main := .receiving
  status := .start
  remotefd := 0
  threads := []
  pkgs := []

/-- A step of a camera thread. -/
inductive ThreadEvent
  | initCamera
  | test
  /-- `continue`: no data yet, or none -/
  | again
  /-- `break`: the camera or the encoder fails -/
  | leave
  /-- `pack_get` returns a packet of the headers -/
  | packGet (pacBuf beyond : List UInt8)
  /-- `encode_do` returns a picture -/
  | encodeDo (encBuf : List UInt8)
  /-- a round of a loop that sends, and whether `send_pkg` returns 0 -/
  | round (ok : Bool)
  /-- the closing calls and the end of `camera_thread` -/
  | close

/-- A step of the process. -/
inductive ProcessEvent
  /-- `recv_pkg` returns a packet, or fails. -/
  | recv (recvpkg : Option Pkg)
  | assign
  /-- Whether `pthread_create` creates a thread. Its error numbers are positive, so that the test
  `iRet < 0` never holds. -/
  | create (ok : Bool)
  | thread (i : ℕ) (e : ThreadEvent)

/-- `memcpy(pkg.stBody.stStreamDataNtf.buf, buf + off, pkg.stHead.len)` -/
def copyBody (pkg : Pkg) (buf : List UInt8) (off : ℤ) : Pkg :=
  Buffer.write pkg sizeofHead ((buf.drop off.toNat).take pkg.len)

/-- The next packet of the `len` bytes in `buf`, of which `byteLeft` are left, and how many are left
after it. -/
def nextChunk (pkg : Pkg) (buf : List UInt8) (len byteLeft : ℤ) : Pkg × ℤ :=
  if (bufSize : ℤ) ≤ byteLeft then
    (copyBody (pkg.setLen bufSize) buf (len - byteLeft), byteLeft - bufSize)
  else
    (copyBody (pkg.setLen byteLeft.toNat) buf (len - byteLeft), 0)

/-- In the loop for the headers a second `memcpy` comes after `byte_left` was lowered: it copies
what follows the bytes of this packet. -/
def nextHeaderChunk (pkg : Pkg) (pacBuf beyond : List UInt8) (byteLeft : ℤ) : Pkg × ℤ :=
  let (pkg, byteLeft) := nextChunk pkg (pacBuf ++ beyond) pacBuf.length byteLeft
  (copyBody pkg (pacBuf ++ beyond) (pacBuf.length - byteLeft), byteLeft)

/-- Where a step of a thread leads, and the packets it sends. -/
def ThreadAt.next (status : CameraStatus) (remotefd : ℕ) :
    ThreadAt → ThreadEvent → Option (ThreadAt × List Pkg)
  | .created, .initCamera => some (.testing, [])
  | .testing, .test => some (if status = .start then .looping else .closing, [])
  | .looping, .again => some (.testing, [])
  | .looping, .leave => some (.closing, [])
  | .looping, .packGet pacBuf beyond =>
    some (.header (Pkg.construct.setCmd .streamDataNtf) pacBuf beyond pacBuf.length, [])
  | .looping, .encodeDo encBuf =>
    if encBuf.length ≤ 0 then some (.testing, [])
    else
      let pkg := (Pkg.construct.setFd remotefd).setCmd .streamDataNtf
      some (.picture pkg encBuf encBuf.length, [])
  | .header pkg pacBuf beyond byteLeft, .round ok =>
    if 0 < byteLeft then
      let (pkg, byteLeft) := nextHeaderChunk pkg pacBuf beyond byteLeft
      some (if ok then (.header pkg pacBuf beyond byteLeft, [pkg]) else (.ended, []))
    else some (.looping, [])
  | .picture pkg encBuf byteLeft, .round ok =>
    if 0 < byteLeft then
      let (pkg, byteLeft) := nextChunk pkg encBuf encBuf.length byteLeft
      some (if ok then (.picture pkg encBuf byteLeft, [pkg]) else (.ended, []))
    else some (.testing, [])
  | .closing, .close => some (.ended, [])
  | _, _ => none

namespace Process

/-- What `main` does with the packet that it has received. When `main` returns the process ends, and
its threads with it. -/
def received (s : Process) : Option Pkg → Process
  | none => { s with main := .returned, threads := [] }
  | some recvpkg =>
    if recvpkg.cmd = PkgCmdType.restartClientNtf.code then { s with status := .stop }
    else if recvpkg.cmd = PkgCmdType.startSendDataNtf.code then
      { s with main := .assigning recvpkg.reserve, status := .start }
    else s

def step (s : Process) : ProcessEvent → Option Process
  | .recv recvpkg =>
    match s.main with
    | .receiving => some (s.received recvpkg)
    | _ => none
  | .assign =>
    match s.main with
    | .assigning reserve => some { s with main := .creating, remotefd := reserve }
    | _ => none
  | .create ok =>
    match s.main with
    | .creating =>
      some { s with
        main := .receiving
        threads := if ok then s.threads ++ [.created] else s.threads }
    | _ => none
  | .thread i e =>
    match s.threads[i]? with
    | none => none
    | some x =>
      match x.next s.status s.remotefd e with
      | none => none
      | some (y, ps) => some { s with threads := s.threads.set i y, pkgs := s.pkgs ++ ps }

end Process
end Raspi
end WawaServer
