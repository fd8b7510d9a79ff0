import WawaServer.Clients.Socket
import WawaServer.Lib.Loop

/-!
# Sending the video

`send_pkg` of `raspi.cpp` and of `client.cpp`, and the two loops in `camera_thread` that cut the
packed headers and an encoded picture into packets. `fuel` bounds the rounds of each loop.
-/

namespace WawaServer
namespace Raspi

/-- A round of the loop in `send_pkg`. The state is `byte_sent` and the socket. -/
def sendRound (κ : Kernel) (pkg : Pkg) (len : ℤ) :
    ℤ × Socket → Option ((ℤ × Socket) ⊕ (Socket × ℤ))
  | (byteSent, k) =>
    let (k, s) := k.send κ pkg byteSent (len - byteSent)
    if 0 ≤ s then
      let byteSent := byteSent + s
      if byteSent = len then some (.inr (k, 0)) else some (.inl (byteSent, k))
    else some (.inr (k, -1))

def sendPkg (κ : Kernel) (fuel : ℕ) (k : Socket) (pkg : Pkg) : Option (Socket × ℤ) :=
  let len := int32 (pkg.len + sizeofHead)
  Loop.run (sendRound κ pkg len) fuel (0, k)

end Raspi

/-- `send_pkg` of `client.cpp`, which is that of `raspi.cpp` but for a log line. -/
def Client.sendPkg (κ : Kernel) (fuel : ℕ) (k : Socket) (pkg : Pkg) : Option (Socket × ℤ) :=
  let len := int32 (pkg.len + sizeofHead)
  Loop.run (Raspi.sendRound κ pkg len) fuel (0, k)

namespace Raspi

/-- The camera thread: its socket, the packets it has called `send_pkg` with, and whether a `memcpy`
has read outside of `pac_buf` or `enc_buf`. -/
structure Camera where
  sock : Socket
  pkgs : List Pkg
  overread : Bool

/-- `memcpy(pkg.stBody.stStreamDataNtf.buf, (char*)enc_buf + off, n)` -/
def Camera.copy (c : Camera) (pkg : Pkg) (encBuf : List UInt8) (off : ℤ) (n : ℕ) : Camera × Pkg :=
  ({ c with overread := c.overread || decide (off < 0 ∨ encBuf.length < off + n) },
    Buffer.write pkg sizeofHead ((encBuf.drop off.toNat).take n))

def Camera.sendPkg (κ : Kernel) (fuel : ℕ) (c : Camera) (pkg : Pkg) : Option (Camera × ℤ) :=
  (Raspi.sendPkg κ fuel c.sock pkg).map fun (k, iRet) =>
    ({ c with sock := k, pkgs := c.pkgs ++ [pkg] }, iRet)

/-- `memcpy(pkg.stBody.stStreamDataNtf.buf, (char*)pac_buf + off, n)`. The memory after `pac_buf` is
`beyond`. -/
def Camera.copyHeader (c : Camera) (pkg : Pkg) (pacBuf beyond : List UInt8) (off : ℤ) (n : ℕ) :
    Camera × Pkg :=
  ({ c with overread := c.overread || decide (off < 0 ∨ pacBuf.length < off + n) },
    Buffer.write pkg sizeofHead (((pacBuf ++ beyond).drop off.toNat).take n))

/-- A round of the header loop. The state is `pkg`, `byte_left` and the thread. It leaves with
`false` when the thread returns. -/
def headerRound (κ : Kernel) (fuel : ℕ) (pacBuf beyond : List UInt8) :
    Pkg × ℤ × Camera → Option ((Pkg × ℤ × Camera) ⊕ (Camera × Bool))
  | (pkg, byteLeft, c) =>
    let pacLen : ℤ := pacBuf.length
    if 0 < byteLeft then
      let (c, pkg, byteLeft) :=
        if (bufSize : ℤ) ≤ byteLeft then
          let pkg := pkg.setLen bufSize
          let (c, pkg) := c.copyHeader pkg pacBuf beyond (pacLen - byteLeft) pkg.len
          (c, pkg, byteLeft - bufSize)
        else
          let pkg := pkg.setLen byteLeft.toNat
          let (c, pkg) := c.copyHeader pkg pacBuf beyond (pacLen - byteLeft) pkg.len
          (c, pkg, (0 : ℤ))
      -- the stream loop has no such copy
      let (c, pkg) := c.copyHeader pkg pacBuf beyond (pacLen - byteLeft) pkg.len
      match c.sendPkg κ fuel pkg with
      | none => none
      | some (c, iRet) =>
        if iRet ≠ 0 then some (.inr (c, false)) else some (.inl (pkg, byteLeft, c))
    else some (.inr (c, true))

/-- The packets of one output of `pack_get`. -/
def headerLoop (κ : Kernel) (fuel : ℕ) (c : Camera) (pacBuf beyond : List UInt8) :
    Option (Camera × Bool) :=
  let pkg := Pkg.construct.setCmd .streamDataNtf
  Loop.run (headerRound κ fuel pacBuf beyond) fuel (pkg, pacBuf.length, c)

/-- A round of the stream loop. The state is `pkg`, `byte_left` and the thread. It leaves with
`false` when the thread returns. -/
def streamRound (κ : Kernel) (fuel : ℕ) (encBuf : List UInt8) :
    Pkg × ℤ × Camera → Option ((Pkg × ℤ × Camera) ⊕ (Camera × Bool))
  | (pkg, byteLeft, c) =>
    let encLen : ℤ := encBuf.length
    if 0 < byteLeft then
      let (c, pkg, byteLeft) :=
        if (bufSize : ℤ) ≤ byteLeft then
          let pkg := pkg.setLen bufSize
          let (c, pkg) := c.copy pkg encBuf (encLen - byteLeft) pkg.len
          (c, pkg, byteLeft - bufSize)
        else
          let pkg := pkg.setLen byteLeft.toNat
          let (c, pkg) := c.copy pkg encBuf (encLen - byteLeft) pkg.len
          (c, pkg, (0 : ℤ))
      match c.sendPkg κ fuel pkg with
      | none => none
      | some (c, iRet) =>
        if iRet ≠ 0 then some (.inr (c, false)) else some (.inl (pkg, byteLeft, c))
    else some (.inr (c, true))

/-- The packets of one encoded picture, for the viewer `remotefd`. -/
def streamLoop (κ : Kernel) (fuel : ℕ) (c : Camera) (remotefd : ℕ) (encBuf : List UInt8) :
    Option (Camera × Bool) :=
  let pkg := (Pkg.construct.setFd remotefd).setCmd .streamDataNtf
  Loop.run (streamRound κ fuel encBuf) fuel (pkg, encBuf.length, c)

/-- The stream loops that `camera_thread` runs through for the outputs of `encode_do`, each with the
`remotefd` of that moment. It has none for an empty output. -/
def streamLoops (κ : Kernel) (fuel : ℕ) : Camera → List (ℕ × List UInt8) → Option (Camera × Bool)
  | c, [] => some (c, true)
  | c, (remotefd, encBuf) :: rest =>
    if encBuf.length ≤ 0 then streamLoops κ fuel c rest
    else
      match streamLoop κ fuel c remotefd encBuf with
      | none => none
      | some (c, false) => some (c, false)
      | some (c, true) => streamLoops κ fuel c rest

end Raspi
end WawaServer
