import WawaServer.Clients.Socket
import WawaServer.Lib.Loop

/-!
# Receiving the video

`send_pkg` and `recv_pkg` of `remote.cpp`, and the loop in `main` that writes the bodies of the
packets to a file. `fuel` bounds the rounds of each loop.
-/

namespace WawaServer
namespace Remote

/-- A round of the loop in `send_pkg`. The state is `byte_sent`, whose overflow is not modelled, and
the socket. Every call of `send` asks for `len` bytes. -/
def sendRound (κ : Kernel) (pkg : Pkg) (len : ℤ) :
    ℤ × Socket → Option ((ℤ × Socket) ⊕ (Socket × ℤ))
  | (byteSent, k) =>
    let (k, s) := k.send κ pkg byteSent len
    if 0 ≤ s then
      let byteSent := byteSent + s
      if byteSent = len then some (.inr (k, 0)) else some (.inl (byteSent, k))
    else some (.inr (k, -1))

def sendPkg (κ : Kernel) (fuel : ℕ) (k : Socket) (pkg : Pkg) : Option (Socket × ℤ) :=
  let len := int32 (pkg.len + sizeofHead)
  Loop.run (sendRound κ pkg len) fuel (0, k)

/-- A round of a loop in `recv_pkg`. The state is `len`, the packet and the socket. It leaves with
`false` when `recv` fails. -/
def recvRound (κ : Kernel) (pkglen : ℤ) :
    ℤ × Pkg × Socket → Option ((ℤ × Pkg × Socket) ⊕ (Socket × Pkg × Bool))
  | (len, pkg, k) =>
    match k.recv κ pkg len (pkglen - len) with
    | none => none
    | some (k, pkg, r) =>
      if 0 < r then
        let len := len + r
        if len = pkglen then some (.inr (k, pkg, true)) else some (.inl (len, pkg, k))
      else some (.inr (k, pkg, false))

def recvPkg (κ : Kernel) (fuel : ℕ) (k : Socket) : Option (Socket × Pkg × ℤ) :=
  let pkg := Pkg.construct
  let pkglen : ℤ := sizeofHead
  match Loop.run (recvRound κ pkglen) fuel (0, pkg, k) with
  | none => none
  | some (k, pkg, false) => some (k, pkg, -1)
  | some (k, pkg, true) =>
    let len := pkglen
    let pkglen := int32 (pkglen + pkg.len)
    if bufSize + sizeofHead < sizeT pkglen then some (k, pkg, -2)
    else
      match Loop.run (recvRound κ pkglen) fuel (len, pkg, k) with
      | none => none
      | some (k, pkg, false) => some (k, pkg, -1)
      | some (k, pkg, true) => some (k, pkg, 0)

/-- The viewer: its socket, what is in the file, and the number of calls of `write`. -/
structure Viewer where
  sock : Socket
  file : List UInt8
  writes : ℕ

/-- `write(filefd, recvpkg.stBody.stStreamDataNtf.buf, recvpkg.stHead.len)` -/
def Viewer.write (κ : Kernel) (v : Viewer) (recvpkg : Pkg) : Viewer :=
  let w := κ.write v.writes recvpkg.len
  { v with
    file := v.file ++ Buffer.slice recvpkg sizeofHead w.toNat
    writes := v.writes + 1 }

/-- A round of the loop in `main` that writes the file. -/
def writeRound (κ : Kernel) (fuel : ℕ) (v : Viewer) : Option (Viewer ⊕ (Viewer × ℤ)) :=
  match recvPkg κ fuel v.sock with
  | none => none
  | some (k, recvpkg, iRet) =>
    let v := { v with sock := k }
    if iRet ≠ 0 then some (.inr (v, -1)) else some (.inl (v.write κ recvpkg))

/-- The loop in `main` that writes the file. -/
def writeLoop (κ : Kernel) (fuel : ℕ) (v : Viewer) : Option (Viewer × ℤ) :=
  Loop.run (writeRound κ fuel) fuel v

end Remote
end WawaServer
