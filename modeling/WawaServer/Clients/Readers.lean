import WawaServer.Clients.Remote

/-!
# The readers on the raspi

`recv_pkg` of `raspi.cpp` and of `client.cpp`. Their two loops are those of `remote.cpp`, but they
do not look at the length between them.
-/

namespace WawaServer

open Remote (recvRound)

def Raspi.recvPkg (κ : Kernel) (fuel : ℕ) (k : Socket) : Option (Socket × Pkg × ℤ) :=
  let pkg := Pkg.construct
  let pkglen : ℤ := sizeofHead
  match Loop.run (recvRound κ pkglen) fuel (0, pkg, k) with
  | none => none
  | some (k, pkg, false) => some (k, pkg, -1)
  | some (k, pkg, true) =>
    let len := pkglen
    let pkglen := int32 (pkglen + pkg.len)
    match Loop.run (recvRound κ pkglen) fuel (len, pkg, k) with
    | none => none
    | some (k, pkg, false) => some (k, pkg, -1)
    | some (k, pkg, true) => some (k, pkg, 0)

def Client.recvPkg (κ : Kernel) (fuel : ℕ) (k : Socket) : Option (Socket × Pkg × ℤ) :=
  let pkg := Pkg.construct
  let pkglen : ℤ := sizeofHead
  match Loop.run (recvRound κ pkglen) fuel (0, pkg, k) with
  | none => none
  | some (k, pkg, false) => some (k, pkg, -1)
  | some (k, pkg, true) =>
    let len := pkglen
    let pkglen := int32 (pkglen + pkg.len)
    match Loop.run (recvRound κ pkglen) fuel (len, pkg, k) with
    | none => none
    | some (k, pkg, false) => some (k, pkg, -1)
    | some (k, pkg, true) => some (k, pkg, 0)

/-- The three programs that have a `recv_pkg`. -/
inductive Reader
  | remote
  | raspi
  | client

namespace Reader

def recvPkg : Reader → Kernel → ℕ → Socket → Option (Socket × Pkg × ℤ)
  | remote => Remote.recvPkg
  | raspi => Raspi.recvPkg
  | client => Client.recvPkg

/-- What `pkglen` leads to -2 after the first loop: only `remote.cpp` has such a test. -/
def BadLen : Reader → ℤ → Prop
  | remote, pkglen => bufSize + sizeofHead < sizeT pkglen
  | raspi, _ => False
  | client, _ => False

/-- The first loop ends with the head in `pkg`. -/
def HeadReceived (κ : Kernel) (k l : Socket) (pkg : Pkg) : Prop :=
  ∃ n, Loop.run (recvRound κ sizeofHead) n (0, Pkg.construct, k) = some (l, pkg, true)

/-- `recv` is called with this offset and this count, whether or not the call returns. -/
inductive Requests (x : Reader) (κ : Kernel) (k : Socket) : ℤ × ℤ → Prop
  | head {n : ℕ} {len : ℤ} {pkg : Pkg} {l : Socket}
      (h : Loop.rounds (recvRound κ sizeofHead) n (0, Pkg.construct, k) = some (len, pkg, l)) :
      Requests x κ k (len, sizeofHead - len)
  | body {n : ℕ} {pkglen len : ℤ} {pkg q : Pkg} {l m : Socket} (hhead : HeadReceived κ k l pkg)
      (hlen : pkglen = int32 (sizeofHead + pkg.len)) (hbad : ¬ x.BadLen pkglen)
      (h : Loop.rounds (recvRound κ pkglen) n (sizeofHead, pkg, l) = some (len, q, m)) :
      Requests x κ k (len, pkglen - len)

end Reader
end WawaServer
