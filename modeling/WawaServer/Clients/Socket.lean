import WawaServer.Protocol

/-!
# The socket of a client

`raspi.cpp` and `remote.cpp` block in `send` and `recv` on their one connection to the server. What
the kernel returns is a parameter: any answer to the `i`-th call, which asked for `n` bytes. An
`int` is an integer, and `int32` and `sizeT` are the conversions.
-/

namespace WawaServer

/-- Conversion to `int`. -/
def int32 (x : ℤ) : ℤ := Int.bmod x (2 ^ 32)

/-- Conversion of an `int` to `size_t`. -/
def sizeT (x : ℤ) : ℕ := (x % 2 ^ 64).toNat

/-- What `send`, `recv` and `write` return. -/
structure Kernel where
  send : ℕ → ℕ → ℤ
  recv : ℕ → ℕ → ℤ
  write : ℕ → ℕ → ℤ

/-- A call of `send` or `recv` for some bytes moves at least one of them, and `write` moves all. -/
structure Kernel.Progresses (κ : Kernel) : Prop where
  send : ∀ i n, 0 < n → 1 ≤ κ.send i n ∧ κ.send i n ≤ n
  recv : ∀ i n, 0 < n → 1 ≤ κ.recv i n ∧ κ.recv i n ≤ n
  write : ∀ i n, κ.write i n = n

/-- A connected socket. -/
structure Socket where
  /-- The bytes from the server that `recv` has not returned yet. -/
  input : List UInt8
  /-- The bytes that `send` has accepted. -/
  output : List UInt8
  /-- The number of calls so far. -/
  calls : ℕ
  /-- The offset into the packet and the count of each call. -/
  requests : List (ℤ × ℤ)

namespace Socket

/-- `send(sockfd, (char*)&pkg + off, count, 0)` -/
def send (κ : Kernel) (k : Socket) (pkg : Pkg) (off count : ℤ) : Socket × ℤ :=
  let s := κ.send k.calls (sizeT count)
  ({ k with
    output := k.output ++ Buffer.slice pkg off.toNat s.toNat
    calls := k.calls + 1
    requests := k.requests ++ [(off, count)] }, s)

/-- `recv(sockfd, (char*)&pkg + off, count, 0)`. It waits for the bytes that it returns. -/
def recv (κ : Kernel) (k : Socket) (pkg : Pkg) (off count : ℤ) : Option (Socket × Pkg × ℤ) :=
  let r := κ.recv k.calls (sizeT count)
  if k.input.length < r.toNat then none
  else
    some ({ k with
      input := k.input.drop r.toNat
      calls := k.calls + 1
      requests := k.requests ++ [(off, count)] },
      Buffer.write pkg off.toNat (k.input.take r.toNat), r)

end Socket
end WawaServer
