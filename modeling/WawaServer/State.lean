import WawaServer.Protocol
import Mathlib.Logic.Function.Basic
import Std.Data.ExtTreeMap

/-!
# The state of the server

The static variables of `server.cpp` (`channel[]`, `channel_map`, `bridge_map`) and what
the kernel keeps for the process: which descriptors are open, the bytes `send` has accepted
on each of them, and the answers it will give to the coming calls of `send`.

`calls` is history. Every function of the source records its call together with the
globals it was called on; no function reads it.
-/

namespace WawaServer

/-- A `Channel *` into `channel[CHANNEL_MAX]`. -/
abbrev Slot := Fin channelMax

instance (n : ℕ) : OfNat Slot n := ⟨Fin.ofNat channelMax n⟩

/-- A condition on the slot that was found, if any, is tested on that slot only. -/
instance (o : Option Slot) (P : Slot → Prop) [DecidablePred P] : Decidable (∀ c ∈ o, P c) :=
  Option.decidableForallMem o

/-- `ev_io`: the descriptor it watches and whether it is started. -/
structure EvIo where
  fd : ℕ
  active : Bool

/-- `pChannel` is the channel the context lies in, which the model names by its slot. -/
structure RecvCtx where
  io : EvIo
  pkg : Pkg
  len : ℕ

structure SendCtx where
  io : EvIo
  pkg : Pkg
  len : ℕ
  pSrcChannel : Option Slot

inductive ChannelStatus
  | nonActive
  | active
  | busy
deriving DecidableEq, Repr

structure Channel where
  fd : ℕ
  status : ChannelStatus
  idx : Slot
  type : ClientType
  recvCtx : RecvCtx
  sendCtx : SendCtx

/-- A `Channel` of static storage before its first use. -/
def Channel.unused : Channel where
  fd := 0
  status := .nonActive
  idx := 0
  type := .raspi
  recvCtx := { io := ⟨0, false⟩, pkg := Pkg.construct, len := 0 }
  sendCtx := { io := ⟨0, false⟩, pkg := Pkg.construct, len := 0, pSrcChannel := none }

/-- What a call of `send` returns: a count, `EAGAIN`, or another error. -/
inductive SendResult
  | sent (k : ℕ)
  | again
  | error
deriving DecidableEq, Repr

/-- What a call of `recv` returns: 0, `EAGAIN`, another error, or data. -/
inductive RecvResult
  | closed
  | again
  | error
  | data (bs : List UInt8)
deriving DecidableEq, Repr

/-- Undefined behaviour. A run of the server ends where one is met. -/
inductive Fault
  /-- `accept_cb` uses the null result of `get_free_channel`. -/
  | nullChannel
  /-- `server_send_cb` uses a null `pSrcChannel`. -/
  | nullSrcChannel
  /-- `recv` stores past the end of a `Pkg`. -/
  | recvOverflow
  /-- `send` is asked to read past the end of a `Pkg`. -/
  | sendOverread
  /-- An iterator into `channel_map` is used after its element was erased. -/
  | erasedIterator
deriving DecidableEq, Repr

/-- A function of the source and its arguments. Two calls mark points inside
`server_recv_cb`: `closed c` where the peer of `c` has closed, and `routed c pkg` where a
completed packet is handed to `handle` or `dispatch`. -/
inductive Call
  | acceptCb (fd : ℕ)
  | serverRecvCb (c : Slot)
  | serverSendCb (c : Slot)
  | closed (c : Slot)
  | routed (c : Slot) (pkg : Pkg)
  | handle (pkg : Pkg)
  | handleRegisterClientReq (pkg : Pkg)
  | handleChooseServerReq (pkg : Pkg)
  | dispatch (pkg : Pkg) (srcfd dstfd : ℕ)
  | response (pkg : Pkg)
  | checkBreakFd (type : ClientType) (fd : ℕ)
  | freeChannel (c : Slot)

/-- The variables of the process and of the kernel. -/
structure Globals where
  channel : Slot → Channel
  channelMap : Std.ExtTreeMap ℕ Slot
  bridgeMap : Std.ExtTreeMap ℕ Slot
  /-- Descriptors of accepted connections that are not closed. -/
  opened : ℕ → Bool
  /-- Bytes `send` has accepted on the connection last accepted under a descriptor. -/
  sent : ℕ → List UInt8
  /-- Answers to the next calls of `send` on a descriptor. -/
  results : ℕ → List SendResult
  /-- History: the channel whose `dispatch` of the packet in the slot's `sendCtx.pkg` was
  cut short, while that packet is not sent. -/
  cut : Slot → Option Slot
  fault : Option Fault

namespace Globals

/-- `channel_map.find(fd)` together with the test of `status` that follows every lookup. -/
def lookup (s : Globals) (fd : ℕ) : Option Slot :=
  match s.channelMap[fd]? with
  | none => none
  | some c => if (s.channel c).status = .active then some c else none

/-- `send` of `n > 0` bytes accepts between 1 and `n` of them. -/
def accepted (k n : ℕ) : ℕ := if n = 0 then 0 else max 1 (min k n)

/-- What `send(fd, _, n, 0)` returns: on a closed descriptor, an error. -/
def outcome (s : Globals) (fd n : ℕ) : SendResult :=
  if s.opened fd then
    match s.results fd with
    | [] => .again
    | .sent k :: _ => .sent (accepted k n)
    | .again :: _ => .again
    | .error :: _ => .error
  else .error

end Globals

/-- The calls so far, the last one first. -/
abbrev History := List (Call × Globals)

structure Server extends Globals where
  calls : History

namespace Server

/-- The process when `main` enters the event loop. -/
def boot : Server where
  channel := fun _ => Channel.unused
  channelMap := ∅
  bridgeMap := ∅
  opened := fun _ => false
  sent := fun _ => []
  results := fun _ => []
  cut := fun _ => none
  fault := none
  calls := []

def enter (s : Server) (k : Call) : Server :=
  { s with calls := (k, s.toGlobals) :: s.calls }

def fail (s : Server) (f : Fault) : Server := { s with fault := some f }

/-- Assign to fields of one channel. -/
def modify (s : Server) (c : Slot) (f : Channel → Channel) : Server :=
  { s with channel := Function.update s.channel c (f (s.channel c)) }

/-! ## Field assignments -/

def setStatus (s : Server) (c : Slot) (st : ChannelStatus) : Server :=
  s.modify c fun ch => { ch with status := st }

def setType (s : Server) (c : Slot) (t : ClientType) : Server :=
  s.modify c fun ch => { ch with type := t }

def setRecvLen (s : Server) (c : Slot) (n : ℕ) : Server :=
  s.modify c fun ch => { ch with recvCtx.len := n }

def setRecvPkg (s : Server) (c : Slot) (p : Pkg) : Server :=
  s.modify c fun ch => { ch with recvCtx.pkg := p }

def setSendLen (s : Server) (c : Slot) (n : ℕ) : Server :=
  s.modify c fun ch => { ch with sendCtx.len := n }

def setSrcChannel (s : Server) (c : Slot) (a : Slot) : Server :=
  s.modify c fun ch => { ch with sendCtx.pSrcChannel := some a }

/-- Write to `sendCtx.pkg`; the packet that was in it is gone. -/
def setSendPkg (s : Server) (c : Slot) (p : Pkg) : Server :=
  { s.modify c fun ch => { ch with sendCtx.pkg := p } with cut := Function.update s.cut c none }

def setCut (s : Server) (c : Slot) (a : Option Slot) : Server :=
  { s with cut := Function.update s.cut c a }

/-! ## Watchers -/

def startRecv (s : Server) (c : Slot) : Server :=
  s.modify c fun ch => { ch with recvCtx.io.active := true }

def stopRecv (s : Server) (c : Slot) : Server :=
  s.modify c fun ch => { ch with recvCtx.io.active := false }

def startSend (s : Server) (c : Slot) : Server :=
  s.modify c fun ch => { ch with sendCtx.io.active := true }

def stopSend (s : Server) (c : Slot) : Server :=
  s.modify c fun ch => { ch with sendCtx.io.active := false }

/-! ## The kernel -/

def close (s : Server) (fd : ℕ) : Server :=
  { s with opened := Function.update s.opened fd false }

/-- The state after a call of `send` that accepted nothing. -/
def popped (s : Server) (fd off n : ℕ) : Server :=
  { s with
    results := Function.update s.results fd (s.results fd).tail
    fault := if sizeofPkg < off + n then some .sendOverread else s.fault }

/-- The state after a call of `send` that accepted `k` of the `n` bytes at offset `off`. -/
def wrote (s : Server) (fd : ℕ) (p : Pkg) (off n k : ℕ) : Server :=
  { s.popped fd off n with sent := Function.update s.sent fd (s.sent fd ++ p.slice off k) }

/-- `send(fd, (char *)&p + off, n, 0)` -/
def send (s : Server) (fd : ℕ) (p : Pkg) (off n : ℕ) : Server × SendResult :=
  match s.outcome fd n with
  | .sent k => (s.wrote fd p off n k, .sent k)
  | .again => (s.popped fd off n, .again)
  | .error => (s.popped fd off n, .error)

end Server

end WawaServer
