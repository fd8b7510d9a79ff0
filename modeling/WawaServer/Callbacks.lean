import WawaServer.Handler
import WawaServer.Lib.Runs

/-!
# Callbacks and runs

The three `libev` callbacks of `server.cpp` and the runs of the event loop. An event names
the callback `libev` invokes and what the kernel answers during it. `Server.step` is `none`
for an event that cannot happen: a watcher that is not started, `accept` returning a
descriptor that is open, `recv` returning more than was asked for.
-/

namespace WawaServer

namespace Globals

/-- The count `server_recv_cb` asks `recv` for, in 64-bit unsigned arithmetic. -/
def recvCount (s : Globals) (c : Slot) : ℕ :=
  let ctx := (s.channel c).recvCtx
  (ctx.pkg.len + sizeofHead + (2 ^ 64 - ctx.len)) % 2 ^ 64

/-- The count `server_send_cb` asks `send` for, in 32-bit unsigned arithmetic. -/
def sendCount (s : Globals) (c : Slot) : ℕ :=
  let ctx := (s.channel c).sendCtx
  (ctx.pkg.len + sizeofHead + (2 ^ 32 - ctx.len)) % 2 ^ 32

end Globals

namespace Server

/-- `ev_io_init` of both watchers of a channel. -/
def initIo (s : Server) (c : Slot) (fd : ℕ) : Server :=
  s.modify c fun ch =>
    { ch with recvCtx.io := ⟨fd, false⟩, sendCtx.io := ⟨fd, false⟩ }

/-- The first slot of `channel[]` that is `NON_ACTIVE`. -/
def freeSlot (s : Server) : Option Slot :=
  (List.finRange channelMax).find? fun c => (s.channel c).status = .nonActive

def getFreeChannel (s : Server) : Server × Option Slot :=
  match s.freeSlot with
  | none => (s, none)
  | some c =>
    let s := s.setStatus c .active
    let s := s.modify c fun ch => { ch with idx := c }
    let s := s.setRecvPkg c Pkg.construct
    let s := s.setRecvLen c 0
    let s := s.setSendPkg c Pkg.construct
    let s := s.setSendLen c 0
    (s, some c)

/-- The connection of slot `a` is gone from the history of cut packets. -/
def forget (s : Server) (a : Slot) : Server :=
  { s with cut := fun d => if s.cut d = some a then none else s.cut d }

def acceptCb (s : Server) (fd : ℕ) : Server :=
  let s := s.enter (.acceptCb fd)
  let s := { s with
    opened := Function.update s.opened fd true
    sent := Function.update s.sent fd [] }
  match s.getFreeChannel with
  | (s, none) => s.fail .nullChannel
  | (s, some c) =>
    let s := s.forget c
    let s := s.modify c fun ch => { ch with fd := fd }
    let s := { s with channelMap := s.channelMap.insertIfNew fd c }
    let s := s.initIo c fd
    s.startRecv c

/-- Hand the completed packet of `c` to `handle` or `dispatch`. -/
def route (s : Server) (c : Slot) : Server :=
  let ctx := (s.channel c).recvCtx
  if ctx.pkg.fd = 0 then
    let s := s.setRecvPkg c (ctx.pkg.setFd ctx.io.fd)
    let s := s.enter (.routed c (s.channel c).recvCtx.pkg)
    (s.handle (s.channel c).recvCtx.pkg).1
  else
    let s := s.enter (.routed c ctx.pkg)
    (s.dispatch ctx.pkg ctx.io.fd ctx.pkg.fd).1

/-- `recvCtx->len += r` after `recv` stored the bytes `bs` at offset `recvCtx->len`. -/
def store (s : Server) (c : Slot) (bs : List UInt8) : Server :=
  let ctx := (s.channel c).recvCtx
  let s := s.setRecvPkg c (Buffer.write ctx.pkg ctx.len bs)
  let s := s.setRecvLen c (ctx.len + bs.length)
  if sizeofPkg < ctx.len + bs.length then s.fail .recvOverflow else s

def serverRecvCb (s : Server) (c : Slot) (r : RecvResult) : Server :=
  let s := s.enter (.serverRecvCb c)
  match r with
  | .closed =>
    let s := s.enter (.closed c)
    let s := s.freeChannel c
    s.checkBreakFd (s.channel c).type (s.channel c).recvCtx.io.fd
  | .again => s.startRecv c
  | .error => s.freeChannel c
  | .data bs =>
    let s := s.store c bs
    let ctx := (s.channel c).recvCtx
    let pkglen := ctx.pkg.len + sizeofHead
    if ctx.len < sizeofHead then s
    else if ctx.pkg.len > bufSize then s.freeChannel c
    else if ctx.len < pkglen then s.startRecv c
    else
      let s := s.route c
      let s := s.setRecvLen c 0
      s.setRecvPkg c Pkg.construct

def serverSendCb (s : Server) (c : Slot) : Server :=
  let s := s.enter (.serverSendCb c)
  let ch := s.channel c
  let len := ch.sendCtx.pkg.len + sizeofHead
  let count := s.sendCount c
  match s.send ch.fd ch.sendCtx.pkg ch.sendCtx.len count with
  | (s, .again) => s.startSend c
  | (s, .error) =>
    let s := s.checkBreakFd (s.channel c).type (s.channel c).fd
    s.freeChannel c
  | (s, .sent k) =>
    let s := s.setSendLen c ((s.channel c).sendCtx.len + k)
    if (s.channel c).sendCtx.len < len then s.startSend c
    else
      let s := s.stopSend c
      let s := s.startRecv c
      let s := s.setCut c none
      match (s.channel c).sendCtx.pSrcChannel with
      | none => s.fail .nullSrcChannel
      | some a => s.startRecv a

end Server

/-- A callback and the answers of the kernel to it: the descriptor `accept` returns (or its
failure), the result of `recv`, and for every descriptor the results of the calls of
`send`. -/
inductive Event
  | accept (fd : ℕ)
  | acceptError
  | recv (c : Slot) (r : RecvResult) (results : ℕ → List SendResult)
  | send (c : Slot) (results : ℕ → List SendResult)

/-- The slot on which an event is a `server_recv_cb`. -/
def Event.recvSlot : Event → Option Slot
  | .recv c _ _ => some c
  | _ => none

namespace Server

/-- What `recv` can return to `server_recv_cb` on `c`: between one byte and the count asked
for, and only an error on a closed descriptor. -/
def RecvOk (s : Server) (c : Slot) : RecvResult → Prop
  | .error => True
  | .data bs =>
    s.opened (s.channel c).recvCtx.io.fd = true ∧ 0 < bs.length ∧ bs.length ≤ s.recvCount c
  | .closed => s.opened (s.channel c).recvCtx.io.fd = true
  | .again => s.opened (s.channel c).recvCtx.io.fd = true

instance (s : Server) (c : Slot) : ∀ r, Decidable (s.RecvOk c r)
  | .error => inferInstanceAs (Decidable True)
  | .data _ => inferInstanceAs (Decidable (_ ∧ _ ∧ _))
  | .closed => inferInstanceAs (Decidable (_ = true))
  | .again => inferInstanceAs (Decidable (_ = true))

/-- `accept` returns descriptors that are not open; `0` is the standard input, which the
server never closes. -/
def Enabled (s : Server) : Event → Prop
  | .accept fd => 0 < fd ∧ fd < 2 ^ 31 ∧ s.opened fd = false
  | .acceptError => True
  | .recv c r _ => (s.channel c).recvCtx.io.active = true ∧ s.RecvOk c r
  | .send c _ => (s.channel c).sendCtx.io.active = true

instance (s : Server) : ∀ e, Decidable (s.Enabled e)
  | .accept _ => inferInstanceAs (Decidable (_ ∧ _ ∧ _))
  | .acceptError => inferInstanceAs (Decidable True)
  | .recv _ _ _ => inferInstanceAs (Decidable (_ ∧ _))
  | .send _ _ => inferInstanceAs (Decidable (_ = true))

/-- The callback of an event. -/
def exec (s : Server) : Event → Server
  | .accept fd => s.acceptCb fd
  | .acceptError => s
  | .recv c r results => { s with results := results }.serverRecvCb c r
  | .send c results => { s with results := results }.serverSendCb c

/-- One turn of the event loop. -/
def step (s : Server) (e : Event) : Option Server :=
  if s.fault = none ∧ s.Enabled e then some (s.exec e) else none

end Server
end WawaServer
