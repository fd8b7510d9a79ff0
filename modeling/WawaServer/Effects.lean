import WawaServer.History
import Mathlib.Logic.Relation

/-!
# Effects

What a callback can do to the state, said once. An `Effect` is a piece of a callback between
two points of it, with the facts the code has established there; `Effects` is a sequence of
them. The theorems of `Decomposition.lean` split every function of the source into effects,
and an invariant of the server is then one case analysis over `Effect`.

Effects leave the receive buffers alone. What `server_recv_cb` does to the buffer of its own
channel is the business of `Receive.lean`.
-/

namespace WawaServer

/-- The entries of `channel_map` that a list of raspis for `c` shows. -/
def Globals.raspisFor (s : Globals) (c : Slot) : List (ℕ × Slot) :=
  s.channelMap.toList.filter fun e =>
    (s.channel e.2).status = .active ∧ (s.channel e.2).type = .raspi ∧ e.2 ≠ c

/-- The descriptors that `handle_register_client_req` writes to the list it makes for `c`. -/
def Globals.listed (s : Globals) (c : Slot) : ClientType → List ℕ
  | .raspi => []
  | .remote => ((s.raspisFor c).map fun e => (s.channel e.2).fd).take 8

/-- Write descriptors to `stRegisterClientRes.fd[i]` and after it. -/
def Pkg.setRaspiFds (p : Pkg) (i : ℕ) : List ℕ → Pkg
  | [] => p
  | fd :: fds => (p.setRaspiFd i fd).setRaspiFds (i + 1) fds

/-- `send` of `n` bytes stops short, after `k` bytes: none of them at `EAGAIN`. -/
inductive Globals.CutShort (s : Globals) (fd n : ℕ) : ℕ → Prop
  | again : s.outcome fd n = .again → CutShort s fd n 0
  | short {k : ℕ} : s.outcome fd n = .sent k → k < n → CutShort s fd n k

theorem Globals.CutShort.lt {s : Globals} {fd n k : ℕ} (h : s.CutShort fd n k) (hn : 0 < n) :
    k < n := by
  cases h with
  | again => exact hn
  | short _ hk => exact hk

theorem Globals.CutShort.outcome_ne {s : Globals} {fd n k : ℕ} (h : s.CutShort fd n k) :
    s.outcome fd n ≠ .error ∧ s.outcome fd n ≠ .sent n := by
  cases h with
  | again ho => simp [ho]
  | short ho hk => simp [ho, hk.ne]

/-- What `send` answers when `check_break_fd` notifies the raspi in slot `r`. -/
def Globals.restartOutcome (s : Globals) (r : Slot) : SendResult :=
  s.outcome (s.channel r).fd (sizeofInt + sizeofHead)

/-- A call whose work, if any, is in the effects after it. A choose request is handled for the
connection whose packet was handed over, and a register request for nobody or with no valid
type. -/
def Server.Plain (s : Server) : Call → Prop
  | .serverRecvCb _ => True
  | .handle _ => True
  | .handleRegisterClientReq pkg => s.channelMap[pkg.fd]? = none ∨ pkg.registers = none
  | .handleChooseServerReq pkg => s.calls.sender = s.calls.conn pkg.fd
  | .checkBreakFd type fd => type = .remote → s.bridgeMap[fd]? = none
  | .dispatch pkg srcfd dstfd =>
    s.channelMap[srcfd]? = none ∨ s.channelMap[dstfd]? = none ∨ bufSize < pkg.len
  | _ => False

namespace Server

/-- The choose request that is being answered is that of the connection last accepted under `fd`,
and it chose the raspi `d`. -/
structure Chose (l : History) (fd : ℕ) (d : Slot) : Prop where
  target : l.target = some d
  asker : l.asker = l.conn fd
  choosing : l.choosing = some (fd, d)

/-! ## Points inside the functions -/

/-- `response` to `c` before its `send`, for the packet `p` built in `c`'s own buffer. -/
def replying (s : Server) (c : Slot) (p : Pkg) : Server :=
  ((s.setSendPkg c p).enter (.response p)).setSendLen c 0

/-- `response` to `c` before its `send`, for the packet of `check_break_fd`. -/
def notifying (s : Server) (fd : ℕ) (c : Slot) (p : Pkg) : Server :=
  ((s.enter (.checkBreakFd .remote fd)).enter (.response p)).setSendLen c 0

/-- `check_break_fd` after its `response`. -/
def unbridged (s : Server) (fd : ℕ) (r : Slot) : Server :=
  { s.setStatus r .active with bridgeMap := s.bridgeMap.erase fd }

/-- `dispatch` before its `send`. -/
def relaying (s : Server) (pkg : Pkg) (srcfd dstfd : ℕ) (d : Slot) : Server :=
  ((s.enter (.dispatch pkg srcfd dstfd)).setSendPkg d
    (copyFrame (s.channel d).sendCtx.pkg pkg)).setSendLen d 0

/-- `dispatch` when its `send` was cut short. -/
def pausing (s : Server) (a d : Slot) : Server :=
  (((s.stopRecv a).startSend d).setSrcChannel d a).setCut d (some a)

/-- `server_send_cb` after its `send`. -/
def sending (s : Server) (c : Slot) (k : ℕ) : Server :=
  let ctx := (s.channel c).sendCtx
  ((s.enter (.serverSendCb c)).wrote (s.channel c).fd ctx.pkg ctx.len (s.sendCount c) k).setSendLen
    c (ctx.len + k)

/-- `server_send_cb` at the end of a packet, before the source is resumed. -/
def finishing (s : Server) (c : Slot) (k : ℕ) : Server :=
  (((s.sending c k).stopSend c).startRecv c).setCut c none

/-! ## The facts at these points -/

/-- The START in `p` is for the raspi `c` that was chosen, and carries the descriptor of the
connection that chose it, which is still that connection's. -/
structure Starts (s : Server) (c : Slot) (p : Pkg) : Prop where
  target : s.calls.target = some c
  reserve : p.reserve = s.calls.asker.1
  current : s.calls.Current s.calls.asker

/-- `p` is addressed to the channel `c` that owns its descriptor. -/
structure Replies (s : Server) (c : Slot) (p : Pkg) : Prop where
  live : s.channelMap[p.fd]? = some c
  len : p.len ≤ bufSize
  start : p.IsStart → s.Starts c p

/-- `dispatch` found both channels and the packet is not too long. -/
structure Relays (s : Server) (pkg : Pkg) (srcfd dstfd : ℕ) (a d : Slot) : Prop where
  src : s.channelMap[srcfd]? = some a
  dst : s.channelMap[dstfd]? = some d
  fd : pkg.fd = dstfd
  len : pkg.len ≤ bufSize

/-- `check_break_fd` found `r` for the viewer `fd`, and `c` owns `r`'s descriptor. -/
structure Notifies (s : Server) (fd : ℕ) (r c : Slot) : Prop where
  bridge : s.bridgeMap[fd]? = some r
  live : s.channelMap[(s.channel r).fd]? = some c

/-- `c` may be freed: it owns its descriptor, nobody does, or the callback is its own. -/
def Freeable (s : Server) (c : Slot) : Prop :=
  (s.channel c).fd ≠ 0 ∧
    (s.Live c ∨ s.channelMap[(s.channel c).fd]? = none ∨
      (s.channel c).recvCtx.io.active = true ∨ (s.channel c).sendCtx.io.active = true)

/-- One effect of a callback. -/
inductive Effect (s : Server) : Server → Prop
  /-- A call that changes nothing by itself. -/
  | log (k : Call) (h : s.Plain k) : Effect s (s.enter k)
  /-- The kernel's answers to this callback. -/
  | answers (q : ℕ → List SendResult) : Effect s { s with results := q }
  | fail (f : Fault) : Effect s (s.fail f)
  | free (c : Slot) (h : s.Freeable c) (hcl : s.calls.closing = false) : Effect s (s.freed c)
  /-- `handle_register_client_req` sets the type of the requester. -/
  | register (pkg : Pkg) (c : Slot) (t : ClientType) (h : s.channelMap[pkg.fd]? = some c)
      (ht : pkg.clientType = t.code) :
      Effect s ((s.enter (.handleRegisterClientReq pkg)).setType c t)
  /-- `handle_register_client_req` gives up with the list of raspis half written. -/
  | listFull (pkg : Pkg) (c : Slot) (p : Pkg) (h : s.channelMap[pkg.fd]? = some c)
      (ht : pkg.clientType = ClientType.remote.code) (hfull : 8 ≤ (s.raspisFor c).length)
      (hfd : p.fd = pkg.fd) (hlen : p.len = sizeofRegisterClientRes) (hcmd : ¬ p.IsStart) :
      Effect s (((s.enter (.handleRegisterClientReq pkg)).setType c .remote).setSendPkg c p)
  | replyCut (c : Slot) (p : Pkg) (k : ℕ) (h : s.Replies c p) (ho : s.CutShort p.fd p.total k) :
      Effect s ((((s.replying c p).wrote p.fd p 0 p.total k).setSendLen c k).startSend c)
  | replyDone (c : Slot) (p : Pkg) (h : s.Replies c p)
      (ho : s.outcome p.fd p.total = .sent p.total) :
      Effect s (((s.replying c p).wrote p.fd p 0 p.total p.total).startRecv c)
  | replyFail (c : Slot) (p : Pkg) (h : s.Replies c p) (ho : s.outcome p.fd p.total = .error) :
      Effect s ((s.replying c p).popped p.fd 0 p.total)
  /-- `handle_choose_server_req` rewrites the buffer of `d`, and `response` delivers to
  nobody. -/
  | startLost (d : Slot) (p : Pkg) (hfd : p.fd = (s.channel d).sendCtx.pkg.fd)
      (hlen : p.len = sizeofInt) (h : p.fd = 0 ∨ (s.channel d).sendCtx.io.active = false)
      (hst : s.Starts d p) (hnone : s.channelMap[p.fd]? = none) :
      Effect s ((s.setSendPkg d p).enter (.response p))
  | bridge (fd : ℕ) (d : Slot) (h : Chose s.calls fd d) :
      Effect s { s with bridgeMap := s.bridgeMap.insertIfNew fd d }
  /-- The bridged descriptor belongs to nobody. -/
  | breakLost (fd : ℕ) (r : Slot) (h : s.bridgeMap[fd]? = some r)
      (hr : s.channelMap[(s.channel r).fd]? = none) :
      Effect s (((s.enter (.checkBreakFd .remote fd)).enter
        (.response (restartPkg (s.channel r).fd))).unbridged fd r)
  | breakCut (fd : ℕ) (r c : Slot) (p : Pkg) (k : ℕ) (h : s.Notifies fd r c)
      (hp : p = restartPkg (s.channel r).fd) (ho : s.CutShort p.fd p.total k) :
      Effect s (((((s.notifying fd c p).wrote p.fd p 0 p.total k).setSendLen c k).startSend
        c).unbridged fd r)
  | breakDone (fd : ℕ) (r c : Slot) (p : Pkg) (h : s.Notifies fd r c)
      (hp : p = restartPkg (s.channel r).fd) (ho : s.outcome p.fd p.total = .sent p.total) :
      Effect s ((((s.notifying fd c p).wrote p.fd p 0 p.total p.total).startRecv c).unbridged fd r)
  | breakFail (fd : ℕ) (r c : Slot) (p : Pkg) (h : s.Notifies fd r c)
      (hp : p = restartPkg (s.channel r).fd) (ho : s.outcome p.fd p.total = .error) :
      Effect s ((((s.notifying fd c p).popped p.fd 0 p.total).freed c).unbridged fd r)
  | relayCut (pkg : Pkg) (srcfd dstfd : ℕ) (a d : Slot) (k : ℕ) (h : s.Relays pkg srcfd dstfd a d)
      (ho : s.CutShort dstfd pkg.total k) :
      Effect s ((((s.relaying pkg srcfd dstfd d).wrote dstfd pkg 0 pkg.total k).setSendLen
        d k).pausing a d)
  | relayDone (pkg : Pkg) (srcfd dstfd : ℕ) (a d : Slot) (h : s.Relays pkg srcfd dstfd a d)
      (ho : s.outcome dstfd pkg.total = .sent pkg.total) :
      Effect s ((((s.relaying pkg srcfd dstfd d).wrote dstfd pkg 0 pkg.total pkg.total).stopSend
        d).startRecv a)
  | relayFail (pkg : Pkg) (srcfd dstfd : ℕ) (a d : Slot) (h : s.Relays pkg srcfd dstfd a d)
      (ho : s.outcome dstfd pkg.total = .error) :
      Effect s ((s.relaying pkg srcfd dstfd d).popped dstfd 0 pkg.total)
  /-- `server_send_cb` has more to send. -/
  | sendMore (c : Slot) (k : ℕ) (h : (s.channel c).sendCtx.io.active = true)
      (ho : s.outcome (s.channel c).fd (s.sendCount c) = .again ∧ k = 0 ∨
        s.outcome (s.channel c).fd (s.sendCount c) = .sent k ∧
          (s.channel c).sendCtx.len + k < (s.channel c).sendCtx.pkg.total) :
      Effect s (s.sending c k)
  | sendOver (c : Slot) (k : ℕ) (a : Slot) (h : (s.channel c).sendCtx.io.active = true)
      (ho : s.outcome (s.channel c).fd (s.sendCount c) = .sent k)
      (hk : (s.channel c).sendCtx.pkg.total ≤ (s.channel c).sendCtx.len + k)
      (ha : (s.channel c).sendCtx.pSrcChannel = some a) :
      Effect s ((s.finishing c k).startRecv a)
  | sendNull (c : Slot) (k : ℕ) (h : (s.channel c).sendCtx.io.active = true)
      (ho : s.outcome (s.channel c).fd (s.sendCount c) = .sent k)
      (hk : (s.channel c).sendCtx.pkg.total ≤ (s.channel c).sendCtx.len + k)
      (ha : (s.channel c).sendCtx.pSrcChannel = none) :
      Effect s ((s.finishing c k).fail .nullSrcChannel)
  | sendFail (c : Slot) (h : (s.channel c).sendCtx.io.active = true)
      (ho : s.outcome (s.channel c).fd (s.sendCount c) = .error) :
      Effect s ((s.enter (.serverSendCb c)).popped (s.channel c).fd (s.channel c).sendCtx.len
        (s.sendCount c))

/-- A sequence of effects. -/
abbrev Effects : Server → Server → Prop := Relation.ReflTransGen Effect

end Server
end WawaServer
