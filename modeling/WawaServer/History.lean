import WawaServer.StateTheorems

/-!
# What the history tells

Conditions on a state that the recorded calls are judged by, and facts about the past that no
variable holds, read off those calls.

A connection is named by its descriptor and the number of times `accept` has returned it, so that
connections which shared a descriptor differ. `startOf` is the connection whose choose request
caused the START in a send buffer, and `outbox` is what a connection was sent. A message counts
as sent when its last byte is accepted.
-/

namespace WawaServer

/-- The channel owns its descriptor: it is the one `channel_map` holds there. -/
def Globals.Live (s : Globals) (c : Slot) : Prop := s.channelMap[(s.channel c).fd]? = some c

instance (s : Globals) (c : Slot) : Decidable (s.Live c) :=
  inferInstanceAs (Decidable (_ = some c))

/-- `server_send_cb` on `c` reaches the end of the packet. -/
def Globals.Completes (s : Globals) (c : Slot) : Prop :=
  match s.outcome (s.channel c).fd (s.sendCount c) with
  | .sent k => (s.channel c).sendCtx.pkg.total ≤ (s.channel c).sendCtx.len + k
  | _ => False

instance (s : Globals) (c : Slot) : Decidable (s.Completes c) := by
  unfold Globals.Completes
  exact match s.outcome (s.channel c).fd (s.sendCount c) with
  | .sent _ => inferInstanceAs (Decidable (_ ≤ _))
  | .again | .error => inferInstanceAs (Decidable False)

theorem Globals.Completes.intro {s : Globals} {c : Slot} {k : ℕ}
    (ho : s.outcome (s.channel c).fd (s.sendCount c) = .sent k)
    (hk : (s.channel c).sendCtx.pkg.total ≤ (s.channel c).sendCtx.len + k) : s.Completes c := by
  simp only [Globals.Completes, ho, hk]

/-- `dispatch` finds both channels and a packet that fits. -/
def Globals.Writes (s : Globals) (pkg : Pkg) (srcfd dstfd : ℕ) : Prop :=
  s.channelMap[srcfd]? ≠ none ∧ s.channelMap[dstfd]? ≠ none ∧ pkg.len ≤ bufSize

instance (s : Globals) (pkg : Pkg) (srcfd dstfd : ℕ) : Decidable (s.Writes pkg srcfd dstfd) :=
  inferInstanceAs (Decidable (_ ∧ _ ∧ _))

/-- The type that a register request declares, if it is a valid one. -/
def Pkg.registers (pkg : Pkg) : Option ClientType :=
  if pkg.clientType = ClientType.raspi.code then some .raspi
  else if pkg.clientType = ClientType.remote.code then some .remote
  else none

/-- The channel `handle_choose_server_req` answers for, if it finds both. -/
def Globals.chosen (s : Globals) (pkg : Pkg) : Option Slot :=
  if s.lookup pkg.fd = none then none else s.lookup pkg.chooseFd

/-- What was sent on `fd` since, when `sent` is what `send` has accepted by now. -/
def Globals.added (s : Globals) (fd : ℕ) (sent : ℕ → List UInt8) : List UInt8 :=
  (sent fd).drop (s.sent fd).length

/-- A descriptor and the number of its accepts. -/
abbrev Conn := ℕ × ℕ

namespace History

/-- The call that comes is in answer to the peer's close. -/
def closing : History → Bool
  | (.closed _, _) :: _ => true
  | _ => false

/-- `free_channel` was called in answer to the peer's close, and `check_break_fd` comes next. -/
def parting : History → Bool
  | (.freeChannel _, _) :: l => closing l
  | _ => false

/-- How often `accept` has returned `fd`. -/
def gen (fd : ℕ) : History → ℕ
  | [] => 0
  | (.acceptCb fd', _) :: l => gen fd l + if fd' = fd then 1 else 0
  | _ :: l => gen fd l

/-- The connection last accepted under `fd`. -/
def conn (l : History) (fd : ℕ) : Conn := (fd, gen fd l)

/-- The connection is the last one accepted under its descriptor. -/
def Current (l : History) (κ : Conn) : Prop := κ = conn l κ.1

instance (l : History) (κ : Conn) : Decidable (l.Current κ) := inferInstanceAs (Decidable (_ = _))

/-- How often `free_channel` has closed `fd` since `accept` last returned it. -/
def closes (fd : ℕ) : History → ℕ
  | [] => 0
  | (.acceptCb fd', _) :: l => if fd' = fd then 0 else closes fd l
  | (.freeChannel c, g) :: l =>
    closes fd l + if (g.channel (g.channel c).idx).fd = fd then 1 else 0
  | _ :: l => closes fd l

/-- The descriptor and the raspi of the choose request that is being answered: no call but those
of `response` and `free_channel` has been made since. -/
def choosing : History → Option (ℕ × Slot)
  | [] => none
  | (k, g) :: l =>
    match k with
    | .handleChooseServerReq pkg => (g.chosen pkg).map (pkg.fd, ·)
    | .response _ | .freeChannel _ => choosing l
    | _ => none

/-- The descriptor whose bridge `check_break_fd` is about to erase, while it is in `response`. -/
def breaking : History → Option ℕ
  | (.checkBreakFd .remote fd, _) :: _ => some fd
  | (.response _, _) :: l => breaking l
  | _ => none

/-- Whose packet was handed over last. -/
def sender : History → Conn
  | [] => (0, 0)
  | (.routed c _, g) :: l => conn l (g.channel c).recvCtx.io.fd
  | _ :: l => sender l

/-- The connections that the entry of `bridge_map` at `fd` is about: the one whose choose request
made it, and the one it named. -/
def bridging (fd : ℕ) : History → Conn × Conn
  | [] => ((0, 0), (0, 0))
  | (.handleChooseServerReq pkg, g) :: l =>
    if pkg.fd = fd ∧ g.chosen pkg ≠ none ∧ g.bridgeMap[fd]? = none then
      (sender l, conn l pkg.chooseFd)
    else bridging fd l
  | _ :: l => bridging fd l

/-- The channel that the connection last accepted under `fd` chose in its last request, of those
that were answered. -/
def lastChoice (fd : ℕ) : History → Option Slot
  | [] => none
  | (.acceptCb fd', _) :: l => if fd' = fd then none else lastChoice fd l
  | (.handleChooseServerReq pkg, g) :: l =>
    if pkg.fd = fd ∧ g.chosen pkg ≠ none then g.chosen pkg else lastChoice fd l
  | _ :: l => lastChoice fd l

/-- The connections that the one last accepted under `fd` named in its choose requests, of those
that were answered, the last one first. -/
def choices (fd : ℕ) : History → List Conn
  | [] => []
  | (.acceptCb fd', _) :: l => if fd' = fd then [] else choices fd l
  | (.handleChooseServerReq pkg, g) :: l =>
    if pkg.fd = fd ∧ g.chosen pkg ≠ none then conn l pkg.chooseFd :: choices fd l else choices fd l
  | _ :: l => choices fd l

/-- The type that the connection last accepted under `fd` declared in its last valid register
request. -/
def registered (fd : ℕ) : History → Option ClientType
  | [] => none
  | (.acceptCb fd', _) :: l => if fd' = fd then none else registered fd l
  | (.handleRegisterClientReq pkg, _) :: l =>
    if pkg.fd = fd then pkg.registers <|> registered fd l else registered fd l
  | _ :: l => registered fd l

/-- The type that was declared last on the slot, by whichever connection had it: static storage
starts as `CTYPE_RASPI`. -/
def slotType (c : Slot) : History → ClientType
  | [] => .raspi
  | (.handleRegisterClientReq pkg, g) :: l =>
    if g.channelMap[pkg.fd]? = some c then pkg.registers.getD (slotType c l) else slotType c l
  | _ :: l => slotType c l

/-- The source of the last `dispatch` to the slot that was cut short, whichever connections had the
two slots then. -/
def cutSource (c : Slot) : History → Option Slot
  | [] => none
  | (.dispatch pkg srcfd dstfd, g) :: l =>
    if g.Writes pkg srcfd dstfd ∧ g.channelMap[dstfd]? = some c ∧
        g.outcome dstfd pkg.total ≠ .sent pkg.total ∧ g.outcome dstfd pkg.total ≠ .error then
      g.channelMap[srcfd]?
    else cutSource c l
  | _ :: l => cutSource c l

/-- The source of the frame to the slot that was cut short last: none if that was a packet of
`response`. -/
def unfinished (c : Slot) : History → Option Slot
  | [] => none
  | (.dispatch pkg srcfd dstfd, g) :: l =>
    if g.Writes pkg srcfd dstfd ∧ g.channelMap[dstfd]? = some c ∧
        g.outcome dstfd pkg.total ≠ .sent pkg.total ∧ g.outcome dstfd pkg.total ≠ .error then
      g.channelMap[srcfd]?
    else unfinished c l
  | (.response p, g) :: l =>
    if g.channelMap[p.fd]? = some c ∧ g.outcome p.fd p.total ≠ .sent p.total ∧
        g.outcome p.fd p.total ≠ .error then
      none
    else unfinished c l
  | _ :: l => unfinished c l

/-- The packet that `response` was called with for the slot while its send watcher was stopped, and
the bytes that `send` accepted in that call and in those of `server_send_cb` on the slot since,
where `sent` is what it has accepted by now: none if a later frame was for the slot, or the slot was
freed or given away. -/
def answering (c : Slot) : (ℕ → List UInt8) → History → Option (Pkg × List UInt8)
  | _, [] => none
  | sent, (k, g) :: l =>
    match k with
    | .response p =>
      if g.channelMap[p.fd]? = some c then
        if (g.channel c).sendCtx.io.active = false ∧ g.outcome p.fd p.total ≠ .error then
          some (p, g.added p.fd sent)
        else none
      else answering c g.sent l
    | .serverSendCb d =>
      if d = c then
        (answering c g.sent l).map fun x => (x.1, x.2 ++ g.added (g.channel c).fd sent)
      else answering c g.sent l
    | .dispatch pkg srcfd dstfd =>
      if g.Writes pkg srcfd dstfd ∧ g.channelMap[dstfd]? = some c then none
      else answering c g.sent l
    | .freeChannel d => if d = c then none else answering c g.sent l
    | .acceptCb _ => if (g.channel c).status = .nonActive then none else answering c g.sent l
    | _ => answering c g.sent l

/-- The answers to choose requests that `response` was called with, the last one first. -/
def chooseAnswers : History → List Pkg
  | [] => []
  | (.response p, _) :: l =>
    if p.cmd = PkgCmdType.chooseServerRes.code then p :: chooseAnswers l else chooseAnswers l
  | _ :: l => chooseAnswers l

/-- The answers to register requests that `response` was called with, the last one first. -/
def registerAnswers : History → List Pkg
  | [] => []
  | (.response p, _) :: l =>
    if p.cmd = PkgCmdType.registerClientRes.code then p :: registerAnswers l else registerAnswers l
  | _ :: l => registerAnswers l

/-- Whose choose request was handled last. -/
def asker : History → Conn
  | [] => (0, 0)
  | (.handleChooseServerReq _, _) :: l => sender l
  | _ :: l => asker l

/-- The raspi it chose. -/
def target : History → Option Slot
  | [] => none
  | (.handleChooseServerReq pkg, g) :: _ => g.channelMap[pkg.chooseFd]?
  | _ :: l => target l

/-- Whose choose request caused the START that was last built in the send buffer of `c`. -/
def startOf (c : Slot) : History → Conn
  | [] => (0, 0)
  | (.response pkg, _) :: l =>
    if pkg.IsStart ∧ target l = some c then asker l else startOf c l
  | _ :: l => startOf c l

/-- The messages that were sent to the connection last accepted under `fd`, the first one first,
each with the connection whose choose request caused it if it is a START. -/
def outbox (fd : ℕ) : History → List (Pkg × Conn)
  | [] => []
  | (k, g) :: l =>
    match k with
    | .acceptCb fd' => if fd' = fd then [] else outbox fd l
    | .response pkg =>
      outbox fd l ++ if pkg.fd = fd ∧ g.channelMap[fd]? ≠ none ∧
        g.outcome fd pkg.total = .sent pkg.total then [(pkg, asker l)] else []
    | .dispatch pkg srcfd dstfd =>
      outbox fd l ++ if dstfd = fd ∧ g.Writes pkg srcfd dstfd ∧
        g.outcome fd pkg.total = .sent pkg.total then [(pkg, (0, 0))] else []
    | .serverSendCb c =>
      outbox fd l ++ if (g.channel c).fd = fd ∧ g.Completes c then
        [((g.channel c).sendCtx.pkg, startOf c l)] else []
    | _ => outbox fd l

/-- The calls of `dispatch`, the last one first: the packet, and the connection it was written to,
if any. -/
def dispatched : History → List (Pkg × Option Conn)
  | [] => []
  | (.dispatch pkg srcfd dstfd, g) :: l =>
    (pkg, if g.Writes pkg srcfd dstfd then some (conn l dstfd) else none) :: dispatched l
  | _ :: l => dispatched l

/-- The packets that `dispatch` was called with, the last one first, each with its `dstfd`. -/
def relays : History → List (Pkg × ℕ)
  | [] => []
  | (.dispatch pkg _ dstfd, _) :: l => (pkg, dstfd) :: relays l
  | _ :: l => relays l

/-- The requests that were handled, the last one first. -/
def handled : History → List Pkg
  | [] => []
  | (.handle pkg, _) :: l => pkg :: handled l
  | _ :: l => handled l

end History
end WawaServer
