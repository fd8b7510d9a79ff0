import WawaServer.Effects

/-!
# The branches of the functions

One equation for each way through `response`, `dispatch` and `server_send_cb`. `EAGAIN` and a
partial send leave the same state but for the count, so `CutShort` covers both.
-/

namespace WawaServer
namespace Server

variable {s t u : Server} {c d : Slot} {p pkg : Pkg} {k : ℕ}

/-! ## `send` -/

/-- `EAGAIN` takes nothing. -/
theorem send_of_again {fd off n : ℕ} (ho : s.outcome fd n = .again) :
    s.send fd p off n = (s.popped fd off n, .again) := by
  simp only [send, ho]

/-- A failed `send` takes nothing either. -/
theorem send_of_error {fd off n : ℕ} (ho : s.outcome fd n = .error) :
    s.send fd p off n = (s.popped fd off n, .error) := by
  simp only [send, ho]

/-- `send` takes the first `k` bytes. -/
theorem send_of_sent {fd off n : ℕ} (ho : s.outcome fd n = .sent k) :
    s.send fd p off n = (s.wrote fd p off n k, .sent k) := by
  simp only [send, ho]

/-- The three ways a `send` of `n` bytes ends. -/
theorem outcome_cases (s : Globals) (fd n : ℕ) :
    (∃ k, s.CutShort fd n k) ∨ s.outcome fd n = .sent n ∨ s.outcome fd n = .error := by
  cases ho : s.outcome fd n with
  | again => exact .inl ⟨0, .again ho⟩
  | error => exact .inr (.inr rfl)
  | sent k =>
    rcases (outcome_le ho).lt_or_eq with hk | rfl
    · exact .inl ⟨k, .short ho hk⟩
    · exact .inr (.inl rfl)

/-! ## `response` -/

/-- Nobody has the descriptor: nothing is sent. -/
theorem response_of_none (hl : s.lookup p.fd = none) :
    s.response p = (s.enter (.response p), -1) := by
  have hl' : (s.enter (.response p)).lookup p.fd = none := hl
  simp only [response, hl']

/-- The rest is left to `server_send_cb`, which reads the send buffer. -/
theorem response_of_cutShort (hl : s.lookup p.fd = some c) (ho : s.CutShort p.fd p.total k) :
    s.response p = (((((s.enter (.response p)).setSendLen c 0).wrote p.fd p 0 p.total
      k).setSendLen c k).startSend c, 0) := by
  have hl' : (s.enter (.response p)).lookup p.fd = some c := hl
  simp only [response, hl', Pkg.total_eq]
  cases ho with
  | again ho =>
    rw [send_of_again (by exact ho), wrote_zero]
    have hlen := setSendLen_of_eq (s := ((s.enter (.response p)).setSendLen c 0).popped p.fd 0
      p.total) (c := c) (n := 0) (by simp)
    rw [hlen]
  | short ho hk =>
    rw [send_of_sent (by exact ho)]
    have hlen : ((((s.enter (.response p)).setSendLen c 0).wrote p.fd p 0 p.total
        k).channel c).sendCtx.len = 0 := by simp
    simp only [hk, ↓reduceIte, hlen, zero_add]

/-- The packet goes out whole, and its addressee is read on. -/
theorem response_of_sent (hl : s.lookup p.fd = some c)
    (ho : s.outcome p.fd p.total = .sent p.total) :
    s.response p = ((((s.enter (.response p)).setSendLen c 0).wrote p.fd p 0 p.total
      p.total).startRecv c, 0) := by
  have hl' : (s.enter (.response p)).lookup p.fd = some c := hl
  simp only [response, hl', Pkg.total_eq]
  rw [send_of_sent (by exact ho)]
  simp only [lt_irrefl, ↓reduceIte]

/-- The addressee is freed. -/
theorem response_of_error (hl : s.lookup p.fd = some c) (ho : s.outcome p.fd p.total = .error) :
    s.response p = ((((s.enter (.response p)).setSendLen c 0).popped p.fd 0 p.total).freeChannel
      c, 0) := by
  have hl' : (s.enter (.response p)).lookup p.fd = some c := hl
  simp only [response, hl', Pkg.total_eq]
  rw [send_of_error (by exact ho)]

/-- The ways through `response`: the descriptor is nobody's, or its channel gets the packet in part,
gets it, or refuses it and is freed. -/
theorem response_cases (s : Server) (p : Pkg) :
    (s.lookup p.fd = none ∧ (s.response p).1 = s.enter (.response p)) ∨
    ∃ c, s.lookup p.fd = some c ∧
      ((∃ k, s.CutShort p.fd p.total k ∧ (s.response p).1 = ((((s.enter (.response p)).setSendLen
        c 0).wrote p.fd p 0 p.total k).setSendLen c k).startSend c) ∨
      (s.outcome p.fd p.total = .sent p.total ∧ (s.response p).1 = (((s.enter
        (.response p)).setSendLen c 0).wrote p.fd p 0 p.total p.total).startRecv c) ∨
      (s.outcome p.fd p.total = .error ∧ (s.response p).1 = (((s.enter (.response p)).setSendLen
        c 0).popped p.fd 0 p.total).freeChannel c)) := by
  cases hl : s.lookup p.fd with
  | none => exact .inl ⟨rfl, by rw [response_of_none hl]⟩
  | some c =>
    refine .inr ⟨c, rfl, ?_⟩
    rcases outcome_cases s.toGlobals p.fd p.total with ⟨k, ho⟩ | ho | ho
    · exact .inl ⟨k, ho, by rw [response_of_cutShort hl ho]⟩
    · exact .inr (.inl ⟨ho, by rw [response_of_sent hl ho]⟩)
    · exact .inr (.inr ⟨ho, by rw [response_of_error hl ho]⟩)

/-! ## `check_break_fd` -/

/-- A raspi that leaves breaks no bridge. -/
theorem checkBreakFd_of_raspi {type : ClientType} {fd : ℕ} (ht : type ≠ .remote) :
    s.checkBreakFd type fd = s.enter (.checkBreakFd type fd) := by
  simp only [checkBreakFd, ht, ↓reduceIte]

/-- A viewer without a bridge breaks none. -/
theorem checkBreakFd_of_none {type : ClientType} {fd : ℕ} (hb : s.bridgeMap[fd]? = none) :
    s.checkBreakFd type fd = s.enter (.checkBreakFd type fd) := by
  have hb' : (s.enter (.checkBreakFd type fd)).bridgeMap[fd]? = none := hb
  simp only [checkBreakFd, hb', ite_self]

/-- The raspi is sent a RESTART, whatever `response` returns, and the bridge is erased. -/
theorem checkBreakFd_of_some {fd : ℕ} {r : Slot} (hb : s.bridgeMap[fd]? = some r) :
    s.checkBreakFd .remote fd = (((s.enter (.checkBreakFd .remote fd)).response
      (restartPkg (s.channel r).fd)).1).unbridged fd r := by
  have hb' : (s.enter (.checkBreakFd .remote fd)).bridgeMap[fd]? = some r := hb
  simp only [checkBreakFd, hb', ↓reduceIte]
  rfl

/-- The ways through `check_break_fd`: there is no bridge to break, or the raspi is notified and its
bridge erased. -/
theorem checkBreakFd_cases (s : Server) (type : ClientType) (fd : ℕ) :
    ((type = .remote → s.bridgeMap[fd]? = none) ∧
      s.checkBreakFd type fd = s.enter (.checkBreakFd type fd)) ∨
    ∃ r, type = .remote ∧ s.bridgeMap[fd]? = some r ∧ s.checkBreakFd type fd = (((s.enter
      (.checkBreakFd .remote fd)).response (restartPkg (s.channel r).fd)).1).unbridged fd r := by
  cases type with
  | raspi => exact .inl ⟨nofun, checkBreakFd_of_raspi (by decide)⟩
  | remote =>
    cases hb : s.bridgeMap[fd]? with
    | none => exact .inl ⟨fun _ => rfl, checkBreakFd_of_none hb⟩
    | some r => exact .inr ⟨r, rfl, rfl, checkBreakFd_of_some hb⟩

/-! ## `dispatch` -/

/-- The source is unknown: nothing is done. -/
theorem dispatch_of_src_none {srcfd dstfd : ℕ} (hs : s.lookup srcfd = none) :
    s.dispatch pkg srcfd dstfd = (s.enter (.dispatch pkg srcfd dstfd), -1) := by
  have hs' : (s.enter (.dispatch pkg srcfd dstfd)).lookup srcfd = none := hs
  simp only [dispatch, hs']

section Found
variable {srcfd dstfd : ℕ} {a : Slot} (hs : s.lookup srcfd = some a)

include hs

/-- The destination is gone: nothing is sent, to the source neither. -/
theorem dispatch_of_dst_none (hd : s.lookup dstfd = none) :
    s.dispatch pkg srcfd dstfd = (s.enter (.dispatch pkg srcfd dstfd), -2) := by
  have hs' : (s.enter (.dispatch pkg srcfd dstfd)).lookup srcfd = some a := hs
  have hd' : (s.enter (.dispatch pkg srcfd dstfd)).lookup dstfd = none := hd
  simp only [dispatch, hs', hd']

variable (hd : s.lookup dstfd = some d)

include hd

/-- The length is checked before the packet is copied. -/
theorem dispatch_of_long (hlen : bufSize < pkg.len) :
    s.dispatch pkg srcfd dstfd = (s.enter (.dispatch pkg srcfd dstfd), -3) := by
  have hs' : (s.enter (.dispatch pkg srcfd dstfd)).lookup srcfd = some a := hs
  have hd' : (s.enter (.dispatch pkg srcfd dstfd)).lookup dstfd = some d := hd
  simp only [dispatch, hs', hd', gt_iff_lt, hlen, ↓reduceIte]

variable (hlen : pkg.len ≤ bufSize)

include hlen

/-- The rest is left to `server_send_cb`, and the source is stopped until then. -/
theorem dispatch_of_cutShort (ho : s.CutShort dstfd pkg.total k) :
    s.dispatch pkg srcfd dstfd = ((((s.relaying pkg srcfd dstfd d).wrote dstfd pkg 0 pkg.total
      k).setSendLen d k).pausing a d, 0) := by
  have hs' : (s.enter (.dispatch pkg srcfd dstfd)).lookup srcfd = some a := hs
  have hd' : (s.enter (.dispatch pkg srcfd dstfd)).lookup dstfd = some d := hd
  simp only [dispatch, hs', hd', gt_iff_lt, not_lt.2 hlen, ↓reduceIte, Pkg.total_eq]
  cases ho with
  | again ho =>
    rw [send_of_again (by exact ho), wrote_zero]
    have hlen := setSendLen_of_eq (s := (s.relaying pkg srcfd dstfd d).popped dstfd 0 pkg.total)
      (c := d) (n := 0) (by simp [relaying])
    rw [hlen]
    rfl
  | short ho hk =>
    rw [send_of_sent (by exact ho)]
    have hlen : (((s.relaying pkg srcfd dstfd d).wrote dstfd pkg 0 pkg.total
        k).channel d).sendCtx.len = 0 := by simp [relaying]
    apply (if_pos hk).trans
    change ((((s.relaying pkg srcfd dstfd d).wrote dstfd pkg 0 pkg.total k).setSendLen d
      ((((s.relaying pkg srcfd dstfd d).wrote dstfd pkg 0 pkg.total
        k).channel d).sendCtx.len + k)).pausing a d, (0 : Int)) = _
    rw [hlen, zero_add]

/-- The frame goes out whole, and the source is read on. -/
theorem dispatch_of_sent (ho : s.outcome dstfd pkg.total = .sent pkg.total) :
    s.dispatch pkg srcfd dstfd = ((((s.relaying pkg srcfd dstfd d).wrote dstfd pkg 0 pkg.total
      pkg.total).stopSend d).startRecv a, 0) := by
  have hs' : (s.enter (.dispatch pkg srcfd dstfd)).lookup srcfd = some a := hs
  have hd' : (s.enter (.dispatch pkg srcfd dstfd)).lookup dstfd = some d := hd
  simp only [dispatch, hs', hd', gt_iff_lt, not_lt.2 hlen, ↓reduceIte, Pkg.total_eq]
  rw [send_of_sent (by exact ho)]
  simp only [lt_irrefl, ↓reduceIte]
  rfl

/-- The destination is freed and its bridge is broken; the iterators are used after that. -/
theorem dispatch_of_error (ho : s.outcome dstfd pkg.total = .error) :
    s.dispatch pkg srcfd dstfd =
      (let t := (s.relaying pkg srcfd dstfd d).popped dstfd 0 pkg.total
       ((t.checkBreakFd (t.channel d).type (t.channel d).fd).useIterator dstfd).freeChannel d,
        0) := by
  have hs' : (s.enter (.dispatch pkg srcfd dstfd)).lookup srcfd = some a := hs
  have hd' : (s.enter (.dispatch pkg srcfd dstfd)).lookup dstfd = some d := hd
  simp only [dispatch, hs', hd', gt_iff_lt, not_lt.2 hlen, ↓reduceIte, Pkg.total_eq]
  rw [send_of_error (by exact ho)]
  rfl

end Found

/-- The ways through `dispatch`: a descriptor is nobody's or the packet is too long, or the
destination gets the packet in part, gets it, or refuses it and is freed. -/
theorem dispatch_cases (s : Server) (pkg : Pkg) (srcfd dstfd : ℕ) :
    ((s.lookup srcfd = none ∨ s.lookup dstfd = none ∨ bufSize < pkg.len) ∧
      (s.dispatch pkg srcfd dstfd).1 = s.enter (.dispatch pkg srcfd dstfd)) ∨
    ∃ a d, s.lookup srcfd = some a ∧ s.lookup dstfd = some d ∧ pkg.len ≤ bufSize ∧
      ((∃ k, s.CutShort dstfd pkg.total k ∧ (s.dispatch pkg srcfd dstfd).1 = (((s.relaying pkg srcfd
        dstfd d).wrote dstfd pkg 0 pkg.total k).setSendLen d k).pausing a d) ∨
      (s.outcome dstfd pkg.total = .sent pkg.total ∧ (s.dispatch pkg srcfd dstfd).1 = (((s.relaying
        pkg srcfd dstfd d).wrote dstfd pkg 0 pkg.total pkg.total).stopSend d).startRecv a) ∨
      (s.outcome dstfd pkg.total = .error ∧ (s.dispatch pkg srcfd dstfd).1 =
        (let t := (s.relaying pkg srcfd dstfd d).popped dstfd 0 pkg.total
         ((t.checkBreakFd (t.channel d).type (t.channel d).fd).useIterator
          dstfd).freeChannel d))) := by
  cases ha : s.lookup srcfd with
  | none => exact .inl ⟨.inl rfl, by rw [dispatch_of_src_none ha]⟩
  | some a =>
    cases hd : s.lookup dstfd with
    | none => exact .inl ⟨.inr (.inl rfl), by rw [dispatch_of_dst_none ha hd]⟩
    | some d =>
      rcases lt_or_ge bufSize pkg.len with hlen | hlen
      · exact .inl ⟨.inr (.inr hlen), by rw [dispatch_of_long ha hd hlen]⟩
      · refine .inr ⟨a, d, rfl, rfl, hlen, ?_⟩
        rcases outcome_cases s.toGlobals dstfd pkg.total with ⟨k, ho⟩ | ho | ho
        · exact .inl ⟨k, ho, by rw [dispatch_of_cutShort ha hd hlen ho]⟩
        · exact .inr (.inl ⟨ho, by rw [dispatch_of_sent ha hd hlen ho]⟩)
        · exact .inr (.inr ⟨ho, by rw [dispatch_of_error ha hd hlen ho]⟩)

/-! ## Handlers -/

/-- `response` with the packet `p` built in the buffer of `c`. -/
def reply (s : Server) (c : Slot) (p : Pkg) : Server := ((s.setSendPkg c p).response p).1

/-- The requester is unknown: nothing is done. -/
theorem handleChooseServerReq_of_remote_none (hc : s.lookup pkg.fd = none) :
    s.handleChooseServerReq pkg = (s.enter (.handleChooseServerReq pkg), -1) := by
  have hc' : (s.enter (.handleChooseServerReq pkg)).lookup pkg.fd = none := hc
  simp only [handleChooseServerReq, hc']

/-- The raspi is unknown: nothing is done, and the requester gets no answer. -/
theorem handleChooseServerReq_of_raspi_none (hc : s.lookup pkg.fd = some c)
    (hd : s.lookup pkg.chooseFd = none) :
    s.handleChooseServerReq pkg = (s.enter (.handleChooseServerReq pkg), -1) := by
  have hc' : (s.enter (.handleChooseServerReq pkg)).lookup pkg.fd = some c := hc
  have hd' : (s.enter (.handleChooseServerReq pkg)).lookup pkg.chooseFd = none := hd
  simp only [handleChooseServerReq, hc', hd']

/-- Both are known: both get a packet, and the bridge is made if there is none. -/
theorem handleChooseServerReq_of_some (hc : s.lookup pkg.fd = some c)
    (hd : s.lookup pkg.chooseFd = some d) :
    s.handleChooseServerReq pkg =
      (let u := s.enter (.handleChooseServerReq pkg)
       let v := (u.reply c (chooseRes (u.channel c).sendCtx.pkg pkg.fd)).useIterator pkg.chooseFd
       let w := (v.reply d (startNtf (v.channel d).sendCtx.pkg pkg.fd)).useIterator pkg.chooseFd
       ({ w with bridgeMap := w.bridgeMap.insertIfNew pkg.fd d }, 0)) := by
  have hc' : (s.enter (.handleChooseServerReq pkg)).lookup pkg.fd = some c := hc
  have hd' : (s.enter (.handleChooseServerReq pkg)).lookup pkg.chooseFd = some d := hd
  have hbuf : ∀ (u : Server) (e : Slot) (p : Pkg), ((u.setSendPkg e p).channel e).sendCtx.pkg = p :=
    fun u e p => by simp
  simp only [handleChooseServerReq, hc', hd', hbuf]
  rfl

/-- The ways through `handle_choose_server_req`: a descriptor is nobody's, or the viewer is
answered, the raspi is notified and the bridge is made. -/
theorem handleChooseServerReq_cases (s : Server) (pkg : Pkg) :
    ((s.lookup pkg.fd = none ∨ s.lookup pkg.chooseFd = none) ∧
      (s.handleChooseServerReq pkg).1 = s.enter (.handleChooseServerReq pkg)) ∨
    ∃ c d, s.lookup pkg.fd = some c ∧ s.lookup pkg.chooseFd = some d ∧
      (s.handleChooseServerReq pkg).1 =
        (let u := s.enter (.handleChooseServerReq pkg)
         let v := (u.reply c (chooseRes (u.channel c).sendCtx.pkg pkg.fd)).useIterator pkg.chooseFd
         let w := (v.reply d (startNtf (v.channel d).sendCtx.pkg pkg.fd)).useIterator pkg.chooseFd
         { w with bridgeMap := w.bridgeMap.insertIfNew pkg.fd d }) := by
  cases hc : s.lookup pkg.fd with
  | none => exact .inl ⟨.inl rfl, by rw [handleChooseServerReq_of_remote_none hc]⟩
  | some c =>
    cases hd : s.lookup pkg.chooseFd with
    | none => exact .inl ⟨.inr rfl, by rw [handleChooseServerReq_of_raspi_none hc hd]⟩
    | some d => exact .inr ⟨c, d, rfl, rfl, by rw [handleChooseServerReq_of_some hc hd]⟩

/-- The ways through `handle`: the two handlers of `handler_map`, or none. -/
theorem handle_cases (s : Server) (pkg : Pkg) :
    s.handle pkg = (s.enter (.handle pkg)).handleRegisterClientReq pkg ∨
      s.handle pkg = (s.enter (.handle pkg)).handleChooseServerReq pkg ∨
      s.handle pkg = (s.enter (.handle pkg), 0) := by
  unfold handle
  simp only
  split
  · exact .inl rfl
  · split
    · exact .inr (.inl rfl)
    · exact .inr (.inr rfl)

/-! ## `server_recv_cb` -/

/-- A packet for descriptor `0` is a request of the connection it came from. -/
theorem route_of_request (h : (s.channel c).recvCtx.pkg.fd = 0) :
    s.route c =
      (let q := (s.channel c).recvCtx.pkg.setFd (s.channel c).recvCtx.io.fd
       (((s.setRecvPkg c q).enter (.routed c q)).handle q).1) := by
  have hbuf : ∀ q : Pkg, ((s.setRecvPkg c q).channel c).recvCtx.pkg = q := fun q => by simp
  have hbuf' : ∀ (q : Pkg) (k : Call), (((s.setRecvPkg c q).enter k).channel c).recvCtx.pkg = q :=
    fun q _ => hbuf q
  simp only [route, h, ↓reduceIte, hbuf, hbuf']

/-- Any other packet is relayed to the descriptor it names. -/
theorem route_of_relay (h : (s.channel c).recvCtx.pkg.fd ≠ 0) :
    s.route c = ((s.enter (.routed c (s.channel c).recvCtx.pkg)).dispatch (s.channel c).recvCtx.pkg
      (s.channel c).recvCtx.io.fd (s.channel c).recvCtx.pkg.fd).1 := by
  simp only [route, h, ↓reduceIte]

/-! ## `server_send_cb` -/

/-- Nothing was taken, and the callback waits. -/
theorem serverSendCb_of_again (ho : s.outcome (s.channel c).fd (s.sendCount c) = .again) :
    s.serverSendCb c = (s.sending c 0).startSend c := by
  rw [serverSendCb, send_of_again (by exact ho), sending, wrote_zero, setSendLen_of_eq (by simp)]
  rfl

/-- The callback waits for the rest, or the frame is over and its source is resumed. -/
theorem serverSendCb_of_sent (ho : s.outcome (s.channel c).fd (s.sendCount c) = .sent k) :
    s.serverSendCb c =
      if (s.channel c).sendCtx.len + k < (s.channel c).sendCtx.pkg.total then
        (s.sending c k).startSend c
      else match (s.channel c).sendCtx.pSrcChannel with
        | none => (s.finishing c k).fail .nullSrcChannel
        | some a => (s.finishing c k).startRecv a := by
  have hlen : ((s.sending c k).channel c).sendCtx.len = (s.channel c).sendCtx.len + k := by
    simp [sending]
  have hsrc : ((s.finishing c k).channel c).sendCtx.pSrcChannel =
      (s.channel c).sendCtx.pSrcChannel := by
    simp [finishing, sending]
  rw [← hsrc, ← hlen, serverSendCb, send_of_sent (by exact ho)]
  rfl

/-- The channel is freed and its bridge is broken. -/
theorem serverSendCb_of_error (ho : s.outcome (s.channel c).fd (s.sendCount c) = .error) :
    s.serverSendCb c =
      (let t := (s.enter (.serverSendCb c)).popped (s.channel c).fd (s.channel c).sendCtx.len
        (s.sendCount c)
       (t.checkBreakFd (t.channel c).type (t.channel c).fd).freeChannel c) := by
  rw [serverSendCb, send_of_error (by exact ho)]
  rfl

/-- The ways through `server_send_cb`: there is more to send, the packet is over and its source is
resumed or missing, or `send` fails and the channel is freed. -/
theorem serverSendCb_cases (s : Server) (c : Slot) :
    (∃ k, (s.outcome (s.channel c).fd (s.sendCount c) = .again ∧ k = 0 ∨
        s.outcome (s.channel c).fd (s.sendCount c) = .sent k ∧
          (s.channel c).sendCtx.len + k < (s.channel c).sendCtx.pkg.total) ∧
      s.serverSendCb c = (s.sending c k).startSend c) ∨
    (∃ k, s.outcome (s.channel c).fd (s.sendCount c) = .sent k ∧
      (s.channel c).sendCtx.pkg.total ≤ (s.channel c).sendCtx.len + k ∧
      ((s.channel c).sendCtx.pSrcChannel = none ∧
          s.serverSendCb c = (s.finishing c k).fail .nullSrcChannel ∨
        ∃ a, (s.channel c).sendCtx.pSrcChannel = some a ∧
          s.serverSendCb c = (s.finishing c k).startRecv a)) ∨
    (s.outcome (s.channel c).fd (s.sendCount c) = .error ∧ s.serverSendCb c =
      (let t := (s.enter (.serverSendCb c)).popped (s.channel c).fd (s.channel c).sendCtx.len
        (s.sendCount c)
       (t.checkBreakFd (t.channel c).type (t.channel c).fd).freeChannel c)) := by
  cases ho : s.outcome (s.channel c).fd (s.sendCount c) with
  | again => exact .inl ⟨0, .inl ⟨rfl, rfl⟩, serverSendCb_of_again ho⟩
  | sent k =>
    have heq := serverSendCb_of_sent ho
    rcases lt_or_ge ((s.channel c).sendCtx.len + k) (s.channel c).sendCtx.pkg.total with hk | hk
    · rw [if_pos hk] at heq
      exact .inl ⟨k, .inr ⟨rfl, hk⟩, heq⟩
    · rw [if_neg (not_lt.2 hk)] at heq
      refine .inr (.inl ⟨k, rfl, hk, ?_⟩)
      cases ha : (s.channel c).sendCtx.pSrcChannel with
      | none =>
        rw [ha] at heq
        exact .inl ⟨rfl, heq⟩
      | some a =>
        rw [ha] at heq
        exact .inr ⟨a, rfl, heq⟩
  | error => exact .inr (.inr ⟨rfl, serverSendCb_of_error ho⟩)

/-! ## What `response` leaves alone -/

/-- `lookup` reads `channel_map`. -/
theorem map_of_lookup {fd : ℕ} (h : s.lookup fd = some c) : s.channelMap[fd]? = some c := by
  unfold Globals.lookup at h
  split at h
  · cases h
  · rename_i c' hm
    split at h
    · exact Option.some.inj h ▸ hm
    · cases h

/-- From `s` to `t` descriptors, registrations and bridges are as they were. -/
structure Steady (s t : Server) : Prop where
  fd : ∀ d, (t.channel d).fd = (s.channel d).fd
  type : ∀ d, (t.channel d).type = (s.channel d).type
  bridge : t.bridgeMap = s.bridgeMap

theorem Steady.trans (h : Steady s t) (h' : Steady t u) : Steady s u where
  fd d := (h'.fd d).trans (h.fd d)
  type d := (h'.type d).trans (h.type d)
  bridge := h'.bridge.trans h.bridge

/-- `free_channel` keeps the descriptor of the slot and breaks no bridge. -/
theorem freeChannel_steady (s : Server) (c : Slot) : Steady s (s.freeChannel c) := by
  refine ⟨?_, ?_, rfl⟩ <;> simp [freeChannel, close]

/-- `response` changes at most what is sent, the watchers and the offset, or frees the addressee. -/
theorem response_steady (s : Server) (p : Pkg) : Steady s (s.response p).1 := by
  rcases s.response_cases p with ⟨-, h⟩ | ⟨c, -, ⟨k, -, h⟩ | ⟨-, h⟩ | ⟨-, h⟩⟩ <;> rw [h]
  · exact ⟨fun _ => rfl, fun _ => rfl, rfl⟩
  · refine ⟨?_, ?_, rfl⟩ <;> simp
  · refine ⟨?_, ?_, rfl⟩ <;> simp
  · have hX : Steady s (((s.enter (.response p)).setSendLen c 0).popped p.fd 0 p.total) :=
      ⟨by simp, by simp, rfl⟩
    exact hX.trans (freeChannel_steady _ c)

theorem reply_steady (s : Server) (c : Slot) (p : Pkg) : Steady s (s.reply c p) := by
  have hX : Steady s (s.setSendPkg c p) := ⟨by simp, by simp, rfl⟩
  exact hX.trans (response_steady _ p)

theorem useIterator_steady (s : Server) (fd : ℕ) : Steady s (s.useIterator fd) := by
  unfold useIterator
  split <;> exact ⟨fun _ => rfl, fun _ => rfl, rfl⟩

end Server
end WawaServer
