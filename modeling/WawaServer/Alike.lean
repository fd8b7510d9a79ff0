import WawaServer.Branches

/-!
# Servers that differ in their receive buffers

Only `server_recv_cb` reads a receive buffer, and only that of its own channel. Two servers that are
the same but for the receive buffers (`Alike`) do the same in every other function.
-/

namespace WawaServer

/-- The channel with nothing in its receive buffer. -/
def Channel.drained (ch : Channel) : Channel :=
  { ch with recvCtx.pkg := Pkg.construct, recvCtx.len := 0 }

namespace Server

variable {s t : Server} {c : Slot}

/-- The two servers are the same but for what is in the receive buffers, and for the record of the
calls. -/
structure Alike (s t : Server) : Prop where
  channel : ∀ c, (t.channel c).drained = (s.channel c).drained
  channelMap : t.channelMap = s.channelMap
  bridgeMap : t.bridgeMap = s.bridgeMap
  opened : t.opened = s.opened
  sent : t.sent = s.sent
  results : t.results = s.results
  cut : t.cut = s.cut
  fault : t.fault = s.fault

namespace Alike

/-- A state is like itself. -/
theorem refl (s : Server) : Alike s s := ⟨fun _ => rfl, rfl, rfl, rfl, rfl, rfl, rfl, rfl⟩

/-- The two states may be exchanged. -/
theorem symm (h : Alike s t) : Alike t s where
  channel c := (h.channel c).symm
  channelMap := h.channelMap.symm
  bridgeMap := h.bridgeMap.symm
  opened := h.opened.symm
  sent := h.sent.symm
  results := h.results.symm
  cut := h.cut.symm
  fault := h.fault.symm

/-- What is like a like state is like the first. -/
theorem trans {u : Server} (h : Alike s t) (h' : Alike t u) : Alike s u where
  channel c := (h'.channel c).trans (h.channel c)
  channelMap := h'.channelMap.trans h.channelMap
  bridgeMap := h'.bridgeMap.trans h.bridgeMap
  opened := h'.opened.trans h.opened
  sent := h'.sent.trans h.sent
  results := h'.results.trans h.results
  cut := h'.cut.trans h.cut
  fault := h'.fault.trans h.fault

/-! ## What is the same -/

/-- A field that draining leaves alone is the same in both. -/
theorem field {α : Type*} (h : Alike s t) (π : Channel → α) (hπ : ∀ ch, π ch.drained = π ch)
    (c : Slot) : π (t.channel c) = π (s.channel c) := by
  rw [← hπ, h.channel, hπ]

/-- Send contexts are the same: only the receive buffers may differ. -/
theorem sendCtx (h : Alike s t) (c : Slot) : (t.channel c).sendCtx = (s.channel c).sendCtx :=
  h.field Channel.sendCtx (fun _ => rfl) c

/-- The same watchers are started for receiving. -/
theorem io (h : Alike s t) (c : Slot) : (t.channel c).recvCtx.io = (s.channel c).recvCtx.io :=
  h.field (·.recvCtx.io) (fun _ => rfl) c

theorem status (h : Alike s t) (c : Slot) : (t.channel c).status = (s.channel c).status :=
  h.field Channel.status (fun _ => rfl) c

theorem idx (h : Alike s t) (c : Slot) : (t.channel c).idx = (s.channel c).idx :=
  h.field Channel.idx (fun _ => rfl) c

theorem type (h : Alike s t) (c : Slot) : (t.channel c).type = (s.channel c).type :=
  h.field Channel.type (fun _ => rfl) c

/-- A slot has the same descriptor in both. -/
theorem fd (h : Alike s t) (c : Slot) : (t.channel c).fd = (s.channel c).fd :=
  h.field Channel.fd (fun _ => rfl) c

/-- `lookup` finds the same slot in both. -/
theorem lookup (h : Alike s t) (fd : ℕ) : t.lookup fd = s.lookup fd := by
  rw [Globals.lookup, Globals.lookup, h.channelMap]
  cases s.channelMap[fd]? with
  | none => rfl
  | some c => simp only [h.status]

/-- `send` ends in the same way in both. -/
theorem outcome (h : Alike s t) (fd n : ℕ) : t.outcome fd n = s.outcome fd n := by
  rw [Globals.outcome, Globals.outcome, h.opened, h.results]

/-- `get_free_channel` finds the same slot in both. -/
theorem freeSlot (h : Alike s t) : t.freeSlot = s.freeSlot := by
  simp only [Server.freeSlot, h.status]

/-! ## What keeps servers alike -/

/-- A change of one channel, after which the two channels are alike, is enough. -/
theorem modify (h : Alike s t) (c : Slot) {f g : Channel → Channel}
    (hfg : (g (t.channel c)).drained = (f (s.channel c)).drained) :
    Alike (s.modify c f) (t.modify c g) where
  __ := h
  channel d := by
    show (Function.update t.channel c (g (t.channel c)) d).drained =
      (Function.update s.channel c (f (s.channel c)) d).drained
    by_cases hd : d = c
    · subst hd
      rw [Function.update_self, Function.update_self, hfg]
    · rw [Function.update_of_ne hd, Function.update_of_ne hd, h.channel]

/-- An assignment to other fields. -/
theorem assign (h : Alike s t) (c : Slot) (f : Channel → Channel)
    (hf : ∀ ch, (f ch).drained = (f ch.drained).drained) :
    Alike (s.modify c f) (t.modify c f) := by
  apply h.modify c
  rw [hf, h.channel, ← hf]

/-- An assignment to the receive buffer. -/
theorem recvBuffer (h : Alike s t) (c : Slot) (f : Channel → Channel)
    (hf : ∀ ch, (f ch).drained = ch.drained) : Alike s (t.modify c f) where
  __ := h
  channel d := by
    show (Function.update t.channel c (f (t.channel c)) d).drained = (s.channel d).drained
    by_cases hd : d = c
    · subst hd
      rw [Function.update_self, hf, h.channel]
    · rw [Function.update_of_ne hd, h.channel]

/-- What one of the two has in a receive buffer does not matter. -/
theorem recvPkg (h : Alike s t) (c : Slot) (p : Pkg) : Alike s (t.setRecvPkg c p) :=
  h.recvBuffer c _ fun _ => rfl

/-- How many bytes it has there does not matter. -/
theorem recvLen (h : Alike s t) (c : Slot) (n : ℕ) : Alike s (t.setRecvLen c n) :=
  h.recvBuffer c _ fun _ => rfl

/-- The record of calls may differ. -/
theorem enter (h : Alike s t) (k k' : Call) : Alike (s.enter k) (t.enter k') := { h with }

/-- Both fail in the same way. -/
theorem fail (h : Alike s t) (f : Fault) : Alike (s.fail f) (t.fail f) := { h with fault := rfl }

theorem setStatus (h : Alike s t) (c : Slot) (st : ChannelStatus) :
    Alike (s.setStatus c st) (t.setStatus c st) := h.assign c _ fun _ => rfl

theorem setType (h : Alike s t) (c : Slot) (ty : ClientType) :
    Alike (s.setType c ty) (t.setType c ty) := h.assign c _ fun _ => rfl

/-- The two may set the number of bytes received differently. -/
theorem setRecvLen (h : Alike s t) (c : Slot) (m n : ℕ) :
    Alike (s.setRecvLen c m) (t.setRecvLen c n) := h.modify c (h.channel c)

/-- The two may set the receive buffer differently. -/
theorem setRecvPkg (h : Alike s t) (c : Slot) (p q : Pkg) :
    Alike (s.setRecvPkg c p) (t.setRecvPkg c q) := h.modify c (h.channel c)

theorem setSendLen (h : Alike s t) (c : Slot) (n : ℕ) :
    Alike (s.setSendLen c n) (t.setSendLen c n) := h.assign c _ fun _ => rfl

theorem setSrcChannel (h : Alike s t) (c a : Slot) :
    Alike (s.setSrcChannel c a) (t.setSrcChannel c a) := h.assign c _ fun _ => rfl

theorem setCut (h : Alike s t) (c : Slot) (a : Option Slot) :
    Alike (s.setCut c a) (t.setCut c a) :=
  { h with cut := by simp only [Server.setCut, h.cut] }

/-- Send buffers are set to the same packet. -/
theorem setSendPkg (h : Alike s t) (c : Slot) (p : Pkg) :
    Alike (s.setSendPkg c p) (t.setSendPkg c p) :=
  (h.assign c (fun ch => { ch with sendCtx.pkg := p }) fun _ => rfl).setCut c none

/-- A watcher is started in both. -/
theorem startRecv (h : Alike s t) (c : Slot) : Alike (s.startRecv c) (t.startRecv c) :=
  h.assign c _ fun _ => rfl

/-- A watcher is stopped in both. -/
theorem stopRecv (h : Alike s t) (c : Slot) : Alike (s.stopRecv c) (t.stopRecv c) :=
  h.assign c _ fun _ => rfl

theorem startSend (h : Alike s t) (c : Slot) : Alike (s.startSend c) (t.startSend c) :=
  h.assign c _ fun _ => rfl

theorem stopSend (h : Alike s t) (c : Slot) : Alike (s.stopSend c) (t.stopSend c) :=
  h.assign c _ fun _ => rfl

/-- A descriptor is closed in both. -/
theorem close (h : Alike s t) (fd : ℕ) : Alike (s.close fd) (t.close fd) :=
  { h with opened := by simp only [Server.close, h.opened] }

/-- An iterator that is used after `erase` fails in both. -/
theorem useIterator (h : Alike s t) (fd : ℕ) : Alike (s.useIterator fd) (t.useIterator fd) := by
  rw [Server.useIterator, Server.useIterator, h.channelMap]
  cases s.channelMap[fd]? with
  | none => exact h.fail .erasedIterator
  | some c => exact h

/-- The next answer of the kernel is taken in both. -/
theorem popped (h : Alike s t) (fd off n : ℕ) : Alike (s.popped fd off n) (t.popped fd off n) :=
  { h with
    results := by simp only [Server.popped, h.results]
    fault := by simp only [Server.popped, h.fault] }

/-- The same bytes are sent in both. -/
theorem wrote (h : Alike s t) (fd : ℕ) (p : Pkg) (off n k : ℕ) :
    Alike (s.wrote fd p off n k) (t.wrote fd p off n k) :=
  { h.popped fd off n with sent := by simp only [Server.wrote, h.sent] }

/-- `send` returns the same. -/
theorem send (h : Alike s t) (fd : ℕ) (p : Pkg) (off n : ℕ) : ∃ s' t' r,
    s.send fd p off n = (s', r) ∧ t.send fd p off n = (t', r) ∧ Alike s' t' := by
  unfold Server.send
  rw [h.outcome]
  cases s.outcome fd n with
  | sent k => exact ⟨_, _, .sent k, rfl, rfl, h.wrote fd p off n k⟩
  | again => exact ⟨_, _, .again, rfl, rfl, h.popped fd off n⟩
  | error => exact ⟨_, _, .error, rfl, rfl, h.popped fd off n⟩

/-! ## The handlers -/

/-- `free_channel` frees the same slot in both. -/
theorem freeChannel (h : Alike s t) (c : Slot) : Alike (s.freeChannel c) (t.freeChannel c) := by
  have hE := h.enter (.freeChannel c) (.freeChannel c)
  unfold Server.freeChannel
  simp only [hE.idx]
  generalize ((s.enter (.freeChannel c)).channel c).idx = i
  have hoff := (((((hE.setStatus i .nonActive).setRecvLen i 0 0).setSendLen i 0).stopRecv
    i).stopSend i).setCut i none
  simp only [hoff.fd]
  apply Alike.close
  exact { hoff with channelMap := by simp only [hoff.channelMap] }

/-- `response` looks the addressee up, sends and frees alike. -/
theorem response (h : Alike s t) (p : Pkg) : Alike (s.response p).1 (t.response p).1 := by
  have hE := h.enter (.response p) (.response p)
  unfold Server.response
  simp only [hE.lookup]
  cases (s.enter (.response p)).lookup p.fd with
  | none => exact hE
  | some c =>
    obtain ⟨s', t', r, hs, ht, hsend⟩ := (hE.setSendLen c 0).send p.fd p 0 (p.len + sizeofHead)
    simp only [hs, ht]
    cases r with
    | again => exact hsend.startSend c
    | error => exact hsend.freeChannel c
    | sent k =>
      simp only [hsend.sendCtx]
      split
      · exact (hsend.setSendLen c _).startSend c
      · exact hsend.startRecv c

/-- A packet is built in place. -/
theorem setAnswer (h : Alike s t) (c : Slot) (f : Pkg → Pkg) :
    Alike (s.setSendPkg c (f (s.channel c).sendCtx.pkg))
      (t.setSendPkg c (f (t.channel c).sendCtx.pkg)) := by
  rw [h.sendCtx]
  exact h.setSendPkg c _

/-- And it is sent. -/
theorem answer (h : Alike s t) (c : Slot) : Alike (s.response (s.channel c).sendCtx.pkg).1
    (t.response (t.channel c).sendCtx.pkg).1 := by
  rw [h.sendCtx]
  exact h.response _

/-- `check_break_fd` finds the same bridge and sends the same RESTART. -/
theorem checkBreakFd (h : Alike s t) (ty : ClientType) (fd : ℕ) :
    Alike (s.checkBreakFd ty fd) (t.checkBreakFd ty fd) := by
  have hE := h.enter (.checkBreakFd ty fd) (.checkBreakFd ty fd)
  unfold Server.checkBreakFd
  simp only [hE.bridgeMap]
  split
  · cases (s.enter (.checkBreakFd ty fd)).bridgeMap[fd]? with
    | none => exact hE
    | some r =>
      simp only [hE.fd]
      have hend := (hE.response (restartPkg ((s.enter (.checkBreakFd ty fd)).channel
        r).fd)).setStatus r .active
      exact { hend with bridgeMap := by simp only [hend.bridgeMap] }
  · exact hE

/-- `dispatch` copies the packet that it is given, not the one in the receive buffer. -/
theorem dispatch (h : Alike s t) (pkg : Pkg) (srcfd dstfd : ℕ) :
    Alike (s.dispatch pkg srcfd dstfd).1 (t.dispatch pkg srcfd dstfd).1 := by
  have hE := h.enter (.dispatch pkg srcfd dstfd) (.dispatch pkg srcfd dstfd)
  unfold Server.dispatch
  simp only [hE.lookup]
  cases (s.enter (.dispatch pkg srcfd dstfd)).lookup srcfd with
  | none => exact hE
  | some src =>
    simp only
    cases (s.enter (.dispatch pkg srcfd dstfd)).lookup dstfd with
    | none => exact hE
    | some dst =>
      simp only [hE.sendCtx]
      split
      · exact hE
      have hcopy := (hE.setSendPkg dst (copyFrame ((s.enter (.dispatch pkg srcfd dstfd)).channel
        dst).sendCtx.pkg pkg)).setSendLen dst 0
      obtain ⟨s', t', r, hs, ht, hsend⟩ := hcopy.send dstfd pkg 0 (pkg.len + sizeofHead)
      simp only [hs, ht]
      cases r with
      | again => exact (((hsend.stopRecv src).startSend dst).setSrcChannel dst src).setCut dst _
      | error =>
        simp only [hsend.type, hsend.fd]
        exact ((hsend.checkBreakFd _ _).useIterator dstfd).freeChannel dst
      | sent k =>
        simp only [hsend.sendCtx]
        split
        · exact ((((hsend.setSendLen dst _).stopRecv src).startSend dst).setSrcChannel dst
            src).setCut dst _
        · exact (hsend.stopSend dst).startRecv src

/-- The loop over `channel_map` reads statuses, types and descriptors. -/
theorem listRaspis (c : Slot) (l : List (ℕ × Slot)) : ∀ {s t : Server} (i : ℕ), Alike s t →
    ∃ s' t' b, s.listRaspis c i l = (s', b) ∧ t.listRaspis c i l = (t', b) ∧ Alike s' t' := by
  induction l with
  | nil => exact fun _ h => ⟨_, _, true, rfl, rfl, h⟩
  | cons x l ih =>
    obtain ⟨fd, d⟩ := x
    intro s t i h
    simp only [Server.listRaspis, h.status, h.type, h.sendCtx, h.fd]
    split
    · have hset := h.setSendPkg c ((s.channel c).sendCtx.pkg.setRaspiFd i (s.channel d).fd)
      split
      · exact ⟨_, _, false, rfl, rfl, hset⟩
      · exact ih (i + 1) hset
    · exact ih i h

/-- The list of raspis is the same in both. -/
theorem listAll (h : Alike s t) (c : Slot) : ∃ s' t' b,
    s.listRaspis c 0 s.channelMap.toList = (s', b) ∧
      t.listRaspis c 0 t.channelMap.toList = (t', b) ∧ Alike s' t' := by
  rw [h.channelMap]
  exact listRaspis c _ 0 h

/-- Both register the requester and answer with the same list. -/
theorem handleRegisterClientReq (h : Alike s t) (pkg : Pkg) :
    Alike (s.handleRegisterClientReq pkg).1 (t.handleRegisterClientReq pkg).1 := by
  have hE := h.enter (.handleRegisterClientReq pkg) (.handleRegisterClientReq pkg)
  unfold Server.handleRegisterClientReq
  simp only [hE.lookup]
  cases (s.enter (.handleRegisterClientReq pkg)).lookup pkg.fd with
  | none => exact hE
  | some c =>
    have hres : ∀ ty, Alike
        (((s.enter (.handleRegisterClientReq pkg)).setType c ty).setSendPkg c (registerRes
          (((s.enter (.handleRegisterClientReq pkg)).setType c ty).channel c).sendCtx.pkg pkg.fd))
        (((t.enter (.handleRegisterClientReq pkg)).setType c ty).setSendPkg c (registerRes
          (((t.enter (.handleRegisterClientReq pkg)).setType c ty).channel c).sendCtx.pkg
            pkg.fd)) := fun ty => (hE.setType c ty).setAnswer c (registerRes · pkg.fd)
    simp only
    split
    · exact (hres .raspi).answer c
    · split
      · obtain ⟨s', t', b, hs, ht, hlist⟩ := (hres .remote).listAll c
        simp only [hs, ht]
        cases b with
        | false => exact hlist
        | true => exact hlist.answer c
      · exact hE

/-- Both answer the viewer, notify the raspi and make the bridge. -/
theorem handleChooseServerReq (h : Alike s t) (pkg : Pkg) :
    Alike (s.handleChooseServerReq pkg).1 (t.handleChooseServerReq pkg).1 := by
  have hE := h.enter (.handleChooseServerReq pkg) (.handleChooseServerReq pkg)
  unfold Server.handleChooseServerReq
  simp only [hE.lookup]
  cases (s.enter (.handleChooseServerReq pkg)).lookup pkg.fd with
  | none => exact hE
  | some remote =>
    simp only
    cases (s.enter (.handleChooseServerReq pkg)).lookup pkg.chooseFd with
    | none => exact hE
    | some raspi =>
      have hres := ((hE.setAnswer remote (chooseRes · pkg.fd)).answer remote).useIterator
        pkg.chooseFd
      have hntf := ((hres.setAnswer raspi (startNtf · pkg.fd)).answer raspi).useIterator
        pkg.chooseFd
      exact { hntf with bridgeMap := congrArg (·.insertIfNew pkg.fd raspi) hntf.bridgeMap }

/-- A request has the same effect in both. -/
theorem handle (h : Alike s t) (pkg : Pkg) : Alike (s.handle pkg).1 (t.handle pkg).1 := by
  have hE := h.enter (.handle pkg) (.handle pkg)
  unfold Server.handle
  simp only
  split
  · exact hE.handleRegisterClientReq pkg
  · split
    · exact hE.handleChooseServerReq pkg
    · exact hE

/-! ## The callbacks -/

/-- The packet that is routed is the one in the receive buffer. -/
theorem route (h : Alike s t) (hp : (t.channel c).recvCtx.pkg = (s.channel c).recvCtx.pkg) :
    Alike (s.route c) (t.route c) := by
  by_cases h0 : (s.channel c).recvCtx.pkg.fd = 0
  · rw [route_of_request h0, route_of_request (hp ▸ h0), hp, h.io]
    exact ((h.setRecvPkg c _ _).enter _ _).handle _
  · rw [route_of_relay h0, route_of_relay (hp ▸ h0), hp, h.io]
    exact (h.enter _ _).dispatch _ _ _

/-- `recv` brings nothing. -/
theorem serverRecvCb (h : Alike s t) (c : Slot) {r : RecvResult} (hr : ∀ bs, r ≠ .data bs) :
    Alike (s.serverRecvCb c r) (t.serverRecvCb c r) := by
  have hE := h.enter (.serverRecvCb c) (.serverRecvCb c)
  cases r with
  | closed =>
    have hfree := (hE.enter (.closed c) (.closed c)).freeChannel c
    simp only [Server.serverRecvCb, hfree.type, hfree.io]
    exact hfree.checkBreakFd _ _
  | again => exact hE.startRecv c
  | error => exact hE.freeChannel c
  | data bs => exact absurd rfl (hr bs)

/-- `server_send_cb` reads the send context and `pSrcChannel`. -/
theorem serverSendCb (h : Alike s t) (c : Slot) : Alike (s.serverSendCb c) (t.serverSendCb c) := by
  have hE := h.enter (.serverSendCb c) (.serverSendCb c)
  have hcount : (t.enter (.serverSendCb c)).sendCount c =
      (s.enter (.serverSendCb c)).sendCount c := by
    rw [Globals.sendCount, Globals.sendCount, hE.sendCtx]
  unfold Server.serverSendCb
  simp only [hcount, hE.sendCtx, hE.fd]
  obtain ⟨s', t', r, hs, ht, hsend⟩ := hE.send ((s.enter (.serverSendCb c)).channel c).fd
    ((s.enter (.serverSendCb c)).channel c).sendCtx.pkg
    ((s.enter (.serverSendCb c)).channel c).sendCtx.len ((s.enter (.serverSendCb c)).sendCount c)
  simp only [hs, ht]
  cases r with
  | again => exact hsend.startSend c
  | error =>
    simp only [hsend.type, hsend.fd]
    exact (hsend.checkBreakFd _ _).freeChannel c
  | sent k =>
    simp only [hsend.sendCtx]
    have hlen := hsend.setSendLen c ((s'.channel c).sendCtx.len + k)
    simp only [hlen.sendCtx]
    split
    · exact hlen.startSend c
    · have hdone := ((hlen.stopSend c).startRecv c).setCut c none
      simp only [hdone.sendCtx]
      split
      · exact hdone.fail .nullSrcChannel
      · exact hdone.startRecv _

/-- `accept_cb` takes the same slot in both. -/
theorem acceptCb (h : Alike s t) (fd : ℕ) : Alike (s.acceptCb fd) (t.acceptCb fd) := by
  have hE := h.enter (.acceptCb fd) (.acceptCb fd)
  rcases hs : s.freeSlot with _ | c
  · rw [acceptCb_of_none hs, acceptCb_of_none (h.freeSlot.trans hs)]
    apply Alike.fail
    exact { hE with
      opened := by simp only [h.opened]
      sent := by simp only [h.sent] }
  · rw [acceptCb_of_some hs, acceptCb_of_some (h.freeSlot.trans hs)]
    exact { hE.assign c (freshChannel c fd) fun _ => rfl with
      channelMap := by simp only [Server.accepting, h.channelMap]
      opened := by simp only [Server.accepting, h.opened]
      sent := by simp only [Server.accepting, h.sent]
      cut := by simp only [Server.accepting, h.cut] }

end Alike
end Server
end WawaServer
