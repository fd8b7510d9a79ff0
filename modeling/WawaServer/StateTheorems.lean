import WawaServer.Callbacks

/-!
# Lemmas about the state operations

What each assignment, watcher operation and kernel call of `State.lean` changes, and that it
changes nothing else. All of them reduce to `modify`, whose lemmas are the simp set.
-/

namespace WawaServer

namespace Pkg

/-- The size of a packet, as the source computes it. -/
@[simp] theorem total_eq (p : Pkg) : p.len + sizeofHead = p.total := rfl

/-- `PKG()` sets the length to `0`. -/
@[simp] theorem len_construct : construct.len = 0 := Buffer.word_zero 4

/-- `PKG()` addresses the server. -/
@[simp] theorem fd_construct : construct.fd = 0 := Buffer.word_zero 8

/-- A packet is never shorter than its head. -/
theorem twelve_le_total (p : Pkg) : 12 ≤ p.total := Nat.le_add_left _ _

/-- No frame is empty. -/
theorem total_pos (p : Pkg) : 0 < p.total := p.twelve_le_total.trans_lt' (by decide)

/-- A packet whose length is checked fits in its buffer. -/
theorem total_le {p : Pkg} (h : p.len ≤ bufSize) : p.total ≤ sizeofPkg := by
  simp only [total, bufSize, sizeofHead, sizeofPkg] at *
  omega

/-- A frame is as long as its packet says. -/
@[simp] theorem length_frame (p : Pkg) : p.frame.length = p.total := Buffer.length_slice _ _ _

/-- The bytes that are sent of a whole packet are its frame. -/
@[simp] theorem slice_total (p : Pkg) : Buffer.slice p 0 p.total = p.frame := rfl

/-- The beginning of a frame, as `send` reads it. -/
theorem take_frame (p : Pkg) {n : ℕ} (h : n ≤ p.total) : p.frame.take n = Buffer.slice p 0 n :=
  Buffer.take_slice _ _ _ _ h

/-- Two parts that are sent one after the other are one part. -/
theorem slice_zero_add (p : Pkg) (k l : ℕ) :
    Buffer.slice p 0 k ++ Buffer.slice p k l = Buffer.slice p 0 (k + l) := by
  rw [Buffer.slice_add, zero_add]

/-- A frame shows its address. -/
theorem fd_eq_of_frame_eq {p q : Pkg} (h : p.frame = q.frame) : p.fd = q.fd := by
  apply Buffer.word_congr _ _ _ _
  intro k hk
  have hp : 8 + k < p.total := by have := p.twelve_le_total; omega
  have hq : 8 + k < q.total := by have := q.twelve_le_total; omega
  have hget := congrArg (fun l => l.getD (8 + k) 0) h
  simpa only [frame, Buffer.getD_slice _ _ _ hp, Buffer.getD_slice _ _ _ hq, zero_add] using hget

/-- A descriptor is a 32-bit word in a packet. -/
theorem fd_lt (p : Pkg) : p.fd < 4294967296 := Buffer.word_lt _ _

/-! ## Fields after an assignment -/

section Assignments
variable (p : Pkg) (c : PkgCmdType) (v : ℕ)

/-- The command is not the length. -/
@[simp] theorem len_setCmd : (p.setCmd c).len = p.len :=
  Buffer.word_setWord_of_outside _ _ _ (by omega)

/-- The descriptor is not the length. -/
@[simp] theorem len_setFd : (p.setFd v).len = p.len :=
  Buffer.word_setWord_of_outside _ _ _ (by omega)

/-- The result is in the body. -/
@[simp] theorem len_setResult : (p.setResult v).len = p.len :=
  Buffer.word_setWord_of_outside _ _ _ (by omega)

/-- The reserved word is in the body. -/
@[simp] theorem len_setReserve : (p.setReserve v).len = p.len :=
  Buffer.word_setWord_of_outside _ _ _ (by omega)

/-- The list of raspis is in the body. -/
@[simp] theorem len_setRaspiFd (i : ℕ) : (p.setRaspiFd i v).len = p.len :=
  Buffer.word_setWord_of_outside _ _ _ (by omega)

/-- The command is not the descriptor. -/
@[simp] theorem fd_setCmd : (p.setCmd c).fd = p.fd :=
  Buffer.word_setWord_of_outside _ _ _ (by omega)

/-- The length is not the descriptor. -/
@[simp] theorem fd_setLen : (p.setLen v).fd = p.fd :=
  Buffer.word_setWord_of_outside _ _ _ (by omega)

/-- The result is after the head. -/
@[simp] theorem fd_setResult : (p.setResult v).fd = p.fd :=
  Buffer.word_setWord_of_outside _ _ _ (by omega)

/-- The reserved word is after the head. -/
@[simp] theorem fd_setReserve : (p.setReserve v).fd = p.fd :=
  Buffer.word_setWord_of_outside _ _ _ (by omega)

/-- The list of raspis is after the head. -/
@[simp] theorem fd_setRaspiFd (i : ℕ) : (p.setRaspiFd i v).fd = p.fd :=
  Buffer.word_setWord_of_outside _ _ _ (by omega)

/-- `server_recv_cb` puts the requester's descriptor over that of the server; the command stays. -/
@[simp] theorem cmd_setFd : (p.setFd v).cmd = p.cmd :=
  Buffer.word_setWord_of_outside _ _ _ (by omega)

/-- The raspi that is asked for stays, too. -/
@[simp] theorem chooseFd_setFd : (p.setFd v).chooseFd = p.chooseFd :=
  Buffer.word_setWord_of_outside _ _ _ (by omega)

/-- The length is not the command. -/
@[simp] theorem cmd_setLen : (p.setLen v).cmd = p.cmd :=
  Buffer.word_setWord_of_outside _ _ _ (by omega)

@[simp] theorem cmd_setResult : (p.setResult v).cmd = p.cmd :=
  Buffer.word_setWord_of_outside _ _ _ (by omega)

@[simp] theorem cmd_setReserve : (p.setReserve v).cmd = p.cmd :=
  Buffer.word_setWord_of_outside _ _ _ (by omega)

@[simp] theorem cmd_setRaspiFd (i : ℕ) : (p.setRaspiFd i v).cmd = p.cmd :=
  Buffer.word_setWord_of_outside _ _ _ (by omega)

/-- A command is read back. -/
@[simp] theorem cmd_setCmd : (p.setCmd c).cmd = c.code :=
  Buffer.word_setWord_self _ _ _ (by decide) (by cases c <;> decide)

variable {p c v}

/-- The reserved word is read back. -/
theorem reserve_setReserve (hv : v < 4294967296) : (p.setReserve v).reserve = v :=
  Buffer.word_setWord_self _ _ _ (by decide) hv

/-- A result is read back. -/
theorem result_setResult (hv : v < 4294967296) : (p.setResult v).result = v :=
  Buffer.word_setWord_self _ _ _ (by decide) hv

/-- A length is read back. -/
theorem len_setLen (hv : v < 4294967296) : (p.setLen v).len = v :=
  Buffer.word_setWord_self _ _ _ (by decide) hv

/-- A descriptor is read back. -/
theorem fd_setFd (hv : v < 4294967296) : (p.setFd v).fd = v :=
  Buffer.word_setWord_self _ _ _ (by decide) hv

end Assignments

/-! ## Copying a frame -/

/-- `memcpy` of a packet that fits copies every byte of its frame. -/
theorem get_copyFrame (q p : Pkg) {i : ℕ} (hp : p.len ≤ bufSize) (hi : i < p.total) :
    Buffer.get (Server.copyFrame q p) i = Buffer.get p i := by
  have ht := total_le hp
  rw [Server.copyFrame, frame, Buffer.get_write_slice _ _ _ (by omega), if_pos hi]

/-- The words of a frame are copied. -/
theorem word_copyFrame (q p : Pkg) {i : ℕ} (hp : p.len ≤ bufSize) (hi : i + 4 ≤ p.total) :
    Buffer.word (Server.copyFrame q p) i = Buffer.word p i :=
  Buffer.word_congr _ _ _ _ fun k _ => get_copyFrame q p hp (by omega)

/-- The copy has the length of the packet. -/
theorem len_copyFrame (q : Pkg) {p : Pkg} (hp : p.len ≤ bufSize) :
    (Server.copyFrame q p).len = p.len :=
  word_copyFrame q p hp (by have := twelve_le_total p; omega)

/-- The copy has the address of the packet. -/
theorem fd_copyFrame (q : Pkg) {p : Pkg} (hp : p.len ≤ bufSize) :
    (Server.copyFrame q p).fd = p.fd :=
  word_copyFrame q p hp (twelve_le_total p)

/-- The copy has the command of the packet. -/
theorem isStart_copyFrame (q : Pkg) {p : Pkg} (hp : p.len ≤ bufSize) :
    (Server.copyFrame q p).IsStart ↔ p.IsStart := by
  have hcmd : (Server.copyFrame q p).cmd = p.cmd :=
    word_copyFrame q p hp (by have := twelve_le_total p; omega)
  rw [IsStart, IsStart, hcmd]

/-- The copy has the size of the packet. -/
theorem total_copyFrame (q : Pkg) {p : Pkg} (hp : p.len ≤ bufSize) :
    (Server.copyFrame q p).total = p.total :=
  congrArg (· + sizeofHead) (len_copyFrame q hp)

/-- The copy is the same frame. -/
theorem frame_copyFrame (q : Pkg) {p : Pkg} (hp : p.len ≤ bufSize) :
    (Server.copyFrame q p).frame = p.frame := by
  rw [frame, frame, total_copyFrame q hp]
  refine Buffer.slice_congr _ _ _ _ _ fun k hk => get_copyFrame q p hp ?_
  rwa [zero_add]

end Pkg

namespace Server

variable (s : Server) (c d : Slot)

/-! ## `modify` -/

/-- An assignment changes the channel in slot `c`, and no other. -/
theorem modify_channel (f : Channel → Channel) :
    (s.modify c f).channel d = if d = c then f (s.channel c) else s.channel d := by
  simp [modify, Function.update_apply]

/-- The channel that is assigned to. -/
@[simp] theorem modify_channel_self (f : Channel → Channel) :
    (s.modify c f).channel c = f (s.channel c) := by
  simp [modify]

/-- The other channels stay as they are. -/
theorem modify_channel_of_ne {s : Server} {c d : Slot} (h : d ≠ c) (f : Channel → Channel) :
    (s.modify c f).channel d = s.channel d := by
  simp [modify, h]

section Fields
variable (f : Channel → Channel)

/-- No assignment to a channel changes `channel_map`. -/
@[simp] theorem modify_channelMap : (s.modify c f).channelMap = s.channelMap := rfl

/-- No assignment to a channel changes `bridge_map`. -/
@[simp] theorem modify_bridgeMap : (s.modify c f).bridgeMap = s.bridgeMap := rfl

/-- No assignment to a channel opens or closes a descriptor. -/
@[simp] theorem modify_opened : (s.modify c f).opened = s.opened := rfl

/-- No assignment to a channel sends anything. -/
@[simp] theorem modify_sent : (s.modify c f).sent = s.sent := rfl

/-- No assignment to a channel uses up an answer of the kernel. -/
@[simp] theorem modify_results : (s.modify c f).results = s.results := rfl

@[simp] theorem modify_cut : (s.modify c f).cut = s.cut := rfl

@[simp] theorem modify_fault : (s.modify c f).fault = s.fault := rfl

/-- No assignment to a channel is recorded. -/
@[simp] theorem modify_calls : (s.modify c f).calls = s.calls := rfl

end Fields

/-- A call that is recorded changes no variable. -/
@[simp] theorem enter_toGlobals (k : Call) : (s.enter k).toGlobals = s.toGlobals := rfl

/-- A field of a channel that an assignment leaves alone. -/
theorem modify_channel_field {α : Type*} (π : Channel → α) (f : Channel → Channel)
    (hf : ∀ ch, π (f ch) = π ch) : π ((s.modify c f).channel d) = π (s.channel d) := by
  rw [modify_channel]
  split
  · subst d; exact hf _
  · rfl

section Untouched
variable (f : Channel → Channel)

/-- No assignment but that of `accept_cb` changes a descriptor. -/
@[simp] theorem modify_channel_fd (hf : ∀ ch, (f ch).fd = ch.fd) :
    ((s.modify c f).channel d).fd = (s.channel d).fd :=
  modify_channel_field s c d (·.fd) f hf

/-- The index is set by `accept_cb` only. -/
@[simp] theorem modify_channel_idx (hf : ∀ ch, (f ch).idx = ch.idx) :
    ((s.modify c f).channel d).idx = (s.channel d).idx :=
  modify_channel_field s c d (·.idx) f hf

/-- Most assignments leave the status alone. -/
@[simp] theorem modify_channel_status (hf : ∀ ch, (f ch).status = ch.status) :
    ((s.modify c f).channel d).status = (s.channel d).status :=
  modify_channel_field s c d (·.status) f hf

/-- Most assignments leave the type alone. -/
@[simp] theorem modify_channel_type (hf : ∀ ch, (f ch).type = ch.type) :
    ((s.modify c f).channel d).type = (s.channel d).type :=
  modify_channel_field s c d (·.type) f hf

/-- Assignments to the send context leave the receive context alone. -/
@[simp] theorem modify_channel_recvCtx (hf : ∀ ch, (f ch).recvCtx = ch.recvCtx) :
    ((s.modify c f).channel d).recvCtx = (s.channel d).recvCtx :=
  modify_channel_field s c d (·.recvCtx) f hf

/-- Assignments to the receive buffer leave its watcher alone. -/
@[simp] theorem modify_channel_recvActive
    (hf : ∀ ch, (f ch).recvCtx.io.active = ch.recvCtx.io.active) :
    ((s.modify c f).channel d).recvCtx.io.active = (s.channel d).recvCtx.io.active :=
  modify_channel_field s c d (·.recvCtx.io.active) f hf

/-- Watcher operations leave the receive buffer alone. -/
@[simp] theorem modify_channel_recvPkg (hf : ∀ ch, (f ch).recvCtx.pkg = ch.recvCtx.pkg) :
    ((s.modify c f).channel d).recvCtx.pkg = (s.channel d).recvCtx.pkg :=
  modify_channel_field s c d (·.recvCtx.pkg) f hf

/-- Watcher operations leave the number of bytes received alone. -/
@[simp] theorem modify_channel_recvLen (hf : ∀ ch, (f ch).recvCtx.len = ch.recvCtx.len) :
    ((s.modify c f).channel d).recvCtx.len = (s.channel d).recvCtx.len :=
  modify_channel_field s c d (·.recvCtx.len) f hf

/-- Assignments to the receive context leave the send context alone. -/
@[simp] theorem modify_channel_sendCtx (hf : ∀ ch, (f ch).sendCtx = ch.sendCtx) :
    ((s.modify c f).channel d).sendCtx = (s.channel d).sendCtx :=
  modify_channel_field s c d (·.sendCtx) f hf

/-- Assignments to the send buffer leave its watcher alone. -/
@[simp] theorem modify_channel_sendActive
    (hf : ∀ ch, (f ch).sendCtx.io.active = ch.sendCtx.io.active) :
    ((s.modify c f).channel d).sendCtx.io.active = (s.channel d).sendCtx.io.active :=
  modify_channel_field s c d (·.sendCtx.io.active) f hf

/-- Watcher operations leave the send buffer alone. -/
@[simp] theorem modify_channel_sendPkg (hf : ∀ ch, (f ch).sendCtx.pkg = ch.sendCtx.pkg) :
    ((s.modify c f).channel d).sendCtx.pkg = (s.channel d).sendCtx.pkg :=
  modify_channel_field s c d (·.sendCtx.pkg) f hf

/-- Watcher operations leave the number of bytes sent alone. -/
@[simp] theorem modify_channel_sendLen (hf : ∀ ch, (f ch).sendCtx.len = ch.sendCtx.len) :
    ((s.modify c f).channel d).sendCtx.len = (s.channel d).sendCtx.len :=
  modify_channel_field s c d (·.sendCtx.len) f hf

/-- `pSrcChannel` is set by `dispatch` only. -/
@[simp] theorem modify_channel_src
    (hf : ∀ ch, (f ch).sendCtx.pSrcChannel = ch.sendCtx.pSrcChannel) :
    ((s.modify c f).channel d).sendCtx.pSrcChannel = (s.channel d).sendCtx.pSrcChannel :=
  modify_channel_field s c d (·.sendCtx.pSrcChannel) f hf

end Untouched

section Watchers
variable {s c d}

/-- `ev_io_start` starts one receive watcher. -/
@[simp] theorem recvActive_startRecv :
    ((s.modify c fun ch => { ch with recvCtx.io.active := true }).channel
      d).recvCtx.io.active = true ↔ d = c ∨ (s.channel d).recvCtx.io.active = true := by
  rw [modify_channel]
  split <;> simp_all

/-- `ev_io_stop` stops one receive watcher. -/
@[simp] theorem recvActive_stopRecv :
    ((s.modify c fun ch => { ch with recvCtx.io.active := false }).channel
      d).recvCtx.io.active = true ↔ d ≠ c ∧ (s.channel d).recvCtx.io.active = true := by
  rw [modify_channel]
  split <;> simp_all

/-- `ev_io_start` starts one send watcher. -/
@[simp] theorem sendActive_startSend :
    ((s.modify c fun ch => { ch with sendCtx.io.active := true }).channel
      d).sendCtx.io.active = true ↔ d = c ∨ (s.channel d).sendCtx.io.active = true := by
  rw [modify_channel]
  split <;> simp_all

/-- `ev_io_stop` stops one send watcher. -/
@[simp] theorem sendActive_stopSend :
    ((s.modify c fun ch => { ch with sendCtx.io.active := false }).channel
      d).sendCtx.io.active = true ↔ d ≠ c ∧ (s.channel d).sendCtx.io.active = true := by
  rw [modify_channel]
  split <;> simp_all

end Watchers

attribute [simp] setStatus setType setRecvLen setRecvPkg setSendLen setSrcChannel setSendPkg setCut
  startRecv stopRecv startSend stopSend enter fail popped wrote

/-- An assignment that changes nothing. -/
theorem modify_of_eq (f : Channel → Channel) (h : f (s.channel c) = s.channel c) :
    s.modify c f = s := by
  simp [modify, h]

/-! ## `free_channel` -/

/-- `free_channel` on a slot that knows its index. -/
def freed (s : Server) (c : Slot) : Server :=
  { (s.enter (.freeChannel c)).modify c fun ch =>
      { ch with
        status := .nonActive
        recvCtx.len := 0
        sendCtx.len := 0
        recvCtx.io.active := false
        sendCtx.io.active := false } with
    channelMap := s.channelMap.erase (s.channel c).fd
    opened := Function.update s.opened (s.channel c).fd false
    cut := Function.update s.cut c none }

/-- `free_channel` frees the slot that `idx` names, which is then the one it was given. -/
theorem freeChannel_eq {s : Server} {c : Slot} (h : (s.channel c).idx = c) :
    s.freeChannel c = s.freed c := by
  simp [freeChannel, freed, enter, setStatus, setRecvLen, setSendLen, stopRecv, stopSend, setCut,
    close, modify, h]

/-- The other channels stay as they are. -/
theorem freed_channel : (s.freed c).channel d = if d = c then
    { s.channel c with
      status := .nonActive
      recvCtx.len := 0
      sendCtx.len := 0
      recvCtx.io.active := false
      sendCtx.io.active := false } else s.channel d := by
  simp only [freed, modify_channel]
  rfl

/-- A freed slot keeps its descriptor. -/
@[simp] theorem freed_channel_fd : ((s.freed c).channel d).fd = (s.channel d).fd := by
  rw [freed_channel]
  split
  · subst d; rfl
  · rfl

/-- A freed slot keeps its send buffer. -/
@[simp] theorem freed_sendPkg :
    ((s.freed c).channel d).sendCtx.pkg = (s.channel d).sendCtx.pkg := by
  rw [freed_channel]
  split
  · subst d; rfl
  · rfl

/-- A freed slot keeps its receive buffer. -/
@[simp] theorem freed_recvPkg :
    ((s.freed c).channel d).recvCtx.pkg = (s.channel d).recvCtx.pkg := by
  rw [freed_channel]
  split
  · subst d; rfl
  · rfl

/-- What was empty stays empty. -/
theorem freed_recvLen {s : Server} {c d : Slot} (h : (s.channel d).recvCtx.len = 0) :
    ((s.freed c).channel d).recvCtx.len = 0 := by
  rw [freed_channel]
  split
  · rfl
  · exact h

/-- A freed slot has its receive watcher stopped. -/
@[simp] theorem freed_recvActive : ((s.freed c).channel d).recvCtx.io.active = true ↔
    d ≠ c ∧ (s.channel d).recvCtx.io.active = true := by
  rw [freed_channel]
  split <;> simp_all

/-- A freed slot has its send watcher stopped. -/
@[simp] theorem freed_sendActive : ((s.freed c).channel d).sendCtx.io.active = true ↔
    d ≠ c ∧ (s.channel d).sendCtx.io.active = true := by
  rw [freed_channel]
  split <;> simp_all

/-- The entry of the descriptor is erased, and no other. -/
theorem freed_channelMap (fd : ℕ) : (s.freed c).channelMap[fd]? = some d ↔
    fd ≠ (s.channel c).fd ∧ s.channelMap[fd]? = some d := by
  simp only [freed, Std.ExtTreeMap.getElem?_erase, Std.LawfulEqCmp.compare_eq_iff_eq]
  split
  · simp_all
  · rename_i hne
    simp [Ne.symm hne]

/-- The descriptor is closed, and no other. -/
theorem freed_opened (fd : ℕ) :
    (s.freed c).opened fd = if fd = (s.channel c).fd then false else s.opened fd := by
  simp [freed, Function.update_apply]

@[simp] theorem freed_calls : (s.freed c).calls = (.freeChannel c, s.toGlobals) :: s.calls := rfl
@[simp] theorem freed_bridgeMap : (s.freed c).bridgeMap = s.bridgeMap := rfl
@[simp] theorem freed_sent : (s.freed c).sent = s.sent := rfl
@[simp] theorem freed_results : (s.freed c).results = s.results := rfl
@[simp] theorem freed_fault : (s.freed c).fault = s.fault := rfl
@[simp] theorem freed_cut : (s.freed c).cut = Function.update s.cut c none := rfl

/-- What `channel_map` has no entry for after `free_channel`. -/
theorem freed_channelMap_none {fd : ℕ} : (s.freed c).channelMap[fd]? = none ↔
    fd = (s.channel c).fd ∨ s.channelMap[fd]? = none := by
  rw [Option.eq_none_iff_forall_ne_some]
  simp only [ne_eq, freed_channelMap, not_and]
  constructor
  · intro h
    by_cases hfd : fd = (s.channel c).fd
    · exact .inl hfd
    · exact .inr (Option.eq_none_iff_forall_ne_some.2 fun a => h a hfd)
  · rintro (h | h) a hne
    · exact absurd h hne
    · simp [h]

/-! ## `send` -/

/-- `send` takes no more than it is given. -/
theorem accepted_le (k n : ℕ) : Globals.accepted k n ≤ n := by
  unfold Globals.accepted
  split <;> omega

/-- What `send` returns is at most what it was given. -/
theorem outcome_le {s : Globals} {fd n k : ℕ} (h : s.outcome fd n = .sent k) : k ≤ n := by
  unfold Globals.outcome at h
  split at h
  · split at h <;> cases h
    exact accepted_le _ _
  · cases h

/-- The answer of the kernel depends on the descriptor table and the pending answers. -/
theorem outcome_congr {s t : Globals} (ho : t.opened = s.opened) (hr : t.results = s.results)
    (fd n : ℕ) : t.outcome fd n = s.outcome fd n := by
  rw [Globals.outcome, Globals.outcome, ho, hr]

/-- Accepting nothing is not writing. -/
theorem wrote_zero (fd : ℕ) (p : Pkg) (off n : ℕ) : s.wrote fd p off n 0 = s.popped fd off n := by
  simp

/-! ## Operations without effect -/

/-- The last packet written to a send buffer is the one in it. -/
@[simp] theorem setSendPkg_setSendPkg (p q : Pkg) :
    (s.setSendPkg c p).setSendPkg c q = s.setSendPkg c q := by
  simp [modify]

/-- Starting a receive watcher that is started does nothing. -/
theorem startRecv_of_active {s : Server} {c : Slot} (h : (s.channel c).recvCtx.io.active = true) :
    s.startRecv c = s := by
  apply modify_of_eq
  rw [← h]

/-- Starting a send watcher that is started does nothing. -/
theorem startSend_of_active {s : Server} {c : Slot} (h : (s.channel c).sendCtx.io.active = true) :
    s.startSend c = s := by
  apply modify_of_eq
  rw [← h]

/-- Setting the offset to what it is does nothing. -/
theorem setSendLen_of_eq {s : Server} {c : Slot} {n : ℕ} (h : (s.channel c).sendCtx.len = n) :
    s.setSendLen c n = s := by
  apply modify_of_eq
  rw [← h]

/-! ## `get_free_channel` and `accept_cb` -/

/-- `get_free_channel` finds a slot that is not active. -/
theorem freeSlot_some {s : Server} {c : Slot} (h : s.freeSlot = some c) :
    (s.channel c).status = .nonActive := by
  simpa using List.find?_some h

/-- It finds none only if all are in use. -/
theorem freeSlot_none {s : Server} (h : s.freeSlot = none) (c : Slot) :
    (s.channel c).status ≠ .nonActive := by
  simpa using List.find?_eq_none.1 h c (List.mem_finRange c)

/-- What `accept_cb` leaves of a channel: `type` and `pSrcChannel` are those of the slot's
last user. -/
def freshChannel (c : Slot) (fd : ℕ) (old : Channel) : Channel where
  fd := fd
  status := .active
  idx := c
  type := old.type
  recvCtx := { io := ⟨fd, true⟩, pkg := Pkg.construct, len := 0 }
  sendCtx := { io := ⟨fd, false⟩, pkg := Pkg.construct, len := 0,
               pSrcChannel := old.sendCtx.pSrcChannel }

/-- `accept_cb` when slot `c` is free. -/
def accepting (s : Server) (fd : ℕ) (c : Slot) : Server :=
  { (s.enter (.acceptCb fd)).modify c (freshChannel c fd) with
    channelMap := s.channelMap.insertIfNew fd c
    opened := Function.update s.opened fd true
    sent := Function.update s.sent fd []
    cut := fun d => if Function.update s.cut c none d = some c then none
      else Function.update s.cut c none d }

/-- `accept_cb` fills the first free slot. -/
theorem acceptCb_of_some {s : Server} {fd : ℕ} {c : Slot} (h : s.freeSlot = some c) :
    s.acceptCb fd = s.accepting fd c := by
  have hf : ({ s.enter (.acceptCb fd) with
      opened := Function.update s.opened fd true
      sent := Function.update s.sent fd [] } : Server).freeSlot = some c := h
  simp only [acceptCb, getFreeChannel, enter] at hf ⊢
  rw [hf]
  simp [accepting, forget, initIo, modify, freshChannel]

/-- `accept_cb` when no slot is free. -/
def refusing (s : Server) (fd : ℕ) : Server :=
  ({ s.enter (.acceptCb fd) with
    opened := Function.update s.opened fd true
    sent := Function.update s.sent fd [] } : Server).fail .nullChannel

/-- `accept_cb` does not check for the null pointer, and the descriptor stays open. -/
theorem acceptCb_of_none {s : Server} {fd : ℕ} (h : s.freeSlot = none) :
    s.acceptCb fd = s.refusing fd := by
  have hf : ({ s.enter (.acceptCb fd) with
      opened := Function.update s.opened fd true
      sent := Function.update s.sent fd [] } : Server).freeSlot = none := h
  simp only [acceptCb, getFreeChannel, refusing, enter] at hf ⊢
  rw [hf]

/-- The other channels stay as they are. -/
theorem accepting_channel (fd : ℕ) : (s.accepting fd c).channel d =
    if d = c then freshChannel c fd (s.channel c) else s.channel d := by
  simp only [accepting, modify_channel]
  rfl

/-- The new entry is for the new descriptor. -/
theorem accepting_channelMap {s : Server} {fd : ℕ} (h : s.channelMap[fd]? = none) (c : Slot)
    (fd' : ℕ) : (s.accepting fd c).channelMap[fd']? =
      if fd' = fd then some c else s.channelMap[fd']? := by
  have hmem : fd ∉ s.channelMap := by
    rw [Std.ExtTreeMap.mem_iff_isSome_getElem?, h]
    simp
  simp only [accepting, Std.ExtTreeMap.getElem?_insertIfNew,
    Std.LawfulEqCmp.compare_eq_iff_eq, hmem, not_false_eq_true, and_true]
  by_cases hfd : fd = fd'
  · rw [if_pos hfd, if_pos hfd.symm]
  · rw [if_neg hfd, if_neg (Ne.symm hfd)]

end Server
end WawaServer
