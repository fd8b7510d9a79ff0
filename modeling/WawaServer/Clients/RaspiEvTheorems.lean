import WawaServer.Clients.RaspiEv

/-!
# One frame is sent, and none is read after it

What `send_cb` does is the same in every call: it asks for 12 bytes after the `send_len` bytes that
were counted so far, stops the watcher that reads, and keeps its own started. So the watcher that
writes never stops after a chunk was read, and whatever stops the other one stops it for good.
-/

namespace WawaServer
namespace RaspiEv

/-- No end of file, and no hard error. -/
def Event.Benign : Event → Prop
  | .recv r _ q => r ≠ .closed ∧ r ≠ .error ∧ q ≠ .error
  | .send q => q ≠ .error

instance : ∀ e, Decidable (Event.Benign e)
  | .recv _ _ _ => inferInstanceAs (Decidable (_ ∧ _ ∧ _))
  | .send _ => inferInstanceAs (Decidable (_ ≠ _))

namespace State

variable {s t u : State} {e : Event} {es : List Event} {q : SendResult} {bs chunk : List UInt8}
  {stdin : Option (List UInt8)} {n : ℕ}

theorem step_eq_some : s.step e = some t ↔ s.Enabled e ∧ s.exec e = t := by
  unfold step
  split <;> rename_i h <;> simp [h]

/-! ## `send_cb` -/

/-- The state after a call of `send_cb` that sent `m` bytes. -/
def sending (s : State) (m : ℕ) : State :=
  { s with
    overread := s.overread || decide (sizeofPkg < s.sendLen + sizeofHead)
    output := s.output ++ Buffer.slice s.sendPkg s.sendLen m
    sendLen := s.sendLen + m
    recvIo := false
    sendIo := true }

theorem accepted_pos (k : ℕ) {n : ℕ} (h : 0 < n) :
    1 ≤ Globals.accepted k n ∧ Globals.accepted k n ≤ n := by
  unfold Globals.accepted
  rw [if_neg h.ne']
  omega

theorem sendCb_of_again : s.sendCb .again = s.sending 0 := by
  simp only [sendCb, send, sending, Nat.add_sub_cancel_left, Buffer.slice_zero_length,
    List.append_nil, Nat.add_zero]

theorem sendCb_of_sent (s : State) (k : ℕ) :
    s.sendCb (.sent k) = s.sending (Globals.accepted k sizeofHead) := by
  have hlt : s.sendLen < s.sendLen + sizeofHead := Nat.lt_add_of_pos_right (by decide)
  simp only [sendCb, send, sending, Nat.add_sub_cancel_left, if_pos hlt]

/-- Without a hard error, `send_cb` goes on. -/
theorem sendCb_sending (hq : q ≠ .error) :
    ∃ m, s.sendCb q = s.sending m ∧ ((∃ k, q = .sent k) → 1 ≤ m) := by
  cases q with
  | error => exact absurd rfl hq
  | again => exact ⟨0, sendCb_of_again, fun ⟨k, hk⟩ => by cases hk⟩
  | sent k => exact ⟨_, sendCb_of_sent s k, fun _ => (accepted_pos k (by decide)).1⟩

/-! ## `send_pkg_2_server` and the handlers -/

/-- Nothing was counted yet, so that no packet is taken for unfinished. -/
theorem sendPkg2Server_of_sent (h : s.sendLen = 0) (k : ℕ) :
    (s.sendPkg2Server (.sent k)).1 =
      { (s.send 0 (sizeofHead + s.sendPkg.len) (.sent k)).1 with sendIo := true, recvIo := true } := by
  have hlt : ∀ m, ¬ m < s.sendLen := fun m => by omega
  simp only [sendPkg2Server, send, if_neg (hlt _)]

theorem sendPkg2Server_sendLen (h : s.sendLen = 0) (q : SendResult) :
    (s.sendPkg2Server q).1.sendLen = 0 := by
  cases q with
  | sent k => exact (congrArg sendLen (sendPkg2Server_of_sent h k)).trans h
  | again => exact h
  | error => exact h

theorem sendPkg2Server_opened (hq : q ≠ .error) : (s.sendPkg2Server q).1.opened = s.opened := by
  cases q with
  | sent k =>
    simp only [sendPkg2Server, send]
    split <;> rfl
  | again => rfl
  | error => exact absurd rfl hq

/-- The ways through `handle_pkg`: nothing is sent, or a chunk is. -/
theorem handlePkg_cases (s : State) (stdin : Option (List UInt8)) (q : SendResult) :
    (∃ p p', (s.handlePkg stdin q).1 = { s with sendPkg := p, recvPkg := p' }) ∨
    ∃ bs p', stdin = some bs ∧ 0 < bs.length ∧ (s.handlePkg stdin q).1 = (sendPkg2Server { s with
      sendPkg := Buffer.write Pkg.construct sizeofHead bs
      recvPkg := p' } q).1 := by
  unfold handlePkg
  split
  · exact .inl ⟨_, _, rfl⟩
  · split
    · exact .inl ⟨_, _, rfl⟩
    · split
      · unfold handleStartSendDataNtf
        cases stdin with
        | none => exact .inl ⟨_, _, rfl⟩
        | some bs =>
          simp only
          split
          · rename_i hpos
            exact .inr ⟨bs, _, rfl, hpos, rfl⟩
          · exact .inl ⟨_, _, rfl⟩
      · exact .inl ⟨_, _, rfl⟩

theorem handlePkg_sendLen (h : s.sendLen = 0) : (s.handlePkg stdin q).1.sendLen = 0 := by
  rcases s.handlePkg_cases stdin q with ⟨p, p', heq⟩ | ⟨bs, p', -, -, heq⟩ <;> rw [heq]
  · exact h
  · exact sendPkg2Server_sendLen (by exact h) q

theorem handlePkg_opened (hq : q ≠ .error) : (s.handlePkg stdin q).1.opened = s.opened := by
  rcases s.handlePkg_cases stdin q with ⟨p, p', heq⟩ | ⟨bs, p', -, -, heq⟩ <;> rw [heq]
  exact sendPkg2Server_opened hq

/-! ## `recv_cb` -/

/-- With the bytes `bs` the packet in `recv_pkg` is complete. -/
def Completes (s : State) (bs : List UInt8) : Prop :=
  sizeofHead ≤ s.recvLen + bs.length ∧ (s.store bs).recvPkg.len ≤ bufSize ∧
    (s.store bs).recvPkg.total ≤ s.recvLen + bs.length

instance (s : State) (bs : List UInt8) : Decidable (s.Completes bs) :=
  inferInstanceAs (Decidable (_ ∧ _ ∧ _))

theorem recvCb_of_completes (h : s.Completes bs) :
    s.recvCb (.data bs) stdin q = { ((s.store bs).handlePkg stdin q).1 with
      recvLen := 0
      recvPkg := Pkg.construct
      recvIo := false } := by
  obtain ⟨hhead, hlen, htotal⟩ := h
  have hlen' : (s.store bs).recvLen = s.recvLen + bs.length := rfl
  rw [Pkg.total] at htotal
  simp only [recvCb, hlen']
  rw [if_neg (by omega), if_neg (by omega), if_neg (by omega)]

/-- Bytes that do not complete the packet leave the watcher started, or close the connection. -/
theorem recvCb_of_not_completes (stdin : Option (List UInt8)) (q : SendResult)
    (h : ¬ s.Completes bs) (hact : s.recvIo = true) :
    (s.recvCb (.data bs) stdin q).recvIo = true ∨
      (s.recvCb (.data bs) stdin q).opened = false := by
  have hlen' : (s.store bs).recvLen = s.recvLen + bs.length := rfl
  simp only [recvCb, hlen']
  split
  · exact .inl hact
  · split
    · exact .inr rfl
    · split
      · exact .inl rfl
      · rename_i hhead hlen htotal
        exact absurd ⟨by omega, by omega, by rw [Pkg.total]; omega⟩ h

/-! ## Deafness -/

/-- After some calls of `send_cb` the state is `u`, and the next call sends the last byte of the
packet. -/
def LastSend (s u : State) (q : SendResult) : Prop :=
  ∃ (qs : List SendResult) (k : ℕ), Runs.run step s (qs.map .send) = some u ∧ q = .sent k ∧
    u.sendLen + Globals.accepted k sizeofHead = u.sendPkg.total

/-- There is a call of `send_cb` that sends the last byte, and it starts the watcher that reads. -/
def Restarts (s : State) : Prop :=
  (∃ u q, LastSend s u q) ∧ ∀ u q, LastSend s u q → (u.sendCb q).recvIo = true

/-- While the connection is open, `recv_cb` is called or will be. -/
def Hears (s : State) : Prop :=
  s.opened = true → s.recvIo = true ∨ s.sendIo = true ∧ s.Restarts

/-- The callback is a `recv_cb` that does not complete a packet. -/
def Quiet (s : State) : Event → Prop
  | .recv (.data bs) _ _ => ¬ s.Completes bs
  | .recv _ _ _ => True
  | .send _ => False

/-- No call of `send_cb` starts that watcher. -/
theorem not_restarts (s : State) : ¬ s.Restarts := by
  rintro ⟨⟨u, q, hlast⟩, hall⟩
  obtain ⟨qs, k, hrun, rfl, hlen⟩ := hlast
  have hrecv := hall u (.sent k) ⟨qs, k, hrun, rfl, hlen⟩
  rw [sendCb_of_sent] at hrecv
  exact Bool.false_ne_true hrecv

theorem hears_iff_of_opened (h : s.opened = true) : s.Hears ↔ s.recvIo = true :=
  ⟨fun hs => (hs h).resolve_right fun hr => s.not_restarts hr.2, fun hs _ => .inl hs⟩

/-- One callback: the process can still hear after it exactly if it was quiet. -/
theorem step_hears (h : s.step e = some t) (he : e.Benign) : t.Hears ↔ s.Quiet e := by
  obtain ⟨hen, rfl⟩ := step_eq_some.1 h
  cases e with
  | send q =>
    obtain ⟨m, heq, -⟩ := sendCb_sending (s := s) he
    have hopen : (s.sending m).opened = true := hen.2
    rw [exec, heq, hears_iff_of_opened hopen]
    exact ⟨fun hf => Bool.false_ne_true hf, fun hf => hf.elim⟩
  | recv r stdin q =>
    obtain ⟨hact, hopen, -, -⟩ := hen
    obtain ⟨hclosed, herror, hq⟩ := he
    cases r with
    | closed => exact absurd rfl hclosed
    | error => exact absurd rfl herror
    | again => exact ⟨fun _ => trivial, fun _ _ => .inl rfl⟩
    | data bs =>
      by_cases hc : s.Completes bs
      · -- the watcher is stopped after the packet was handled
        have hopen' : (s.recvCb (.data bs) stdin q).opened = true := by
          rw [recvCb_of_completes hc]
          exact (handlePkg_opened hq).trans hopen
        rw [exec, hears_iff_of_opened hopen', recvCb_of_completes hc]
        exact ⟨fun hf => absurd hf Bool.false_ne_true, fun hn => absurd hc hn⟩
      · refine ⟨fun _ => hc, fun _ hopen' => ?_⟩
        rcases recvCb_of_not_completes stdin q hc hact with hrecv | hclose
        · exact .inl hrecv
        · exact absurd (hclose.symm.trans hopen') Bool.false_ne_true

/-- The same for a run. -/
theorem along_hears (hes : ∀ e ∈ es, e.Benign) (s : State) :
    Runs.Along step (fun _ _ t => t.Hears) s es ↔ Runs.Along step (fun s e _ => s.Quiet e) s es := by
  induction es generalizing s with
  | nil => rfl
  | cons e es ih =>
    have hrest := ih fun f hf => hes f (List.mem_cons_of_mem e hf)
    exact forall₂_congr fun t ht => and_congr (step_hears ht (hes e List.mem_cons_self)) (hrest t)

/-- In a run without ends of file and hard errors, the process can hear in every state exactly if
every callback is a `recv_cb` that does not complete a packet. -/
theorem never_deaf_iff (q : SendResult) (hes : ∀ e ∈ es, e.Benign) :
    (boot q).Hears ∧ Runs.Along step (fun _ _ t => t.Hears) (boot q) es ↔
      Runs.Along step (fun s e _ => s.Quiet e) (boot q) es := by
  rw [along_hears hes]
  exact ⟨fun h => h.2, fun h => ⟨fun _ => .inl rfl, h⟩⟩

/-- A head arrives in two pieces. -/
theorem never_deaf_pieces :
    (boot (.sent 12)).Hears ∧ Runs.Along step (fun _ _ t => t.Hears) (boot (.sent 12))
        [.recv (.data [6, 0]) none .again, .recv .again none .again] ↔
      Runs.Along step (fun s e _ => s.Quiet e) (boot (.sent 12))
        [.recv (.data [6, 0]) none .again, .recv .again none .again] :=
  never_deaf_iff (.sent 12) (by decide)

/-- The first call of `send_cb` deafens the process. -/
theorem deaf_after_send : ¬ ∀ q es, q ≠ SendResult.error → (∀ e ∈ es, Event.Benign e) →
    Runs.Along step (fun _ _ t => t.Hears) (boot q) es := by
  intro h
  have hes : ∀ e ∈ [Event.send (.sent 12)], Event.Benign e := by decide
  have hquiet := (along_hears hes (boot (.sent 12))).1 (h _ _ (by decide) hes)
  exact (hquiet ((boot (.sent 12)).sendCb (.sent 12)) rfl).1

/-! ## A chunk

`handle_start_send_data_ntf` constructs `send_pkg`, reads the chunk into its body, and then fills in
the head of `recv_pkg`. -/

theorem recvCb_sendLen (h : s.sendLen = 0) (r : RecvResult) (stdin : Option (List UInt8))
    (q : SendResult) : (s.recvCb r stdin q).sendLen = 0 := by
  cases r with
  | data bs =>
    simp only [recvCb]
    split
    · exact h
    · split
      · exact h
      · split
        · exact h
        · exact handlePkg_sendLen (s := s.store bs) h
  | _ => exact h

/-- While packets are received, `send_len` is 0. -/
theorem Reachable.sendLen (h : s.Reachable) (hopen : s.opened = true) (hact : s.recvIo = true) :
    s.sendLen = 0 := by
  obtain ⟨q, hq⟩ := h
  refine Runs.Reaches.induction step (P := fun u => u.opened = true → u.recvIo = true →
    u.sendLen = 0) ?_ ?_ hq hopen hact
  · intro _ _
    exact sendPkg2Server_sendLen rfl q
  · intro u e v _ hu hv hopen' hact'
    obtain ⟨hen, rfl⟩ := step_eq_some.1 hv
    cases e with
    | recv r stdin q => exact recvCb_sendLen (hu hen.2.1 hen.1) r stdin q
    | send q =>
      -- the watcher is stopped, or the connection is closed
      by_cases hq : q = .error
      · rw [hq] at hopen'
        exact absurd hopen' Bool.false_ne_true
      · obtain ⟨m, heq, -⟩ := sendCb_sending (s := u) hq
        rw [exec, heq] at hact'
        exact absurd hact' Bool.false_ne_true

/-- From `s` to `t` the rest of a START arrives, a chunk is read from the standard input, and the
first call of `send` for it returns `q`. -/
structure ReadsChunk (s t : State) (chunk : List UInt8) (q : SendResult) : Prop where
  reachable : s.Reachable
  step : ∃ bs, s.step (.recv (.data bs) (some chunk) q) = some t ∧ s.Completes bs ∧
    (s.store bs).recvPkg.IsStart
  pos : 0 < chunk.length

/-- Between `s` and `u` the chunk was sent as one frame, and nothing else. -/
structure OneFrame (s u : State) (chunk : List UInt8) : Prop where
  stopped : u.sendIo = false
  output : ∃ fd, u.output = s.output ++ Pkg.encode .streamDataNtf fd chunk
  inside : u.overread = false

/-- The watcher that writes goes on, and the first byte that was sent after `s`, if any, is 0. -/
structure Going (s u : State) : Prop where
  sendIo : u.sendIo = true
  opened : u.opened = true
  head : Buffer.get u.sendPkg 0 = 0
  output : u.output = s.output ∧ u.sendLen = 0 ∨ ∃ bs, u.output = s.output ++ 0 :: bs

theorem slice_head (p : Pkg) {m : ℕ} (h : 1 ≤ m) :
    ∃ bs, Buffer.slice p 0 m = Buffer.get p 0 :: bs := by
  obtain ⟨k, rfl⟩ : ∃ k, m = k + 1 := ⟨m - 1, by omega⟩
  exact ⟨_, by rw [Buffer.slice, List.range_succ_eq_map, List.map_cons]⟩

/-- Such output is not the beginning of a frame with the chunk. -/
theorem Going.not_prefix (h : Going s u) (hne : u.output ≠ s.output) (fd : ℕ)
    (chunk : List UInt8) :
    ¬ u.output <+: s.output ++ Pkg.encode .streamDataNtf fd chunk := by
  rcases h.output with ⟨hsame, -⟩ | ⟨bs, hbs⟩
  · exact absurd hsame hne
  · rw [hbs, List.prefix_append_right_inj]
    intro hpre
    exact absurd (List.cons_prefix_cons.1 hpre).1 (by decide)

theorem ReadsChunk.going (h : ReadsChunk s t chunk q) (hq : q ≠ .error) : Going s t := by
  obtain ⟨bs, hstep, hc, hstart⟩ := h.step
  obtain ⟨⟨hact, hopen, -, -⟩, rfl⟩ := step_eq_some.1 hstep
  have hlen := h.reachable.sendLen hopen hact
  -- the head of `recv_pkg` is filled in, and `send_pkg` is sent
  obtain ⟨p', hsend⟩ : ∃ p', ((s.store bs).handlePkg (some chunk) q).1 = (sendPkg2Server
      { s.store bs with
        sendPkg := Buffer.write Pkg.construct sizeofHead chunk
        recvPkg := p' } q).1 := by
    have hcmd : (s.store bs).recvPkg.cmd = PkgCmdType.startSendDataNtf.code := hstart
    unfold handlePkg
    rw [hcmd, if_neg (by decide), if_neg (by decide), if_pos rfl]
    refine ⟨((s.store bs).recvPkg.setCmd .streamDataNtf).setLen chunk.length, ?_⟩
    simp only [handleStartSendDataNtf, if_pos h.pos]
  have hhead : Buffer.get (Buffer.write Pkg.construct sizeofHead chunk) 0 = 0 :=
    (Buffer.get_write_of_outside _ _ _ (.inl (by decide))).trans (Buffer.get_zero 0)
  rw [exec, recvCb_of_completes hc, hsend]
  generalize Buffer.write Pkg.construct sizeofHead chunk = p at *
  cases q with
  | error => exact absurd rfl hq
  | again => exact ⟨rfl, hopen, hhead, .inl ⟨rfl, hlen⟩⟩
  | sent k =>
    rw [sendPkg2Server_of_sent (by exact hlen)]
    obtain ⟨cs, hcs⟩ := slice_head p
      (accepted_pos k (show 0 < sizeofHead + Pkg.len p from Nat.add_pos_left (by decide) _)).1
    refine ⟨rfl, hopen, hhead, .inr ⟨cs, ?_⟩⟩
    rw [hhead] at hcs
    exact congrArg (s.output ++ ·) hcs

theorem Going.sendCb (h : Going s u) (hq : q ≠ .error) : Going s (u.sendCb q) := by
  obtain ⟨m, heq, -⟩ := sendCb_sending (s := u) hq
  rw [heq]
  refine ⟨rfl, h.opened, h.head, ?_⟩
  rcases h.output with ⟨hsame, hlen⟩ | ⟨bs, hbs⟩
  · rcases Nat.eq_zero_or_pos m with rfl | hpos
    · -- nothing was sent
      refine .inl ⟨?_, hlen⟩
      show u.output ++ Buffer.slice u.sendPkg u.sendLen 0 = s.output
      rw [Buffer.slice_zero_length, List.append_nil, hsame]
    · obtain ⟨cs, hcs⟩ := slice_head u.sendPkg hpos
      refine .inr ⟨cs, ?_⟩
      show u.output ++ Buffer.slice u.sendPkg u.sendLen m = s.output ++ 0 :: cs
      rw [hlen, hcs, h.head, hsame]
  · refine .inr ⟨bs ++ Buffer.slice u.sendPkg u.sendLen m, ?_⟩
    show u.output ++ Buffer.slice u.sendPkg u.sendLen m = _
    rw [hbs, List.append_assoc, List.cons_append]

/-! ### The calls of `send_cb` after it -/

/-- The state after `n` calls of `send_cb`, to which `send` returns `sched`. -/
def afterCalls (t : State) (sched : ℕ → SendResult) : ℕ → State
  | 0 => t
  | n + 1 => (t.afterCalls sched n).sendCb (sched n)

variable {sched : ℕ → SendResult}

theorem going_afterCalls (h : Going s t) (hsched : ∀ n, sched n ≠ .error) (n : ℕ) :
    Going s (t.afterCalls sched n) := by
  induction n with
  | zero => exact h
  | succ n ih => exact ih.sendCb (hsched n)

/-- The calls are steps of the event loop. -/
theorem run_afterCalls (h : Going s t) (hsched : ∀ n, sched n ≠ .error) (n : ℕ) :
    Runs.run step t ((List.range n).map fun i => .send (sched i)) =
      some (t.afterCalls sched n) := by
  induction n with
  | zero => rfl
  | succ n ih =>
    have hgo := going_afterCalls h hsched n
    rw [List.range_succ, List.map_append, List.map_singleton, Runs.run_concat_eq_some]
    exact ⟨_, ih, step_eq_some.2 ⟨⟨hgo.sendIo, hgo.opened⟩, rfl⟩⟩

theorem afterCalls_sendLen_le (hsched : ∀ n, sched n ≠ .error) (t : State) {m : ℕ} (h : n ≤ m) :
    (t.afterCalls sched n).sendLen ≤ (t.afterCalls sched m).sendLen := by
  induction m, h using Nat.le_induction with
  | base => exact le_rfl
  | succ m _ ih =>
    obtain ⟨k, heq, -⟩ := sendCb_sending (s := t.afterCalls sched m) (hsched m)
    rw [afterCalls, heq]
    exact ih.trans (Nat.le_add_right _ k)

/-- If `send` goes on sending, `send_len` grows without bound. -/
theorem exists_sendLen_ge (hsched : ∀ n, sched n ≠ .error)
    (hsent : ∀ n, ∃ m, n ≤ m ∧ ∃ k, sched m = .sent k) (t : State) (j : ℕ) :
    ∃ n, j ≤ (t.afterCalls sched n).sendLen := by
  induction j with
  | zero => exact ⟨0, Nat.zero_le _⟩
  | succ j ih =>
    obtain ⟨n, hn⟩ := ih
    obtain ⟨m, hnm, hk⟩ := hsent n
    obtain ⟨k, heq, hpos⟩ := sendCb_sending (s := t.afterCalls sched m) (hsched m)
    have hle := afterCalls_sendLen_le hsched t hnm
    have h1 := hpos hk
    refine ⟨m + 1, ?_⟩
    rw [afterCalls, heq]
    show j + 1 ≤ (t.afterCalls sched m).sendLen + k
    omega

theorem exists_overread (hsched : ∀ n, sched n ≠ .error)
    (hsent : ∀ n, ∃ m, n ≤ m ∧ ∃ k, sched m = .sent k) (t : State) :
    ∃ n, (t.afterCalls sched n).overread = true := by
  obtain ⟨n, hn⟩ := exists_sendLen_ge hsched hsent t sizeofPkg
  obtain ⟨k, heq, -⟩ := sendCb_sending (s := t.afterCalls sched n) (hsched n)
  have hlt : sizeofPkg < (t.afterCalls sched n).sendLen + sizeofHead :=
    Nat.lt_of_le_of_lt hn (Nat.lt_add_of_pos_right (by decide))
  refine ⟨n + 1, ?_⟩
  rw [afterCalls, heq]
  show ((t.afterCalls sched n).overread || decide _) = true
  rw [decide_eq_true hlt, Bool.or_true]

/-- However `send` cuts what it is given, a chunk is never sent as one frame: the watcher that
writes does not stop, what has been sent is not the beginning of such a frame, and if `send` goes on
sending it is asked for bytes outside of `send_pkg`. -/
theorem chunk_not_sent (h : ReadsChunk s t chunk q) (hq : q ≠ .error)
    (hsched : ∀ n, sched n ≠ .error) :
    (∀ n, ∃ u, Runs.run step t ((List.range n).map fun i => .send (sched i)) = some u ∧
      u.sendIo = true ∧ ¬ OneFrame s u chunk ∧
      (u.output ≠ s.output → ∀ fd,
        ¬ u.output <+: s.output ++ Pkg.encode .streamDataNtf fd chunk)) ∧
    ((∀ n, ∃ m, n ≤ m ∧ ∃ k, sched m = .sent k) →
      ∃ n u, Runs.run step t ((List.range n).map fun i => .send (sched i)) = some u ∧
        u.overread = true) := by
  have hgo := h.going hq
  constructor
  · intro n
    have hn := going_afterCalls hgo hsched n
    refine ⟨_, run_afterCalls hgo hsched n, hn.sendIo, fun hone => ?_,
      fun hne fd => hn.not_prefix hne fd chunk⟩
    exact Bool.false_ne_true (hone.stopped.symm.trans hn.sendIo)
  · intro hsent
    obtain ⟨n, hover⟩ := exists_overread hsched hsent t
    exact ⟨n, _, run_afterCalls hgo hsched n, hover⟩

/-- A START without a body arrives after the register request was sent, and a 7 is read. -/
def chunkRead : State :=
  (boot (.sent 12)).recvCb (.data (Pkg.encode .startSendDataNtf 0 [])) (some [7]) (.sent 12)

theorem readsChunk_chunkRead : ReadsChunk (boot (.sent 12)) chunkRead [7] (.sent 12) where
  reachable := ⟨_, Runs.Reaches.refl step _⟩
  step := ⟨Pkg.encode .startSendDataNtf 0 [],
    step_eq_some.2 ⟨⟨rfl, rfl, fun _ heq => by cases heq; decide +kernel, by decide⟩, rfl⟩,
    by decide +kernel, by decide +kernel⟩
  pos := by decide

theorem chunk_not_sent_seven :
    (∀ n, ∃ u, Runs.run step chunkRead ((List.range n).map fun _ => .send (.sent 12)) = some u ∧
      u.sendIo = true ∧ ¬ OneFrame (boot (.sent 12)) u [7] ∧
      (u.output ≠ (boot (.sent 12)).output → ∀ fd,
        ¬ u.output <+: (boot (.sent 12)).output ++ Pkg.encode .streamDataNtf fd [7])) ∧
    ((∀ n : ℕ, ∃ m, n ≤ m ∧ ∃ k, SendResult.sent 12 = .sent k) →
      ∃ n u, Runs.run step chunkRead ((List.range n).map fun _ => .send (.sent 12)) = some u ∧
        u.overread = true) :=
  chunk_not_sent readsChunk_chunkRead (by decide) (fun _ => by decide)

/-- Every call of `send` accepts what it is given. -/
theorem chunk_unsent : ¬ ∀ s t chunk q (sched : ℕ → SendResult), ReadsChunk s t chunk q →
    q ≠ .error → (∀ n, sched n ≠ .error) → (∀ n, ∃ m, n ≤ m ∧ ∃ k, sched m = .sent k) →
    ∃ n u, Runs.run step t ((List.range n).map fun i => .send (sched i)) = some u ∧
      OneFrame s u chunk := by
  intro h
  have hsched : ∀ n : ℕ, SendResult.sent 12 ≠ .error := fun _ => by decide
  obtain ⟨n, u, hu, hone⟩ := h _ _ _ _ (fun _ => .sent 12) readsChunk_chunkRead (by decide) hsched
    fun n => ⟨n, le_rfl, 12, rfl⟩
  have hgo := readsChunk_chunkRead.going (by decide)
  obtain rfl := Option.some.inj ((run_afterCalls hgo hsched n).symm.trans hu)
  exact Bool.false_ne_true (hone.stopped.symm.trans (going_afterCalls hgo hsched n).sendIo)

end State
end RaspiEv
end WawaServer
