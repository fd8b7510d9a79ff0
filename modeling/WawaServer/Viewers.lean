import WawaServer.Clients.Askers

/-!
# Streams and their viewers

The server together with its clients. A client is the process of `raspi.cpp`: its notification loop
receives what the server sends, and its camera threads send pictures to the descriptor in the START
that was obeyed. It may also send requests, so that any connection acts as a raspi, as a remote, or
as both; the loop ignores the answers to those. Messages are in flight both ways: `inbox` holds
those that the server has not received, and those a client has not read are the rest of its outbox.
A message is delivered whole (`input_framed` and `output_framed` say when the bytes are messages).

A frame should be written only to the connection whose choose request caused the START that its
descriptor is from. The server goes by the descriptor, which `accept` gives to the next connection
while frames, a picture that is sent, a thread that may begin one, or a START for the last one are
still about. In runs where `accept` waits for these, and no RESTART is replaced by an old START, no
frame goes astray.
-/

namespace WawaServer

open Raspi

/-- The server and the clients, each client under the descriptor of its connection. -/
structure World where
  server : Server
  inbox : ℕ → List Msg
  client : ℕ → Peer
  /-- How many messages of its outbox a client has read. -/
  read : ℕ → ℕ
  /-- History: the connection a frame of a picture was written to, if any, and the one that asked
  for it. -/
  written : List (Option Conn × Conn)

namespace World

/-- What can happen: a callback of the server, or a step of a client. -/
inductive Action
  /-- A callback that receives no data. -/
  | server (e : Event)
  /-- `server_recv_cb` on `c` receives the next message. -/
  | deliver (c : Slot) (results : ℕ → List SendResult)
  | request (fd : ℕ) (pkg : Pkg)
  /-- The client receives a message. -/
  | notice (fd : ℕ)
  /-- Another step of the client. -/
  | work (fd : ℕ) (e : ProcessEvent)

/-- The server has started, and nobody has connected. -/
def boot : World where
  server := Server.boot
  inbox := fun _ => []
  client := fun _ => Peer.start
  read := fun _ => 0
  written := []

/-- The messages that are sent to the connection of `fd` and not read. -/
def unread (w : World) (fd : ℕ) : List (Pkg × Conn) :=
  (w.server.calls.outbox fd).drop (w.read fd)

/-- Data comes out of the inbox only, and `recv` returns 0 after it. -/
def Admits (w : World) : Event → Prop
  | .recv _ (.data _) _ => False
  | .recv c .closed _ => w.inbox (w.server.channel c).recvCtx.io.fd = []
  | _ => True

instance (w : World) (e : Event) : Decidable (w.Admits e) := by
  unfold Admits
  split <;> infer_instance

/-- The client of a connection that was just accepted has sent and read nothing. -/
def connected (w : World) (fd : ℕ) : World :=
  { w with
    inbox := Function.update w.inbox fd []
    client := Function.update w.client fd Peer.start
    read := Function.update w.read fd 0 }

/-- What the clients see of a callback. -/
def seen (w : World) : Event → World
  | .accept fd => w.connected fd
  | _ => w

/-- The client of `fd` has sent messages. -/
def put (w : World) (fd : ℕ) (ms : List Msg) : World :=
  { w with inbox := Function.update w.inbox fd (w.inbox fd ++ ms) }

/-- The step receives a message. -/
def Receives : ProcessEvent → Prop
  | .recv (some _) => True
  | _ => False

instance (e : ProcessEvent) : Decidable (Receives e) := by
  unfold Receives
  split <;> infer_instance

/-- Where `dispatch` wrote between `s` and `t`. -/
def written_between (s t : Server) : List (Option Conn) :=
  (t.calls.dispatched.take (t.calls.dispatched.length - s.calls.dispatched.length)).map (·.2)

/-- One step of the server or of a client. -/
def step (w : World) : Action → Option World
  | .server e =>
    if w.Admits e then (w.server.step e).map fun s => { w.seen e with server := s } else none
  | .deliver c results =>
    let fd := (w.server.channel c).recvCtx.io.fd
    match w.inbox fd with
    | [] => none
    | m :: ms =>
      (Runs.run Server.step w.server (Event.frame c m.pkg.frame results)).map fun s =>
        { w with
          server := s
          inbox := Function.update w.inbox fd ms
          written := w.written ++
            m.asker.toList.flatMap fun κ => (written_between w.server s).map (·, κ) }
  | .request fd pkg =>
    if pkg.fd = 0 ∧ pkg.len ≤ bufSize then some (w.put fd [⟨pkg, none⟩]) else none
  | .notice fd =>
    match w.unread fd with
    | [] => none
    | n :: _ => ((w.client fd).obey n).map fun r => { w with
        client := Function.update w.client fd r
        read := Function.update w.read fd (w.read fd + 1) }
  | .work fd e =>
    if Receives e then none
    else ((w.client fd).work e).map fun r =>
      { w.put fd ((w.client fd).sends e) with client := Function.update w.client fd r }

/-! ## The condition on `accept` -/

/-- Nothing that was asked for by a connection with the descriptor `fd` is on its way to or from a
client that is connected, or may be sent by it. -/
def Quiet (w : World) (fd : ℕ) : Prop := ∀ c,
  (w.server.Live c →
    (∀ m ∈ w.inbox (w.server.channel c).fd, ∀ κ ∈ m.asker, κ.1 ≠ fd) ∧
    (∀ n ∈ w.unread (w.server.channel c).fd, n.1.IsStart → n.2.1 ≠ fd) ∧
    (w.client (w.server.channel c).fd).Quiet fd) ∧
  ((w.server.channel c).sendCtx.io.active = true → (w.server.channel c).sendCtx.pkg.IsStart →
    (w.server.calls.startOf c).1 ≠ fd)

instance (w : World) (fd : ℕ) : Decidable (w.Quiet fd) := by
  unfold Quiet
  infer_instance

/-- `accept` returns a descriptor only when it is quiet. -/
def Recycles (w : World) : Action → World → Prop
  | .server (.accept fd), _ => w.Quiet fd
  | _, _ => True

instance (w : World) (a : Action) (w' : World) : Decidable (w.Recycles a w') := by
  unfold Recycles
  split <;> infer_instance

/-! ## The invariant -/

/-- What holds of the connection of an open descriptor: its frames are addressed to the connection
that asked for them, so are those its client will send, and that connection is not gone. -/
structure Fair (w : World) (fd : ℕ) : Prop where
  inbox : ∀ m ∈ w.inbox fd, m.Fair w.server.calls
  unread : ∀ n ∈ w.unread fd, w.server.calls.Fair n
  client : (w.client fd).Fair w.server.calls

/-- Every frame was written to the connection that asked for it, if to any. -/
def Private (w : World) : Prop := ∀ e ∈ w.written, ∀ κ ∈ e.1, κ = e.2

/-- What holds in every run whose steps meet the condition. -/
structure Invariant (w : World) : Prop where
  reachable : w.server.Reachable
  idle : ∀ c, w.server.Assembling c []
  unforged : ∀ e ∈ w.server.calls.dispatched, ¬ e.1.IsStart
  started : w.server.Started
  valid : ∀ fd, ∀ m ∈ w.inbox fd, m.Valid
  wellformed : ∀ fd, (w.client fd).process.Wellformed
  fair : ∀ fd, w.server.opened fd = true → w.Fair fd
  priv : w.Private

variable {w w' : World} {t : Server} {fd fd' : ℕ}

theorem boot_invariant : boot.Invariant where
  reachable := .refl _ _
  idle c := ⟨Pkg.filled_nil.symm, rfl⟩
  unforged := by simp [boot, Server.boot, History.dispatched]
  started := Server.boot_started
  valid fd m hm := by simp [boot] at hm
  wellformed _ := Process.wellformed_boot
  fair fd h := by simp [boot, Server.boot] at h
  priv e he := by simp [boot] at he

/-! ## The connection of one descriptor -/

/-- The server sends fair messages. -/
theorem Fair.sends (h : w.Fair fd) (hs : Server.Sends w.server t) :
    ({ w with server := t } : World).Fair fd := by
  have hcur := fun κ => (Server.current_congr hs.gen κ).2
  refine ⟨fun m hm κ hκ => (h.inbox m hm κ hκ).imp_right (hcur κ), fun n hn => ?_,
    h.client.congr hcur⟩
  obtain ⟨l, hl, hfair⟩ := hs.outbox fd
  rw [Server.fair_congr hs.gen]
  simp only [World.unread, hl, List.drop_append] at hn
  rcases List.mem_append.1 hn with hn | hn
  · exact h.unread n hn
  · exact hfair n (List.mem_of_mem_drop hn)

/-- `Fair` reads the connection's own inbox, client and read count. -/
theorem Fair.congr (h : w.Fair fd) (hs : w'.server = w.server)
    (hin : ∀ m ∈ w'.inbox fd, m ∈ w.inbox fd) (hc : w'.client fd = w.client fd)
    (hr : w'.read fd = w.read fd) : w'.Fair fd := by
  refine ⟨fun m hm => hs ▸ h.inbox m (hin m hm), fun n hn => hs ▸ h.unread n ?_, ?_⟩
  · rwa [World.unread, hs, hr] at hn
  · rw [hs, hc]
    exact h.client

theorem mem_put {ms : List Msg} {m : Msg} (hm : m ∈ (w.put fd' ms).inbox fd) :
    m ∈ w.inbox fd ∨ fd = fd' ∧ m ∈ ms := by
  simp only [World.put, Function.update_apply] at hm
  split at hm
  · rename_i hfd
    subst hfd
    exact (List.mem_append.1 hm).imp_right fun hm => ⟨rfl, hm⟩
  · exact .inl hm

theorem Fair.put (h : w.Fair fd) {ms : List Msg}
    (hms : fd = fd' → ∀ m ∈ ms, m.Fair w.server.calls) : (w.put fd' ms).Fair fd := by
  refine ⟨fun m hm => ?_, h.unread, h.client⟩
  rcases mem_put hm with hm | ⟨hfd, hm⟩
  · exact h.inbox m hm
  · exact hms hfd m hm

/-- The connection of another descriptor than the one accepted, which is quiet. -/
theorem Fair.accept (h : w.Fair fd) (hne : fd ≠ fd')
    (hin : ∀ m ∈ w.inbox fd, ∀ κ ∈ m.asker, κ.1 ≠ fd')
    (hun : ∀ n ∈ w.unread fd, n.1.IsStart → n.2.1 ≠ fd') (hq : (w.client fd).Quiet fd') :
    ({ w.connected fd' with server := w.server.acceptCb fd' } : World).Fair fd := by
  refine ⟨fun m hm κ hκ => ?_, fun n hn hst => ?_, ?_⟩
  · simp only [connected, Function.update_of_ne hne] at hm
    exact (h.inbox m hm κ hκ).imp_right (Server.current_acceptCb (hin m hm κ hκ))
  · simp only [World.unread, connected, Function.update_of_ne hne, Server.outbox_acceptCb,
      if_neg hne.symm] at hn
    exact (h.unread n hn hst).imp_right (Server.current_acceptCb (hun n hn hst))
  · simp only [connected, Function.update_of_ne hne]
    exact h.client.quiet hq fun κ hκ => Server.current_acceptCb hκ

/-- The connection just accepted. -/
theorem fair_accepted (w : World) (fd : ℕ) :
    ({ w.connected fd with server := w.server.acceptCb fd } : World).Fair fd := by
  refine ⟨fun m hm => ?_, fun n hn => ?_, ?_⟩
  · simp [connected] at hm
  · simp [World.unread, connected, Server.outbox_acceptCb] at hn
  · simp only [connected, Function.update_self]
    exact Peer.fair_start _

/-! ## Steps -/

/-- A callback that neither accepts nor receives data. -/
theorem Invariant.server (h : w.Invariant) {e : Event} (ht : w.server.step e = some t)
    (hd : ∀ c bs q, e ≠ .recv c (.data bs) q) (ha : ∀ fd, e ≠ .accept fd)
    (hG : t.Heeds RestartSafe) : ({ w with server := t } : World).Invariant := by
  have hs := h.reachable.sound
  have hdis := Server.step_dispatched ht hd
  have hun : ∀ e ∈ t.calls.dispatched, ¬ e.1.IsStart := by
    rw [hdis]
    exact h.unforged
  rcases Server.step_cases hs ht with ⟨fd, rfl, -⟩ | ⟨c, hup⟩
  · exact absurd rfl (ha fd)
  · obtain ⟨hsends, hst⟩ := hup.sends hs h.started hG (Server.heeds_unforged hun)
    exact {
      reachable := h.reachable.snoc _ ht
      idle := Server.step_idle hs ht hd h.idle
      unforged := hun
      started := hst
      valid := h.valid
      wellformed := h.wellformed
      fair := fun fd ho => (h.fair fd (hup.opened_of hs ho)).sends hsends
      priv := h.priv }

/-- A connection begins with nothing about; what is asked for by its descriptor was another's. -/
theorem Invariant.accept (h : w.Invariant) (ht : w.server.step (.accept fd) = some t)
    (hq : w.Quiet fd) : ({ w.connected fd with server := t } : World).Invariant := by
  have hs := h.reachable.sound
  have hdis := Server.step_dispatched ht nofun
  have hidle := Server.step_idle hs ht nofun h.idle
  have hreach := h.reachable.snoc _ ht
  obtain ⟨hfault, -, rfl⟩ := Server.step_eq_some.1 ht
  refine {
    reachable := hreach
    idle := hidle
    unforged := by rw [hdis]; exact h.unforged
    started := h.started.acceptCb fun d => (hq d).2
    valid := fun fd' m hm => ?_
    wellformed := fun fd' => ?_
    fair := fun fd' ho => ?_
    priv := h.priv }
  · simp only [connected, Function.update_apply] at hm
    split at hm
    · cases hm
    · exact h.valid fd' m hm
  · simp only [connected, Function.update_apply]
    split
    · exact Process.wellformed_boot
    · exact h.wellformed fd'
  · by_cases hfd : fd' = fd
    · subst hfd
      exact fair_accepted w fd'
    · have ho' : w.server.opened fd' = true := by
        simpa [Server.exec, Server.acceptCb_opened, hfd] using ho
      -- nothing on the way names the new address, so that its last connection does not matter
      obtain ⟨c, hlive, rfl⟩ := h.reachable.owner hfault ho'
      obtain ⟨hin, hun, hclient⟩ := (hq c).1 hlive
      exact (h.fair _ ho').accept hfd hin hun hclient

/-- A message is written to the connection last accepted under its address. -/
theorem written_between_of_delivers {s t : Server} {p : Pkg} (h : Server.Delivers s t p)
    {o : Option Conn} (ho : o ∈ written_between s t) (κ : Conn) (hκ : κ ∈ o) :
    κ = s.calls.conn p.fd := by
  by_cases h0 : p.fd = 0
  · rw [written_between, h.request h0, Nat.sub_self, List.take_zero] at ho
    cases ho
  · obtain ⟨o', ho', hd⟩ := h.relayed h0
    rw [written_between, hd, List.length_cons, Nat.add_sub_cancel_left] at ho
    obtain rfl : o = o' := by simpa using ho
    exact ho' κ hκ

/-- The inboxes only lose a message when the server receives it. -/
theorem mem_of_taken {inbox : ℕ → List Msg} {m n : Msg} {ms : List Msg} (hin : inbox fd = m :: ms)
    (hn : n ∈ Function.update inbox fd ms fd') : n ∈ inbox fd' := by
  rw [Function.update_apply] at hn
  split at hn
  · rename_i hfd
    rw [hfd, hin]
    exact List.mem_cons_of_mem _ hn
  · exact hn

/-- The server writes what it receives to the connection that asked for it, or to nobody. -/
theorem Invariant.deliver (h : w.Invariant) {c : Slot} {q : ℕ → List SendResult} {m : Msg}
    {ms : List Msg} (hin : w.inbox (w.server.channel c).fd = m :: ms)
    (ht : Runs.run Server.step w.server (Event.frame c m.pkg.frame q) = some t)
    (hG : t.Heeds RestartSafe) :
    ({ w with
      server := t
      inbox := Function.update w.inbox (w.server.channel c).fd ms
      written := w.written ++
        m.asker.toList.flatMap fun κ => (written_between w.server t).map (·, κ) } :
      World).Invariant := by
  have hs := h.reachable.sound
  have hm : m ∈ w.inbox (w.server.channel c).fd := by simp [hin]
  have hv := h.valid _ m hm
  obtain ⟨hopen, hup, hidle, hdel⟩ := Server.run_frame hs h.idle hv.len ht
  -- a camera writes no START, and a request is not dispatched
  have hun : ∀ e ∈ t.calls.dispatched, ¬ e.1.IsStart := by
    by_cases h0 : m.pkg.fd = 0
    · rw [hdel.request h0]
      exact h.unforged
    · obtain ⟨o, -, hd⟩ := hdel.relayed h0
      have hst := hv.frame fun hnone => h0 (hv.request hnone)
      rw [hd]
      exact List.forall_mem_cons.2
        ⟨(Pkg.isStart_copyFrame Pkg.construct hv.len).not.2 hst, h.unforged⟩
  obtain ⟨hsends, hst⟩ := hup.sends hs h.started hG (Server.heeds_unforged hun)
  refine {
    reachable := h.reachable.trans _ ⟨_, ht⟩
    idle := hidle
    unforged := hun
    started := hst
    valid := fun fd n hn => h.valid fd n (mem_of_taken hin hn)
    wellformed := h.wellformed
    fair := fun fd ho => ((h.fair fd (hup.opened_of hs ho)).sends hsends).congr rfl
      (fun _ hn => mem_of_taken hin hn) rfl rfl
    priv := fun e he => ?_ }
  rcases List.mem_append.1 he with he | he
  · exact h.priv e he
  · intro κ' hκ'
    -- what this step wrote was asked for by the connection it was written to
    obtain ⟨κ, hκ, he⟩ := List.mem_flatMap.1 he
    obtain ⟨o, ho, rfl⟩ := List.mem_map.1 he
    obtain ⟨hfd, hcur⟩ := (h.fair _ hopen).inbox m hm κ (Option.mem_toList.1 hκ)
    rw [(written_between_of_delivers hdel ho κ' hκ'), hfd]
    exact hcur.symm

/-- A client sends messages that are fair. -/
theorem Invariant.put (h : w.Invariant) {ms : List Msg} (hv : ∀ m ∈ ms, m.Valid)
    (hms : w.server.opened fd = true → ∀ m ∈ ms, m.Fair w.server.calls) :
    (w.put fd ms).Invariant where
  reachable := h.reachable
  idle := h.idle
  unforged := h.unforged
  started := h.started
  valid fd' m hm := by
    rcases mem_put hm with hm | ⟨-, hm⟩
    · exact h.valid fd' m hm
    · exact hv m hm
  wellformed := h.wellformed
  fair fd' ho := (h.fair fd' ho).put fun hfd => hms (hfd ▸ ho)
  priv := h.priv

/-- The client of `fd` takes a step. -/
theorem Invariant.client (h : w.Invariant) {r : Peer} {k : ℕ} (hk : w.read fd ≤ k)
    (hw : r.process.Wellformed)
    (hr : w.server.opened fd = true → r.Fair w.server.calls) : ({ w with
      client := Function.update w.client fd r
      read := Function.update w.read fd k } : World).Invariant where
  reachable := h.reachable
  idle := h.idle
  unforged := h.unforged
  started := h.started
  valid := h.valid
  wellformed fd' := by
    simp only [Function.update_apply]
    split
    · exact hw
    · exact h.wellformed fd'
  fair fd' ho := by
    have hf := h.fair fd' ho
    by_cases hfd : fd' = fd
    · subst hfd
      refine ⟨hf.inbox, fun m hm => hf.unread m ?_, ?_⟩
      · simp only [World.unread, Function.update_self] at hm
        rw [World.unread]
        exact (List.drop_sublist_drop_left _ hk).subset hm
      · simp only [Function.update_self]
        exact hr ho
    · exact hf.congr rfl (fun _ => id) (Function.update_of_ne hfd _ _) (Function.update_of_ne hfd _ _)
  priv := h.priv

/-- The client of `fd` takes a step that receives no message: it sends, and goes on. -/
theorem Invariant.work (h : w.Invariant) {e : ProcessEvent} {r : Peer}
    (hr : (w.client fd).work e = some r) (hntf : ∀ ntf, e ≠ .recv (some ntf)) :
    ({ w.put fd ((w.client fd).sends e) with
      client := Function.update w.client fd r } : World).Invariant := by
  have hput : (w.put fd ((w.client fd).sends e)).Invariant := by
    apply h.put
    · intro m hm
      exact Peer.sends_valid (h.wellformed fd) hr hm
    · intro ho m hm
      exact (h.fair fd ho).client.sends (h.wellformed fd) hr hm
  have hclient := hput.client (le_refl (w.read fd)) (Peer.work_wellformed (h.wellformed fd) hr)
    fun ho => (h.fair fd ho).client.work (h.wellformed fd) hntf hr
  have hread : Function.update (w.put fd ((w.client fd).sends e)).read fd (w.read fd) = w.read :=
    Function.update_eq_self fd w.read
  rwa [hread] at hclient

/-- One step, by its kind. -/
theorem Invariant.step (h : w.Invariant) {a : Action} (ha : w.step a = some w')
    (hR : w.Recycles a w') (hG : w'.server.Heeds RestartSafe) : w'.Invariant := by
  cases a with
  | server e =>
    simp only [World.step] at ha
    split at ha
    · rename_i hadm
      obtain ⟨t, ht, rfl⟩ := Option.map_eq_some_iff.1 ha
      cases e with
      | accept fd => exact h.accept ht hR
      | acceptError => exact h.server ht nofun nofun hG
      | recv c r q =>
        -- the server reads no bytes but those of a message, in `deliver`
        refine h.server ht (fun c' bs q' he => ?_) nofun hG
        obtain ⟨-, rfl, -⟩ := Event.recv.inj he
        exact hadm
      | send c q => exact h.server ht nofun nofun hG
    · cases ha
  | deliver c q =>
    have hfd := (h.reachable.sound.slot c).recvFd
    simp only [World.step] at ha
    split at ha
    · cases ha
    · rename_i m ms hin
      obtain ⟨t, ht, rfl⟩ := Option.map_eq_some_iff.1 ha
      rw [hfd] at hin ⊢
      exact h.deliver hin ht hG
  | request fd pkg =>
    simp only [World.step] at ha
    split at ha
    · rename_i hpkg
      obtain rfl := Option.some.inj ha
      -- a request is written for nobody
      apply h.put
      · exact List.forall_mem_singleton.2 ⟨hpkg.2, fun _ => hpkg.1, fun hne => absurd rfl hne⟩
      · exact fun _ => List.forall_mem_singleton.2 fun κ hκ => by cases hκ
    · cases ha
  | notice fd =>
    simp only [World.step] at ha
    split at ha
    · cases ha
    · rename_i n ns hn
      obtain ⟨r, hr, rfl⟩ := Option.map_eq_some_iff.1 ha
      -- a START that is received names a connection that is not gone
      apply h.client (Nat.le_succ _) (Peer.obey_wellformed (h.wellformed fd) hr)
      intro ho
      exact (h.fair fd ho).client.obey ((h.fair fd ho).unread n (by simp [hn])) hr
  | work fd e =>
    simp only [World.step] at ha
    split at ha
    · cases ha
    · rename_i he
      obtain ⟨r, hr, rfl⟩ := Option.map_eq_some_iff.1 ha
      apply h.work hr
      intro ntf hntf
      subst hntf
      exact he trivial

/-! ## Runs -/

/-- The server's part of a step is a run of the server. -/
theorem step_reaches {a : Action} (ha : w.step a = some w') :
    Runs.Reaches Server.step w.server w'.server := by
  cases a with
  | server e =>
    simp only [World.step] at ha
    split at ha
    · obtain ⟨t, ht, rfl⟩ := Option.map_eq_some_iff.1 ha
      exact (Runs.Reaches.refl _ _).snoc _ ht
    · cases ha
  | deliver c q =>
    simp only [World.step] at ha
    split at ha
    · cases ha
    · obtain ⟨t, ht, rfl⟩ := Option.map_eq_some_iff.1 ha
      exact ⟨_, ht⟩
  | request fd pkg =>
    simp only [World.step] at ha
    split at ha
    · obtain rfl := Option.some.inj ha
      exact .refl _ _
    · cases ha
  | notice fd =>
    simp only [World.step] at ha
    split at ha
    · cases ha
    · obtain ⟨r, -, rfl⟩ := Option.map_eq_some_iff.1 ha
      exact .refl _ _
  | work fd e =>
    simp only [World.step] at ha
    split at ha
    · cases ha
    · obtain ⟨r, -, rfl⟩ := Option.map_eq_some_iff.1 ha
      exact .refl _ _

/-- What the server does beside its clients it can do by itself. -/
theorem reachable_of_run {as : List Action} (h : Runs.run World.step boot as = some w) :
    w.server.Reachable :=
  Runs.run_invariant World.step (P := fun w => w.server.Reachable)
    (fun _ _ _ hw ha => hw.trans _ (step_reaches ha)) h (.refl _ _)

/-- Every frame reaches only the connection that asked for it, in runs where descriptors are
recycled when they are quiet. -/
theorem streams_private {as : List Action} (hrun : Runs.run World.step boot as = some w)
    (hR : Runs.Along World.step Recycles boot as) (hG : w.server.Heeds RestartSafe) :
    w.Private := by
  refine (Runs.along_induction World.step
    (P := fun _ w => w.server.Heeds RestartSafe → w.Invariant) (fun _ => boot_invariant)
    (fun as v a u hv ih ha hR hG => ?_) hrun hR hG).priv
  have hsuf := Server.reaches_calls_suffix (reachable_of_run hv).sound (step_reaches ha)
  exact (ih (hG.of_suffix hsuf)).step ha hR hG

/-- The state after a list of actions. -/
def after (as : List Action) : World := (Runs.run World.step boot as).getD boot

theorem run_after (as : List Action) (h : (Runs.run World.step boot as).isSome = true) :
    Runs.run World.step boot as = some (after as) := by
  obtain ⟨w, hw⟩ := Option.isSome_iff_exists.1 h
  rw [after, hw]
  rfl

instance (w : World) : Decidable w.Private :=
  inferInstanceAs (Decidable (∀ e ∈ w.written, ∀ κ ∈ e.1, κ = e.2))

/-- A packet whose body is `body`. -/
def packet (cmd : PkgCmdType) (fd : ℕ) (body : List UInt8) : Pkg :=
  Pkg.filled (Pkg.encode cmd fd body)

/-- 5 obeys a START and creates the thread `i`. -/
def starting (i : ℕ) : List Action :=
  [.notice 5, .work 5 .assign, .work 5 (.create true), .work 5 (.thread i .initCamera)]

/-- The thread `i` of 5 sends a picture of one packet. -/
def filming (i : ℕ) (encBuf : List UInt8) : List Action :=
  [.work 5 (.thread i .test), .work 5 (.thread i (.encodeDo encBuf)),
    .work 5 (.thread i (.round true)), .work 5 (.thread i (.round true))]

/-- 6 chooses 5, which starts its camera. -/
def watching : List Action :=
  [.server (.accept 5), .server (.accept 6),
    .request 5 (packet .registerClientReq 0 (Buffer.wordBytes ClientType.raspi.code)),
    .deliver 0 Event.takesAll, .notice 5,
    .request 6 (packet .registerClientReq 0 (Buffer.wordBytes ClientType.remote.code)),
    .deliver 1 Event.takesAll, .notice 6,
    .request 6 (packet .chooseServerReq 0 (Buffer.wordBytes 5)), .deliver 1 Event.takesAll] ++
  starting 0 ++ filming 0 [77]

/-- The viewer leaves, the thread of its raspi ends, and the next viewer has the same descriptor. -/
def watchedAgain : List Action :=
  watching ++ [.deliver 0 Event.takesAll, .server (.recv 1 .closed Event.takesAll), .notice 5,
    .work 5 (.thread 0 .test), .work 5 (.thread 0 .close), .server (.accept 6),
    .request 6 (packet .chooseServerReq 0 (Buffer.wordBytes 5)), .deliver 1 Event.takesAll] ++
  starting 1 ++ filming 1 [78] ++ [.deliver 0 Event.takesAll]

/-- The viewer leaves, and its descriptor is given out again after the raspi has ended its pictures.
-/
theorem streams_private_watchedAgain : (after watchedAgain).Private :=
  streams_private (run_after _ (by decide +kernel)) (by decide +kernel) (by decide +kernel)

/-- A frame is on its way while the descriptor of its viewer goes to the next connection. -/
def overtaken : List Action :=
  watching ++ [.server (.recv 1 .closed Event.takesAll), .server (.accept 6),
    .deliver 0 Event.takesAll]

/-- The frame is received after the descriptor was given out again. -/
theorem stream_astray : ¬ ∀ as w, Runs.run World.step boot as = some w → w.Private := by
  intro h
  exact absurd (h _ _ (run_after overtaken (by decide +kernel))) (by decide +kernel)

end World
end WawaServer
