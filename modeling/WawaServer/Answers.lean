import WawaServer.Choices
import WawaServer.Descriptors

/-!
# Answers to choose requests

`handle_choose_server_req` answers a request for a connection that is there, whoever that is and
whatever it registered as, with result 0, and says nothing when there is no such connection. The
START it sends to the raspi is addressed to the descriptor that the raspi's send buffer held last,
which for a connection that has registered is its own (`Reachable.addressed`).
-/

namespace WawaServer

/-- The packet in the send buffer of `c` is addressed to its own descriptor. -/
def Globals.Addressed (s : Globals) (c : Slot) : Prop :=
  (s.channel c).sendCtx.pkg.fd = (s.channel c).fd

/-- What has arrived of the frame in reception on `c`. -/
def Globals.arrived (s : Globals) (c : Slot) : List UInt8 :=
  Buffer.slice (s.channel c).recvCtx.pkg 0 (s.channel c).recvCtx.len

namespace Server

variable {s t u : Server} {c d : Slot} {p pkg : Pkg} {fd : ℕ}

/-! ## Where a raspi's send buffer leads -/

/-- A packet for `c` leaves the other buffers alone. -/
theorem setSendPkg_addressed (h : d ≠ c → s.Addressed d) (hp : d = c → p.fd = (s.channel c).fd) :
    (s.setSendPkg c p).Addressed d := by
  by_cases hdc : d = c
  · subst hdc
    simpa [Globals.Addressed] using hp rfl
  · simpa [Globals.Addressed, setSendPkg, modify_channel_of_ne hdc] using h hdc

/-- No effect puts a packet for somebody else in a send buffer that led back. -/
theorem Effect.addressed (hs : s.Sound) (he : Effect s t) (h : s.Addressed d) : t.Addressed d := by
  cases he with
  | listFull pkg c p hm _ _ hfd =>
    have hX : ((s.enter (.handleRegisterClientReq pkg)).setType c .remote).Addressed d := by
      simpa [Globals.Addressed] using h
    apply setSendPkg_addressed (fun _ => hX)
    intro _
    simpa [hfd] using (hs.fd_eq hm).symm
  | replyCut c p k hr | replyDone c p hr | replyFail c p hr =>
    have hset : (s.setSendPkg c p).Addressed d :=
      setSendPkg_addressed (fun _ => h) fun _ => (hr.fd_eq hs).symm
    simpa [Globals.Addressed, replying] using hset
  | startLost c p hfd =>
    apply setSendPkg_addressed (fun _ => h)
    intro hdc
    rw [hfd, ← hdc]
    exact h
  | relayCut pkg srcfd dstfd a b k hr | relayDone pkg srcfd dstfd a b hr
  | relayFail pkg srcfd dstfd a b hr =>
    have hset : ((s.enter (.dispatch pkg srcfd dstfd)).setSendPkg b
        (copyFrame (s.channel b).sendCtx.pkg pkg)).Addressed d := by
      apply setSendPkg_addressed (s := s.enter _) (fun _ => h)
      intro _
      rw [Pkg.fd_copyFrame _ hr.len, hr.fd]
      exact (hs.fd_eq hr.dst).symm
    simpa [Globals.Addressed, relaying, pausing] using hset
  | _ => simpa [Globals.Addressed, notifying, unbridged, sending, finishing] using h

/-- No update puts a packet for somebody else in a send buffer that led back. -/
theorem Update.addressed (hs : s.Sound) (hu : Update c s t) (h : s.Addressed d) :
    t.Addressed d := by
  cases hu with
  | effect he => exact he.addressed hs h
  | closing hc =>
    apply (closing_effect hs hc).addressed ((hs.enter _).freed hc.1)
    simpa [Globals.Addressed] using h
  | routed p => exact h
  | _ => simpa [Globals.Addressed] using h

/-- Induction on the updates of a callback. -/
theorem Updates.addressed (hs : s.Sound) (hu : Updates c s t) (h : s.Addressed d) :
    t.Addressed d := by
  induction hu with
  | refl => exact h
  | tail hsu huv ih => exact huv.addressed (hs.updates hsu) ih

/-- `response` puts nothing in a send buffer. -/
theorem response_addressed (s : Server) (p : Pkg) (h : s.Addressed d) :
    (s.response p).1.Addressed d := by
  rcases s.response_cases p with ⟨-, h'⟩ | ⟨c, -, ⟨k, -, h'⟩ | ⟨-, h'⟩ | ⟨-, h'⟩⟩ <;> rw [h']
  · exact h
  · simpa [Globals.Addressed] using h
  · simpa [Globals.Addressed] using h
  · simpa [Globals.Addressed, freeChannel, close] using h

/-! ## Who has registered -/

/-- Only a register request registers, and only `accept_cb` ends it. -/
theorem registered_of_inner (fd : ℕ) (k : Call) (g : Globals) (l : History)
    (h : Inner (fun _ => True) k) : History.registered fd ((k, g) :: l) = l.registered fd := by
  cases k <;> first | rfl | cases h

/-- From `s` to `t`, whoever has registered has a send buffer that leads back to it. -/
def Enrolls (s t : Server) : Prop := ∀ d, t.Live d →
  t.calls.registered (t.channel d).fd = s.calls.registered (t.channel d).fd ∨ t.Addressed d

theorem Enrolls.of_eq (h : ∀ fd, t.calls.registered fd = s.calls.registered fd) : Enrolls s t :=
  fun _ _ => .inl (h _)

/-- The response that a register request builds is for the requester, whether it is sent or not. -/
theorem handleRegisterClientReq_enrolls (hs : s.Sound) (pkg : Pkg) :
    Enrolls s (s.handleRegisterClientReq pkg).1 := by
  have heff := handleRegisterClientReq_effects hs pkg
  have hinner := fun fd =>
    handleRegisterClientReq_inner (registered_of_inner fd) (fun _ => trivial) s pkg
  intro d hd
  obtain ⟨hl, hfd⟩ := (heff.updates d).live_of hs hd
  by_cases hpkg : pkg.fd = (s.channel d).fd
  · have hm : s.channelMap[pkg.fd]? = some d := by
      rw [hpkg]
      exact hl
    have hbuf : ∀ ty, (((s.enter (.handleRegisterClientReq pkg)).setType d ty).setSendPkg d
        (s.registration pkg d ty)).Addressed d := by
      refine fun ty => setSendPkg_addressed (fun h => absurd rfl h) fun _ => ?_
      rw [fd_registration, hpkg]
      simp
    rcases s.handleRegisterClientReq_cases pkg with ⟨h, hno⟩ | ⟨c, ty, hc, -, ⟨h, -⟩ | ⟨-, -, h⟩⟩
    · rcases hno with hno | hno
      · -- the requester is connected
        cases hno.symm.trans ((hs.lookup_eq _).trans hm)
      · left
        rw [hinner]
        show History.registered _ ((.handleRegisterClientReq pkg, s.toGlobals) :: s.calls) = _
        rw [History.registered, hno]
        split <;> rfl
    · right
      obtain rfl := Option.some.inj (hm.symm.trans (map_of_lookup hc))
      rw [h]
      exact response_addressed _ _ (hbuf ty)
    · right
      obtain rfl := Option.some.inj (hm.symm.trans (map_of_lookup hc))
      rw [h]
      exact hbuf ty
  · left
    rw [hinner, hfd]
    simp [Server.enter, History.registered, hpkg]

/-- The other requests register nobody. -/
theorem handle_enrolls (hs : s.Sound) (pkg : Pkg) : Enrolls s (s.handle pkg).1 := by
  rcases s.handle_cases pkg with h | h | h <;> rw [h]
  · exact handleRegisterClientReq_enrolls (hs.enter _) pkg
  · refine .of_eq fun fd => ?_
    exact handleChooseServerReq_inner (registered_of_inner fd) (fun _ => trivial) _ pkg
  · exact .of_eq fun _ => rfl

/-- A packet that is relayed registers nobody. -/
theorem route_enrolls (hs : s.Sound) (c : Slot) : Enrolls s (s.route c) := by
  by_cases h0 : (s.channel c).recvCtx.pkg.fd = 0
  · rw [route_of_request h0]
    exact handle_enrolls ((hs.setRecvPkg c _).enter _) _
  · rw [route_of_relay h0]
    refine .of_eq fun fd => ?_
    exact dispatch_inner (registered_of_inner fd) (fun _ => trivial) _ _ _ _

/-- At most one request comes of the bytes that arrive. -/
theorem serverRecvCb_enrolls (hs : s.Sound) (h : (s.channel c).recvCtx.io.active = true)
    (r : RecvResult) : Enrolls s (s.serverRecvCb c r) := by
  have hE := hs.enter (.serverRecvCb c)
  have hreg : ∀ fd, (s.enter (.serverRecvCb c)).calls.registered fd = s.calls.registered fd :=
    fun _ => rfl
  have hcases := serverRecvCb_cases hs h r
  generalize s.enter (.serverRecvCb c) = u at *
  rcases hcases with ⟨-, h⟩ | ⟨-, h⟩ | ⟨-, h⟩ | ⟨bs, -, h | h | h⟩
  · refine .of_eq fun fd => ?_
    rw [h, ← hreg]
    exact checkBreakFd_inner (registered_of_inner fd) (fun _ => trivial) _ _ _
  · exact .of_eq fun fd => by rw [h, hreg]
  · exact .of_eq fun fd => by rw [h, freeChannel_inner (registered_of_inner fd), hreg]
  · exact .of_eq fun fd => by rw [h, store_calls, hreg]
  · exact .of_eq fun fd => by rw [h, freeChannel_inner (registered_of_inner fd), store_calls, hreg]
  · have hroute := route_enrolls (hE.updates (store_updates u c bs)) c
    intro d hd
    rw [h] at hd ⊢
    have hl : ((u.store c bs).route c).Live d := by simpa [Globals.Live] using hd
    have hd := hroute d hl
    rw [store_calls, hreg] at hd
    simpa [Globals.Addressed] using hd

/-- Every callback but `accept_cb` enrolls those that it registers. -/
theorem step_enrolls (hs : s.Sound) {e : Event} (h : s.step e = some t)
    (he : ∀ fd, e ≠ .accept fd) : Enrolls s t := by
  obtain ⟨-, hen, rfl⟩ := step_eq_some.1 h
  cases e with
  | accept fd => exact absurd rfl (he fd)
  | acceptError => exact .of_eq fun _ => rfl
  | recv c r q =>
    exact serverRecvCb_enrolls (s := { s with results := q }) (hs.congr rfl rfl rfl) hen.1 r
  | send c q =>
    refine .of_eq fun fd => ?_
    exact serverSendCb_inner (registered_of_inner fd) (fun _ => trivial) { s with results := q } c

/-- The send buffer of a connection that has registered leads back to it. -/
def BuffersAddressed (s : Server) : Prop := ∀ d, s.Live d →
  s.calls.registered (s.channel d).fd ≠ none → s.Addressed d

/-- A new connection has not registered. -/
theorem BuffersAddressed.acceptCb (h : s.BuffersAddressed) (hkey : s.channelMap[fd]? = none) :
    (s.acceptCb fd).BuffersAddressed := by
  intro d hl hreg
  rw [acceptCb_calls, History.registered] at hreg
  split at hreg
  · exact absurd rfl hreg
  · rename_i hne
    obtain ⟨c, -, heq⟩ | ⟨-, heq⟩ := acceptCb_cases s fd
    · rw [heq] at hl hne hreg ⊢
      have hdc : d ≠ c := by
        rintro rfl
        rw [accepting_channel, if_pos rfl] at hne
        exact hne rfl
      have hold : s.Live d := ((accepting_live hkey).1 hl).resolve_left hdc
      rw [accepting_channel, if_neg hdc] at hreg
      rw [Globals.Addressed, accepting_channel, if_neg hdc]
      exact h d hold hreg
    · rw [heq] at hl hreg ⊢
      exact h d hl hreg

/-- One step, by the callback that it is. -/
theorem BuffersAddressed.step (h : s.BuffersAddressed) (hs : s.Sound) {e : Event}
    (hst : s.step e = some t) : t.BuffersAddressed := by
  by_cases hacc : ∃ fd, e = .accept fd
  · obtain ⟨fd, rfl⟩ := hacc
    obtain ⟨-, hen, rfl⟩ := step_eq_some.1 hst
    exact h.acceptCb (hs.key_none hen.2.2)
  · have henr := step_enrolls hs hst fun fd he => hacc ⟨fd, he⟩
    rcases step_cases hs hst with ⟨fd, he, -⟩ | ⟨c, hu⟩
    · exact absurd ⟨fd, he⟩ hacc
    · intro d hl hreg
      obtain ⟨hd, hfd⟩ := hu.live_of hs hl
      rcases henr d hl with hsame | haddr
      · rw [hsame, hfd] at hreg
        exact hu.addressed hs (h d hd hreg)
      · exact haddr

/-- In every run the send buffers of those that registered lead back to them. -/
theorem Reachable.addressed (hr : Reachable s) : s.BuffersAddressed := by
  refine Runs.Reaches.induction Server.step (P := BuffersAddressed) ?_
    (fun t e u ht ih hst => ?_) hr
  · exact fun d hl => by simp [Globals.Live, boot] at hl
  · exact ih.step (Reachable.sound ht) hst

/-! ## The handler -/

/-- Calls with other packets answer no choose request. -/
theorem chooseAnswers_of_inner (k : Call) (g : Globals) (l : History)
    (h : Inner (fun p => p.cmd ≠ PkgCmdType.chooseServerRes.code) k) :
    History.chooseAnswers ((k, g) :: l) = l.chooseAnswers := by
  cases k with
  | response p => exact if_neg h
  | checkBreakFd | freeChannel => rfl
  | _ => cases h

/-- A `response` with the packet of an answer is recorded as one. -/
theorem response_chooseAnswers (s : Server) (h : p.cmd = PkgCmdType.chooseServerRes.code) :
    (s.response p).1.calls.chooseAnswers = p :: s.calls.chooseAnswers := by
  have hp : History.chooseAnswers ((.response p, s.toGlobals) :: s.calls) =
      p :: s.calls.chooseAnswers := if_pos h
  obtain h | ⟨c, g, h⟩ := s.response_calls p
  · rw [h, hp]
  · rw [h]
    exact hp

/-- `response` on one descriptor leaves the answers of the kernel on another one. -/
theorem response_outcome (hs : s.Sound) {x : ℕ} (h : x ≠ p.fd) (n : ℕ) :
    (s.response p).1.outcome x n = s.outcome x n := by
  have hupd : Function.update s.results p.fd (s.results p.fd).tail x = s.results x :=
    Function.update_of_ne h _ _
  rcases hs.response_cases p with ⟨-, h'⟩ | ⟨c, hc, ⟨k, -, h'⟩ | ⟨-, h'⟩ | ⟨-, -, h'⟩⟩ <;> rw [h']
  · rfl
  · simp [Globals.outcome, hupd]
  · simp [Globals.outcome, hupd]
  · have hne : x ≠ (s.channel c).fd := by rwa [hs.fd_eq hc]
    simp [Globals.outcome, freed_opened, hupd, hne]

/-- `response` uses no iterator. -/
theorem response_fault (s : Server) (p : Pkg) (h : s.fault ≠ some .erasedIterator) :
    (s.response p).1.fault ≠ some .erasedIterator := by
  have hsend : ∀ o : Option Fault, o ≠ some .erasedIterator → ∀ (P : Prop) [Decidable P],
      (if P then some .sendOverread else o) ≠ some .erasedIterator := by
    intro o ho P _
    rcases fault_send (P := P) o with heq | hne
    · rw [heq]
      exact ho
    · exact hne
  rcases s.response_cases p with ⟨-, h'⟩ | ⟨c, -, ⟨k, -, h'⟩ | ⟨-, h'⟩ | ⟨-, h'⟩⟩ <;> rw [h']
  · exact h
  · exact hsend _ h _
  · exact hsend _ h _
  · exact hsend _ h _

/-- Who refuses the packet is gone from `channel_map`. -/
theorem response_gone (hs : s.Sound) (hc : s.channelMap[p.fd]? = some c)
    (ho : s.outcome p.fd p.total = .error) : (s.response p).1.channelMap[p.fd]? = none := by
  have hX : (((s.enter (.response p)).setSendLen c 0).popped p.fd 0 p.total).Sound :=
    ((hs.enter _).setSendLen c 0).popped ..
  have hu : ((((s.enter (.response p)).setSendLen c 0).popped p.fd 0 p.total).channel
      c).fd ≠ 0 := by simpa using hs.used hc
  rw [response_of_error ((hs.lookup_eq _).trans hc) ho, hX.freeChannel_eq hu,
    freed_channelMap_none]
  exact .inl (by simpa using (hs.fd_eq hc).symm)

theorem cmd_chooseRes (p : Pkg) (fd : ℕ) :
    (chooseRes p fd).cmd = PkgCmdType.chooseServerRes.code := by
  simp [chooseRes]

theorem result_chooseRes (p : Pkg) (fd : ℕ) : (chooseRes p fd).result = 0 :=
  Pkg.result_setResult (by decide)

theorem cmd_startNtf (p : Pkg) (fd : ℕ) :
    (startNtf p fd).cmd = PkgCmdType.startSendDataNtf.code := by
  simp [startNtf]

/-- The use of an iterator is no answer. -/
theorem chooseAnswers_useIterator (s : Server) (fd : ℕ) :
    (s.useIterator fd).calls.chooseAnswers = s.calls.chooseAnswers := by
  rw [useIterator_calls]

/-- The START is for `d`, and the iterator into `channel_map` is used after `d` was erased exactly
if `d` refuses it. -/
theorem startNtf_reply (hs : s.Sound) (hl : s.Live d) (ha : s.Addressed d) (f : ℕ)
    (hf : s.fault ≠ some .erasedIterator) :
    (startNtf (s.channel d).sendCtx.pkg f).fd = (s.channel d).fd ∧
    (((s.reply d (startNtf (s.channel d).sendCtx.pkg f)).useIterator (s.channel d).fd).fault ≠
      some .erasedIterator ↔
        s.outcome (s.channel d).fd (sizeofInt + sizeofHead) ≠ .error) := by
  have hfd : (startNtf (s.channel d).sendCtx.pkg f).fd = (s.channel d).fd :=
    (fd_startNtf _ _).trans ha
  have htotal : (startNtf (s.channel d).sendCtx.pkg f).total = sizeofInt + sizeofHead := by
    rw [Pkg.total, len_startNtf]
  refine ⟨hfd, ?_⟩
  have hlen := len_startNtf (s.channel d).sendCtx.pkg f
  generalize startNtf (s.channel d).sendCtx.pkg f = p at *
  have hY : (s.setSendPkg d p).Sound := hs.setSendPkg (by rw [hlen]; decide) (.inr hfd)
  have hlY : (s.setSendPkg d p).Live d := by simpa [Globals.Live] using hl
  have hout : (s.setSendPkg d p).outcome p.fd p.total =
      s.outcome (s.channel d).fd (sizeofInt + sizeofHead) := by
    rw [hfd, htotal]
    rfl
  have hfault := response_fault (s.setSendPkg d p) p hf
  have hwfd := (reply_steady s d p).fd d
  by_cases ho : s.outcome (s.channel d).fd (sizeofInt + sizeofHead) = .error
  · -- the raspi refuses the START, and is erased
    have hgone : (s.reply d p).channelMap[(s.channel d).fd]? = none := by
      rw [← hfd]
      refine response_gone hY (c := d) ?_ (hout.trans ho)
      rw [hfd]
      exact hl
    simp [useIterator, hgone, ho]
  · -- the raspi takes it, whole or in part
    have hlive : (s.reply d p).Live d :=
      response_keeps_live hY hlY fun _ => by rwa [hout]
    have hmap : (s.reply d p).channelMap[(s.channel d).fd]? = some d := hwfd ▸ hlive
    rw [useIterator_of_some hmap]
    exact ⟨fun _ => ho, fun _ => hfault⟩

section Found
variable (hs : s.Sound) (hc : s.channelMap[pkg.fd]? = some c)
  (hd : s.channelMap[pkg.chooseFd]? = some d)

include hs hc hd

/-- A request for a connection that is there is answered with result 0. -/
theorem handleChooseServerReq_answers :
    (∃ p, (s.handleChooseServerReq pkg).1.calls.chooseAnswers = p :: s.calls.chooseAnswers ∧
      p.fd = pkg.fd ∧ p.result = 0) ∧
    (s.handleChooseServerReq pkg).1.bridgeMap = s.bridgeMap.insertIfNew pkg.fd d := by
  have hE : Steady s (s.enter (.handleChooseServerReq pkg)) := ⟨fun _ => rfl, fun _ => rfl, rfl⟩
  have hcalls : (s.enter (.handleChooseServerReq pkg)).calls.chooseAnswers =
      s.calls.chooseAnswers := rfl
  rw [handleChooseServerReq_of_some ((hs.lookup_eq _).trans hc) ((hs.lookup_eq _).trans hd)]
  simp only
  generalize s.enter (.handleChooseServerReq pkg) = u at *
  have hv := hE.trans (reply_steady u c (chooseRes (u.channel c).sendCtx.pkg pkg.fd))
  have hans : (u.reply c (chooseRes (u.channel c).sendCtx.pkg pkg.fd)).calls.chooseAnswers =
      chooseRes (u.channel c).sendCtx.pkg pkg.fd :: s.calls.chooseAnswers :=
    (response_chooseAnswers _ (cmd_chooseRes _ _)).trans (by rw [← hcalls]; rfl)
  generalize u.reply c (chooseRes (u.channel c).sendCtx.pkg pkg.fd) = v at *
  have hv' := hv.trans (useIterator_steady v pkg.chooseFd)
  rw [← chooseAnswers_useIterator v pkg.chooseFd] at hans
  generalize v.useIterator pkg.chooseFd = v' at *
  have hw := (hv'.trans (reply_steady v' d (startNtf (v'.channel d).sendCtx.pkg pkg.fd))).trans
    (useIterator_steady _ pkg.chooseFd)
  -- the START is no answer
  have hstart : (startNtf (v'.channel d).sendCtx.pkg pkg.fd).cmd ≠
      PkgCmdType.chooseServerRes.code := by
    rw [cmd_startNtf]
    decide
  refine ⟨⟨chooseRes (u.channel c).sendCtx.pkg pkg.fd, ?_, fd_chooseRes _ pkg.fd_lt,
    result_chooseRes _ _⟩, ?_⟩
  · show ((v'.reply d _).useIterator pkg.chooseFd).calls.chooseAnswers = _
    rw [chooseAnswers_useIterator, reply_inner chooseAnswers_of_inner v' d hstart]
    exact hans
  · rw [hw.bridge]

/-- A request for another connection, whose send buffer leads to it, is followed by a START for
it. -/
theorem handleChooseServerReq_start (hdc : d ≠ c) (haddr : s.Addressed d) :
    (∃ g l p, (.response p, g) :: l <:+ (s.handleChooseServerReq pkg).1.calls ∧ s.calls <:+ l ∧
      p.IsStart ∧ p.fd = pkg.chooseFd ∧ p.reserve = pkg.fd ∧
        g.channelMap[pkg.chooseFd]? = some d) ∧
    (s.fault ≠ some .erasedIterator →
      ((s.handleChooseServerReq pkg).1.fault ≠ some .erasedIterator ↔
        s.outcome pkg.chooseFd (sizeofInt + sizeofHead) ≠ .error)) := by
  have hE := hs.enter (.handleChooseServerReq pkg)
  have hrem : (s.enter (.handleChooseServerReq pkg)).channelMap[pkg.fd]? = some c := hc
  have hras : (s.enter (.handleChooseServerReq pkg)).channelMap[pkg.chooseFd]? = some d := hd
  have haddr' : (s.enter (.handleChooseServerReq pkg)).Addressed d := haddr
  have hsuf : s.calls <:+ (s.enter (.handleChooseServerReq pkg)).calls := List.suffix_cons _ _
  have hout : (s.enter (.handleChooseServerReq pkg)).outcome pkg.chooseFd (sizeofInt + sizeofHead) =
      s.outcome pkg.chooseFd (sizeofInt + sizeofHead) := rfl
  have hfault : (s.enter (.handleChooseServerReq pkg)).fault = s.fault := rfl
  rw [handleChooseServerReq_of_some ((hs.lookup_eq _).trans hc) ((hs.lookup_eq _).trans hd)]
  simp only
  generalize s.enter (.handleChooseServerReq pkg) = u at *
  -- the reply leaves the raspi alone
  have hcfd := hE.fd_eq hrem
  have hdfd := hE.fd_eq hras
  have hne : pkg.chooseFd ≠ pkg.fd := by
    intro heq
    rw [heq, hrem] at hras
    exact hdc (Option.some.inj hras).symm
  have hresfd := fd_chooseRes (u.channel c).sendCtx.pkg pkg.fd_lt
  have hX : (u.setSendPkg c (chooseRes (u.channel c).sendCtx.pkg pkg.fd)).Sound :=
    hE.setSendPkg (by rw [len_chooseRes]; decide) (.inr (hresfd.trans hcfd.symm))
  have hvS := hX.reply
  have hvlive : (u.reply c (chooseRes (u.channel c).sendCtx.pkg pkg.fd)).Live d := by
    apply response_keeps_live hX (by simpa [Globals.Live] using hE.live hras)
    intro heq
    rw [hresfd] at heq
    exact absurd (by simpa [hdfd] using heq.symm) hne
  have hvaddr : (u.reply c (chooseRes (u.channel c).sendCtx.pkg pkg.fd)).Addressed d :=
    response_addressed _ _ (setSendPkg_addressed (fun _ => haddr') fun h => absurd h hdc)
  have hvfd := (reply_steady u c (chooseRes (u.channel c).sendCtx.pkg pkg.fd)).fd d
  have hvout : (u.reply c (chooseRes (u.channel c).sendCtx.pkg pkg.fd)).outcome pkg.chooseFd
      (sizeofInt + sizeofHead) = s.outcome pkg.chooseFd (sizeofInt + sizeofHead) := by
    refine (response_outcome hX ?_ _).trans hout
    rw [hresfd]
    exact hne
  have hvsuf := hsuf.trans (reply_suffix u c (chooseRes (u.channel c).sendCtx.pkg pkg.fd))
  have hvfault := response_fault (u.setSendPkg c (chooseRes (u.channel c).sendCtx.pkg pkg.fd))
    (chooseRes (u.channel c).sendCtx.pkg pkg.fd)
  rw [← reply] at hvfault
  generalize u.reply c (chooseRes (u.channel c).sendCtx.pkg pkg.fd) = v at *
  -- so the START is for it
  rw [hdfd] at hvfd
  have hmap : v.channelMap[pkg.chooseFd]? = some d := hvfd ▸ hvlive
  rw [useIterator_of_some hmap]
  refine ⟨⟨(v.setSendPkg d (startNtf (v.channel d).sendCtx.pkg pkg.fd)).toGlobals, v.calls,
    startNtf (v.channel d).sendCtx.pkg pkg.fd, ?_, hvsuf, cmd_startNtf _ _, ?_,
    Pkg.reserve_setReserve pkg.fd_lt, hmap⟩, fun hf => ?_⟩
  · rw [useIterator_calls]
    exact response_suffix ..
  · rw [fd_startNtf, hvaddr, hvfd]
  · have hstart := (startNtf_reply hvS hvlive hvaddr pkg.fd (hvfault (hfault ▸ hf))).2
    rw [hvfd, hvout] at hstart
    exact hstart

end Found

/-! ## Requests -/

/-- For `c`, `d` is a raspi to choose: another connection, that of `x`, which has registered as
`CTYPE_RASPI`. -/
def IsRaspi (s : Server) (c : Slot) (x : ℕ) (d : Slot) : Prop :=
  s.channelMap[x]? = some d ∧ d ≠ c ∧ s.calls.registered x = some .raspi

instance (s : Server) (c : Slot) (x : ℕ) (d : Slot) : Decidable (s.IsRaspi c x d) :=
  inferInstanceAs (Decidable (_ ∧ _ ∧ _))

/-- A raspi has registered, so its send buffer leads to it. -/
theorem IsRaspi.addressed {x : ℕ} (h : s.IsRaspi c x d) (hr : Reachable s) : s.Addressed d := by
  obtain ⟨hd, -, hreg⟩ := h
  apply hr.addressed d (hr.sound.live hd)
  rw [hr.sound.fd_eq hd, hreg]
  exact Option.some_ne_none _

/-- From `s` to `t` a choose request of `c` for `x` is answered truthfully. -/
structure Answered (s t : Server) (c : Slot) (x : ℕ) : Prop where
  reply : ∃ p, t.calls.chooseAnswers = p :: s.calls.chooseAnswers ∧ p.fd = (s.channel c).fd ∧
    (p.result = 0 ↔ ∃ d, s.IsRaspi c x d)
  start : ∀ d, s.IsRaspi c x d → ∃ g l p, (.response p, g) :: l <:+ t.calls ∧ s.calls <:+ l ∧
    p.IsStart ∧ p.fd = x ∧ p.reserve = (s.channel c).fd ∧ g.channelMap[x]? = some d
  bridge : ∀ d, s.IsRaspi c x d → t.bridgeMap[(s.channel c).fd]? = some d ∧
    t.fault ≠ some .erasedIterator
  refused : (∀ d, ¬ s.IsRaspi c x d) → t.bridgeMap = s.bridgeMap ∧
    ∀ d, d ≠ c → t.channel d = s.channel d

/-- `Answered` reads the record of calls, the bridges, the fault and the channels but `c`. -/
theorem Answered.congr {x : ℕ} (h : Answered s t c x) (hcalls : u.calls = t.calls)
    (hbridge : u.bridgeMap = t.bridgeMap) (hfault : u.fault = t.fault)
    (hch : ∀ d, d ≠ c → u.channel d = t.channel d) : Answered s u c x where
  reply := hcalls ▸ h.reply
  start := hcalls ▸ h.start
  bridge := hbridge ▸ hfault ▸ h.bridge
  refused hno := by
    obtain ⟨hb, hothers⟩ := h.refused hno
    exact ⟨hbridge.trans hb, fun d hd => (hch d hd).trans (hothers d hd)⟩

/-- The bytes of a frame that have arrived are in the receive buffer. -/
theorem arrived_eq {pre : List UInt8} (ha : s.Assembling c pre) (hun : Pkg.Unfinished pre) :
    s.arrived c = pre := by
  have hle : pre.length ≤ sizeofPkg := by
    rcases hun with h | ⟨hlen, h⟩
    · simp only [sizeofHead] at h
      simp only [sizeofPkg]
      omega
    · exact h.le.trans (Pkg.total_le hlen)
  rw [Globals.arrived, ha.pkg, ha.len]
  exact Buffer.slice_write_self Pkg.construct 0 pre (by rwa [zero_add])

/-- From `s` to `u` a request has arrived, `send` will answer `q`, and nothing else was done. -/
structure Entered (q : ℕ → List SendResult) (s u : Server) : Prop where
  sound : u.Sound
  map : u.channelMap = s.channelMap
  bridge : u.bridgeMap = s.bridgeMap
  fd : ∀ d, (u.channel d).fd = (s.channel d).fd
  addressed : ∀ d, s.Addressed d → u.Addressed d
  fault : u.fault ≠ some .erasedIterator
  calls : s.calls <:+ u.calls
  answers : u.calls.chooseAnswers = s.calls.chooseAnswers
  opened : u.opened = s.opened
  results : u.results = q

section Entered
variable {q : ℕ → List SendResult}

/-- How a `send` ends is decided by what was open when the request arrived. -/
theorem Entered.outcome (h : Entered q s u) (x n : ℕ) :
    u.outcome x n = Globals.outcome { s.toGlobals with results := q } x n := by
  exact outcome_congr (s := { s.toGlobals with results := q }) h.opened h.results x n

/-- Storing the last bytes of a request is all that `server_recv_cb` does before `handle`. -/
theorem stored_entered (hs : s.Sound) (hf : s.fault = none) (c : Slot) (bs : List UInt8) :
    Entered q s (s.stored c bs q) := by
  have hE : (({ s with results := q } : Server).enter (.serverRecvCb c)).Sound :=
    Sound.enter (s := { s with results := q }) (hs.congr rfl rfl rfl) _
  have hst := stored_steady s c bs q
  have hcalls := stored_calls s c bs q
  obtain ⟨hmap, hopened, -, hres⟩ :=
    store_globals (({ s with results := q } : Server).enter (.serverRecvCb c)) c bs
  exact {
    sound := hE.updates (store_updates _ c bs)
    map := hmap
    bridge := hst.bridge
    fd := hst.fd
    addressed := fun d hd => by
      rw [Globals.Addressed, hst.fd, stored, store_sendCtx]
      exact hd
    fault := by
      have hnone : s.fault ≠ some .erasedIterator := by
        rw [hf]
        exact (Option.some_ne_none _).symm
      -- an overflow of the receive buffer is another fault
      rcases store_fault (({ s with results := q } : Server).enter (.serverRecvCb c)) c bs with h | h
      · rw [stored, h]
        exact hnone
      · exact h
    calls := hcalls ▸ List.suffix_cons _ _
    answers := by
      rw [hcalls]
      rfl
    opened := hopened
    results := hres }

/-- A request goes to its handler with the descriptor that it came on. -/
theorem route_request {v : Server} (hv : Entered q s v) (hp : (v.channel c).recvCtx.pkg = p)
    (h0 : p.fd = 0) (hcmd : p.cmd = PkgCmdType.chooseServerReq.code) :
    ∃ u pkg, Entered q s u ∧ v.route c = (u.handleChooseServerReq pkg).1 ∧
      pkg.fd = (s.channel c).fd ∧ pkg.chooseFd = p.chooseFd := by
  have hown : (v.channel c).recvCtx.io.fd = (s.channel c).fd :=
    ((hv.sound.slot c).recvFd).trans (hv.fd c)
  have hlt : (s.channel c).fd < 4294967296 := by
    rw [← hv.fd c]
    exact (hv.sound.slot c).fd_lt.trans (by decide)
  rw [route_of_request (by rw [hp, h0]), hp, hown]
  refine ⟨((v.setRecvPkg c (p.setFd (s.channel c).fd)).enter
    (.routed c (p.setFd (s.channel c).fd))).enter (.handle (p.setFd (s.channel c).fd)),
    p.setFd (s.channel c).fd, ⟨((hv.sound.setRecvPkg c _).enter _).enter _, hv.map, hv.bridge,
      fun d => ?_, fun d hd => ?_, hv.fault, hv.calls.trans ?_, hv.answers, hv.opened, hv.results⟩,
    ?_, Pkg.fd_setFd hlt, Pkg.chooseFd_setFd ..⟩
  · simpa using hv.fd d
  · simpa [Globals.Addressed] using hv.addressed d hd
  · exact (List.suffix_cons _ _).trans (List.suffix_cons _ _)
  · have hch : (p.setFd (s.channel c).fd).cmd = PkgCmdType.chooseServerReq.code := by
      rw [Pkg.cmd_setFd, hcmd]
    unfold handle
    simp only
    rw [if_neg (by rw [hch]; decide), if_pos hch]

/-- A packet for another connection is no request: it is relayed, and not answered. -/
theorem route_unanswered {v : Server} (h0 : (v.channel c).recvCtx.pkg.fd ≠ 0) :
    (v.route c).calls.chooseAnswers = v.calls.chooseAnswers := by
  rw [route_of_relay h0]
  refine dispatch_inner chooseAnswers_of_inner (fun fd => ?_) _ _ _ _
  simp [restartPkg, PkgCmdType.code]

/-- The handler answers truthfully a request for another connection that has registered as
`CTYPE_RASPI`, if its connection has no other bridge and the raspi takes the START, and no other
request. -/
theorem handleChooseServerReq_answered (hu : Entered q s u) (hr : Reachable s) {x : ℕ}
    (hc : s.Live c) (hfd : pkg.fd = (s.channel c).fd) (hx : pkg.chooseFd = x) :
    Answered s (u.handleChooseServerReq pkg).1 c x ↔ ∃ d, s.IsRaspi c x d ∧
      (∀ r ∈ s.bridgeMap[(s.channel c).fd]?, r = d) ∧
        Globals.outcome { s.toGlobals with results := q } x (sizeofInt + sizeofHead) ≠
          .error := by
  have hrem : u.channelMap[pkg.fd]? = some c := by
    rw [hu.map, hfd]
    exact hc
  cases hd : s.channelMap[x]? with
  | none =>
    -- there is no answer
    have hno : ∀ d, ¬ s.IsRaspi c x d := fun d h => Option.some_ne_none d (h.1.symm.trans hd)
    refine ⟨fun h => ?_, fun ⟨d, h, _⟩ => absurd h (hno d)⟩
    obtain ⟨p, hp, -⟩ := h.reply
    rw [handleChooseServerReq_of_raspi_none ((hu.sound.lookup_eq _).trans hrem)
      ((hu.sound.lookup_eq _).trans (by rw [hx, hu.map, hd]))] at hp
    have hlen := congrArg List.length (hp.symm.trans hu.answers)
    simp at hlen
  | some d =>
    have hras : u.channelMap[pkg.chooseFd]? = some d := by rw [hx, hu.map, hd]
    obtain ⟨⟨p, hans, hpfd, hres⟩, hbr⟩ := handleChooseServerReq_answers hu.sound hrem hras
    have hraspi : ∀ d', s.IsRaspi c x d' → d' = d := fun d' h =>
      Option.some.inj (h.1.symm.trans hd)
    rw [hu.answers] at hans
    rw [hu.bridge, hfd] at hbr
    constructor
    · intro h
      obtain ⟨p', hans', -, hiff⟩ := h.reply
      -- the answer says 0, and the raspi is therefore there
      obtain ⟨rfl, -⟩ := List.cons.inj (hans.symm.trans hans')
      obtain ⟨d', hd'⟩ := hiff.1 hres
      obtain rfl := hraspi d' hd'
      obtain ⟨hled, hfault⟩ := h.bridge d' hd'
      have haddr := hu.addressed d' (hd'.addressed hr)
      refine ⟨d', hd', fun r hb => ?_, ?_⟩
      · -- a bridge that was there stays, and leads to the raspi only if it did before
        rw [hbr, BridgeLaw.insertIfNew_of_some (Option.mem_def.1 hb)] at hled
        exact Option.some.inj ((Option.mem_def.1 hb).symm.trans hled)
      · rw [← hu.outcome, ← hx]
        exact ((handleChooseServerReq_start hu.sound hrem hras hd'.2.1 haddr).2 hu.fault).1 hfault
    · rintro ⟨d', hd', hbridge, hout⟩
      obtain rfl := hraspi d' hd'
      have haddr := hu.addressed d' (hd'.addressed hr)
      have hstart := handleChooseServerReq_start hu.sound hrem hras hd'.2.1 haddr
      rw [hx, hfd, hu.outcome] at hstart
      refine ⟨⟨p, hans, hpfd.trans hfd, fun _ => ⟨d', hd'⟩, fun _ => hres⟩, fun e he => ?_,
        fun e he => ?_, fun hno => absurd hd' (hno d')⟩
      · obtain rfl := hraspi e he
        obtain ⟨g, l, q, hl, hs, hrest⟩ := hstart.1
        exact ⟨g, l, q, hl, hu.calls.trans hs, hrest⟩
      · obtain rfl := hraspi e he
        refine ⟨?_, (hstart.2 hu.fault).2 hout⟩
        rw [hbr]
        cases hb : s.bridgeMap[(s.channel c).fd]? with
        | none => rw [BridgeLaw.getElem?_insertIfNew_of_none hb, if_pos rfl]
        | some r => rw [BridgeLaw.insertIfNew_of_some hb, hb, hbridge r hb]

/-- A choose request that arrives on a connection is answered truthfully exactly if it is meant for
the server, it names another connection that has registered as `CTYPE_RASPI`, the connection that it
came on has no other bridge, and the raspi takes the START. -/
theorem choose_answered {bs : List UInt8} (hr : Reachable s)
    (hc : s.Live c) (h : s.step (.recv c (.data bs) q) = some t)
    (hp : p = Pkg.filled (s.arrived c ++ bs)) (hlen : p.len ≤ bufSize)
    (hframe : p.frame = s.arrived c ++ bs) (hcmd : p.cmd = PkgCmdType.chooseServerReq.code) :
    Answered s t c p.chooseFd ↔ p.fd = 0 ∧ ∃ d, s.IsRaspi c p.chooseFd d ∧
      (∀ r ∈ s.bridgeMap[(s.channel c).fd]?, r = d) ∧
        Globals.outcome { s.toGlobals with results := q } p.chooseFd (sizeofInt + sizeofHead) ≠
          .error := by
  obtain ⟨pre, hun, ha⟩ := assembling_of_reachable hr hc
  rw [arrived_eq ha hun] at hp hframe
  have hv := stored_entered (q := q) hr.sound (step_eq_some.1 h).1 c bs
  obtain ⟨-, hst, heq⟩ := step_whole hr.sound h ha hun hlen hframe
  have hpkg : ((s.stored c bs q).channel c).recvCtx.pkg = p := by rw [hst.pkg, hframe, ← hp]
  rw [heq]
  generalize s.stored c bs q = v at *
  by_cases h0 : p.fd = 0
  · -- for the server: the handler decides
    obtain ⟨u, pkg, hu, hroute, hfd, hx⟩ := route_request hv hpkg h0 hcmd
    have hans := handleChooseServerReq_answered hu hr hc hfd hx
    rw [← hroute] at hans
    generalize v.route c = w at *
    have hch : ∀ d, d ≠ c → ((w.setRecvLen c 0).setRecvPkg c Pkg.construct).channel d =
        w.channel d := fun d hd => by simp [setRecvPkg, setRecvLen, modify_channel_of_ne hd]
    constructor
    · intro h
      exact ⟨h0, hans.1 (h.congr rfl rfl rfl fun d hd => (hch d hd).symm)⟩
    · intro h
      exact (hans.2 h.2).congr rfl rfl rfl hch
  · -- for another connection: it is relayed, and there is no answer
    refine ⟨fun h => ?_, fun h => absurd h.1 h0⟩
    obtain ⟨p', hp', -⟩ := h.reply
    have hlen := congrArg List.length (hp'.symm.trans
      ((route_unanswered (by rwa [hpkg])).trans hv.answers))
    simp at hlen

end Entered

/-- A raspi and a viewer have registered, and the head of the viewer's choice has arrived. -/
def choosing : List Event :=
  [.accept 5] ++ Event.register 0 .raspi Event.takesAll ++ [.accept 6] ++
    Event.register 1 .remote Event.takesAll ++
    [.recv 1 (.data ((Pkg.encode .chooseServerReq 0 (Buffer.wordBytes 5)).take sizeofHead))
      Event.takesAll]

/-- A viewer that has registered asks for a raspi that has. -/
theorem choose_answered_choosing : Answered (after choosing)
    (after (choosing ++ [.recv 1 (.data (Buffer.wordBytes 5)) Event.takesAll])) 1
    (Pkg.filled (Pkg.encode .chooseServerReq 0 (Buffer.wordBytes 5))).chooseFd :=
  (choose_answered (reachable_after _ (by decide +kernel)) (by decide +kernel)
    (step_after _ _ (by decide +kernel)) (congrArg Pkg.filled (by decide +kernel))
    (by decide +kernel) (by decide +kernel) (by decide +kernel)).2
    ⟨by decide +kernel, 0, by decide +kernel, by decide +kernel, by decide +kernel⟩

/-- A client chooses a descriptor that is not connected. -/
def choosesNobody : List Event :=
  [.accept 5, .recv 0 (.data ((Pkg.encode .chooseServerReq 0 (Buffer.wordBytes 9)).take
    sizeofHead)) Event.takesAll]

/-- A viewer that has not registered gets its answer sent to descriptor `0`, which is nobody's. -/
theorem choose_unanswered : ¬ ∀ s t c bs q p, Reachable s → s.Live c →
    s.step (.recv c (.data bs) q) = some t → p = Pkg.filled (s.arrived c ++ bs) →
    p.len ≤ bufSize → p.frame = s.arrived c ++ bs → p.cmd = PkgCmdType.chooseServerReq.code →
    p.fd = 0 → Answered s t c p.chooseFd := by
  intro h
  have hans := h (after choosesNobody)
    (after (choosesNobody ++ [.recv 0 (.data (Buffer.wordBytes 9)) Event.takesAll])) 0
    (Buffer.wordBytes 9) Event.takesAll
    (Pkg.filled (Pkg.encode .chooseServerReq 0 (Buffer.wordBytes 9)))
    (reachable_after _ (by decide +kernel)) (by decide +kernel) (step_after _ _ (by decide +kernel))
    (congrArg Pkg.filled (by decide +kernel)) (by decide +kernel) (by decide +kernel)
    (by decide +kernel) (by decide +kernel)
  obtain ⟨p, hp, -⟩ := hans.reply
  have hlen := congrArg List.length hp
  rw [List.length_cons] at hlen
  exact absurd hlen (by decide +kernel)

end Server
end WawaServer
