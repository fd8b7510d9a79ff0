import WawaServer.Answers
import WawaServer.Delivery

/-!
# Faults

When a run of the server meets undefined behaviour. `CallSafe` is a condition on the globals a
function was called on, `Fits` one on what `recv` stores. A run that meets both at every turn is
free of faults, and the first one that is not met is a fault (`fault_none_iff`). So `response`,
`check_break_fd` and `dispatch` never read past the end of a packet, and `free_channel`,
`handle_register_client_req` and a close by the peer are defined in every state.
-/

namespace WawaServer

/-- The last call was one of `dispatch`. -/
def History.dispatching : History → Bool
  | (.dispatch _ _ _, _) :: _ => true
  | _ => false

/-- A slot is free for the connection; `send` is asked for bytes of the packet, and the packet has a
source to resume when it is complete; the channel that was chosen refuses no packet while the
request is answered; and a connection that refused a packet of `dispatch`, and is its own raspi,
does not refuse the RESTART. -/
def CallSafe : Call → Globals → History → Prop
  | .acceptCb _, g, _ => ∃ c, (g.channel c).status = .nonActive
  | .serverSendCb c, g, _ => (g.channel c).sendCtx.len + g.sendCount c ≤ sizeofPkg ∧
      (g.Completes c → (g.channel c).sendCtx.pSrcChannel ≠ none)
  | .response p, g, l => ∀ e ∈ l.choosing, p.fd = (g.channel e.2).fd →
      g.outcome p.fd p.total ≠ .error
  | .checkBreakFd type fd, g, l => l.dispatching = true → type = .remote →
      ∀ r ∈ g.bridgeMap[fd]?, (g.channel r).fd = fd → g.restartOutcome r ≠ .error
  | _, _, _ => True

instance (k : Call) (g : Globals) (l : History) : Decidable (CallSafe k g l) := by
  refine k.casesOn ?_ ?_ ?_ ?_ ?_ ?_ ?_ ?_ ?_ ?_ ?_ ?_ <;> intros <;>
    dsimp only [CallSafe] <;> infer_instance

namespace Server

/-- What `recv` returns ends inside the packet. -/
def Fits (s : Server) : Event → Prop
  | .recv c (.data bs) _ => (s.channel c).recvCtx.len + bs.length ≤ sizeofPkg
  | _ => True

/-- No fault has been met exactly if every call was safe. -/
def Judged (s : Server) : Prop := s.fault = none ↔ s.Heeds CallSafe

variable {s t u : Server} {c d : Slot} {p pkg : Pkg}

/-! ## One call -/

/-- One more call, one more condition. -/
theorem heeds_enter_iff {G : Call → Globals → History → Prop} {k : Call} {g : Globals}
    (ht : t.calls = (k, g) :: s.calls) : t.Heeds G ↔ G k g s.calls ∧ s.Heeds G := by
  constructor
  · intro h
    exact ⟨h k g s.calls (ht ▸ List.suffix_rfl), h.of_suffix (ht ▸ List.suffix_cons _ _)⟩
  · intro h
    exact h.2.enter h.1 ht

/-- `Judged` reads the history and the fault. -/
theorem Judged.congr (h : s.Judged) (hc : t.calls = s.calls) (hf : t.fault = s.fault) :
    t.Judged := by
  unfold Judged Heeds at *
  rw [hc, hf]
  exact h

/-- A safe call leaves the fault. -/
theorem Judged.enter (h : s.Judged) {k : Call} {g : Globals} (hk : CallSafe k g s.calls)
    (ht : t.calls = (k, g) :: s.calls) (hf : t.fault = s.fault) : t.Judged := by
  unfold Judged
  rw [hf, heeds_enter_iff ht]
  constructor
  · intro hn
    exact ⟨hk, h.1 hn⟩
  · intro hG
    exact h.2 hG.2

/-- A call that is not safe ends in a fault. -/
theorem Judged.of_faulty (hf : t.fault ≠ none) (hG : ¬ t.Heeds CallSafe) : t.Judged :=
  iff_of_false hf hG

/-- One bad call in the record is enough. -/
theorem not_heeds_of_suffix {k : Call} {g : Globals} {l : History} (hk : ¬ CallSafe k g l)
    (hl : (k, g) :: l <:+ t.calls) : ¬ t.Heeds CallSafe :=
  fun hG => hk (hG k g l hl)

/-- `send` is asked for bytes of the packet. -/
theorem fault_of_fits {off n : ℕ} (h : off + n ≤ sizeofPkg) (o : Option Fault) :
    (if sizeofPkg < off + n then some .sendOverread else o) = o :=
  if_neg (Nat.not_lt.2 h)

/-- `free_channel` has no condition. -/
theorem Judged.freeChannel (h : s.Judged) (c : Slot) : (s.freeChannel c).Judged :=
  h.enter (k := .freeChannel c) (g := s.toGlobals) trivial rfl rfl

theorem Judged.freed (h : s.Judged) (c : Slot) : (s.freed c).Judged :=
  h.enter (k := .freeChannel c) (g := s.toGlobals) trivial rfl rfl

/-- The iterator's element is gone. -/
theorem useIterator_of_none {fd : ℕ} (h : s.channelMap[fd]? = none) :
    s.useIterator fd = s.fail .erasedIterator := by
  simp only [useIterator, h]

/-- A fault is not undone by the use of an iterator. -/
theorem useIterator_faulty {fd : ℕ} (h : s.fault ≠ none) : (s.useIterator fd).fault ≠ none := by
  unfold useIterator
  split
  · exact Option.some_ne_none _
  · exact h

/-! ## `response` -/

/-- `response` reads the packet it is given, and no further. -/
theorem response_fault_eq (s : Server) (hp : p.len ≤ bufSize) :
    (s.response p).1.fault = s.fault := by
  have hfit : 0 + p.total ≤ sizeofPkg := by
    rw [zero_add]
    exact Pkg.total_le hp
  rcases s.response_cases p with ⟨-, h⟩ | ⟨c, -, ⟨k, -, h⟩ | ⟨-, h⟩ | ⟨-, h⟩⟩ <;> rw [h]
  · rfl
  · exact fault_of_fits hfit _
  · exact fault_of_fits hfit _
  · exact fault_of_fits hfit _

/-- `response` is a call itself, and calls nothing else with a condition. -/
theorem response_heeds (s : Server) (p : Pkg) : (s.response p).1.Heeds CallSafe ↔
    CallSafe (.response p) s.toGlobals s.calls ∧ s.Heeds CallSafe := by
  obtain h | ⟨c, g, h⟩ := s.response_calls p
  · exact heeds_enter_iff h
  · rw [heeds_enter_iff (s := s.enter (.response p)) h, heeds_enter_iff (s := s) rfl]
    exact and_iff_right trivial

/-- The packet fits, so that `send` stays in it. -/
theorem Judged.response (h : s.Judged) (hp : p.len ≤ bufSize)
    (hk : CallSafe (.response p) s.toGlobals s.calls) : (s.response p).1.Judged := by
  unfold Judged
  rw [s.response_fault_eq hp, response_heeds, and_iff_right hk]
  exact h

/-- A reply, whose packet fits. -/
theorem Judged.reply (h : s.Judged) (hp : p.len ≤ bufSize)
    (hk : CallSafe (.response p) (s.setSendPkg c p).toGlobals s.calls) : (s.reply c p).Judged :=
  Judged.response (s := s.setSendPkg c p) (h.congr rfl rfl) hp hk

/-- A packet that is no answer to a choose request may be refused. -/
theorem callSafe_response {g : Globals} {l : History} (h : l.choosing = none) :
    CallSafe (.response p) g l := by
  intro e he
  rw [h] at he
  cases he

/-! ## `check_break_fd` and `dispatch` -/

/-- The RESTART is as long as it says, so that `check_break_fd` has no fault of its own. -/
theorem checkBreakFd_fault_eq (s : Server) (type : ClientType) (fd : ℕ) :
    (s.checkBreakFd type fd).fault = s.fault := by
  rcases s.checkBreakFd_cases type fd with ⟨-, heq⟩ | ⟨r, -, -, heq⟩ <;> rw [heq]
  · rfl
  · exact response_fault_eq (s.enter (.checkBreakFd .remote fd)) (by rw [len_restartPkg]; decide)

/-- The condition on `check_break_fd` is its caller's. -/
theorem Judged.checkBreakFd (h : s.Judged) {type : ClientType} {fd : ℕ}
    (hk : CallSafe (.checkBreakFd type fd) s.toGlobals s.calls) :
    (s.checkBreakFd type fd).Judged := by
  have hE : (s.enter (.checkBreakFd type fd)).Judged := h.enter hk rfl rfl
  rcases s.checkBreakFd_cases type fd with ⟨-, heq⟩ | ⟨r, rfl, -, heq⟩ <;> rw [heq]
  · exact hE
  · refine (hE.response ?_ (callSafe_response rfl)).congr rfl rfl
    rw [len_restartPkg]
    decide

/-- `d` is its own raspi, and refuses the RESTART. -/
theorem checkBreakFd_gone (hs : s.Sound) (hd : s.Live d) {r : Slot}
    (hr : s.bridgeMap[(s.channel d).fd]? = some r) (hfd : (s.channel r).fd = (s.channel d).fd)
    (ho : s.restartOutcome r = .error) :
    (s.checkBreakFd .remote (s.channel d).fd).channelMap[(s.channel d).fd]? = none := by
  have hp : (restartPkg (s.channel r).fd).fd = (s.channel d).fd :=
    (fd_restartPkg (hs.slot r).fd_lt).trans hfd
  rw [checkBreakFd_of_some hr]
  have hgone := response_gone (p := restartPkg (s.channel r).fd) (c := d)
    (hs.enter (.checkBreakFd .remote (s.channel d).fd)) (by rw [hp]; exact hd)
    ((hs.outcome_restartPkg r).trans ho)
  rw [hp] at hgone
  exact hgone

/-- The iterator is used after `check_break_fd`, and may be gone. -/
theorem Judged.dispatch (h : s.Judged) (hs : s.Sound) {srcfd dstfd : ℕ} (hfd : pkg.fd = dstfd) :
    (s.dispatch pkg srcfd dstfd).1.Judged := by
  have hlog : ∀ {t : Server}, t.calls = (.dispatch pkg srcfd dstfd, s.toGlobals) :: s.calls →
      t.fault = s.fault → t.Judged :=
    fun hc hf => h.enter (k := .dispatch pkg srcfd dstfd) trivial hc hf
  rcases s.dispatch_cases pkg srcfd dstfd with
    ⟨-, heq⟩ | ⟨a, d, ha, hd, hlen, hsend⟩
  · rw [heq]
    exact hlog rfl rfl
  have hfit : 0 + pkg.total ≤ sizeofPkg := by
    rw [zero_add]
    exact Pkg.total_le hlen
  rcases hsend with ⟨k, -, heq⟩ | ⟨-, heq⟩ | ⟨ho, heq⟩
  · rw [heq]
    exact hlog rfl (fault_of_fits hfit _)
  · rw [heq]
    exact hlog rfl (fault_of_fits hfit _)
  · have hr := hs.relays ha hd hfd hlen
    have hY := hs.effect (.relayFail pkg srcfd dstfd a d hr ho)
    have hu : ((s.relaying pkg srcfd dstfd d).popped dstfd 0 pkg.total).Judged :=
      hlog rfl (fault_of_fits hfit _)
    have hmap : ((s.relaying pkg srcfd dstfd d).popped dstfd 0 pkg.total).channelMap[dstfd]? =
        some d := hr.dst
    have hdis : ((s.relaying pkg srcfd dstfd d).popped dstfd 0 pkg.total).calls.dispatching =
        true := rfl
    rw [heq]
    simp only
    clear heq
    generalize (s.relaying pkg srcfd dstfd d).popped dstfd 0 pkg.total = u at *
    obtain rfl : (u.channel d).fd = dstfd := hY.fd_eq hmap
    by_cases hk : CallSafe (.checkBreakFd (u.channel d).type (u.channel d).fd) u.toGlobals u.calls
    · -- `d` keeps its descriptor, and the iterator is used before it is freed
      have hlive : (u.checkBreakFd (u.channel d).type (u.channel d).fd).Live d :=
        checkBreakFd_keeps_live hY hmap (hk hdis)
      have hmap' := (checkBreakFd_effect hY (u.channel d).type (u.channel d).fd).map_of_live hlive
      rw [useIterator_of_some hmap']
      exact (hu.checkBreakFd hk).freeChannel d
    · -- the RESTART erased `d`
      have hno : ¬ (((u.checkBreakFd (u.channel d).type (u.channel d).fd).useIterator
          (u.channel d).fd).freeChannel d).Heeds CallSafe := by
        refine not_heeds_of_suffix hk ((checkBreakFd_suffix u _ _).trans ?_)
        exact useIterator_calls (u.checkBreakFd (u.channel d).type (u.channel d).fd)
          (u.channel d).fd ▸ List.suffix_cons _ _
      refine .of_faulty ?_ hno
      simp only [CallSafe, not_forall, not_not] at hk
      obtain ⟨-, ht, r, hr, hrfd, hro⟩ := hk
      rw [ht, useIterator_of_none (checkBreakFd_gone hY hmap hr hrfd hro)]
      exact Option.some_ne_none _

/-! ## The handlers -/

/-- A registration makes one reply. -/
theorem Judged.handleRegisterClientReq (h : s.Judged) (pkg : Pkg) :
    (s.handleRegisterClientReq pkg).1.Judged := by
  have hE : (s.enter (.handleRegisterClientReq pkg)).Judged :=
    h.enter (k := .handleRegisterClientReq pkg) trivial rfl rfl
  rcases s.handleRegisterClientReq_cases pkg with
    ⟨heq, -⟩ | ⟨c, t, -, -, ⟨heq, -⟩ | ⟨-, -, heq⟩⟩ <;> rw [heq]
  · exact hE
  · have hT : ((s.enter (.handleRegisterClientReq pkg)).setType c t).Judged := hE.congr rfl rfl
    apply hT.reply
    · rw [len_registration]
      decide
    · exact callSafe_response rfl
  · exact hE.congr rfl rfl

/-- A packet is sent while a choose request for `d` is answered, and the iterator at `d` is used
after it. -/
theorem Judged.reply_chosen (h : s.Judged) (hX : (s.setSendPkg c p).Sound) (hp : p.len ≤ bufSize)
    (hd : s.Live d) {f : ℕ} (hch : s.calls.choosing = some (f, d)) :
    ((s.reply c p).useIterator (s.channel d).fd = s.reply c p ∧ (s.reply c p).Live d ∧
      (s.reply c p).Judged) ∨
    (((s.reply c p).useIterator (s.channel d).fd).fault ≠ none ∧
      ¬ (s.reply c p).Heeds CallSafe) := by
  have hdX : (s.setSendPkg c p).Live d := by simpa [Globals.Live] using hd
  have hfdX : ((s.setSendPkg c p).channel d).fd = (s.channel d).fd := by simp
  have hfd := (reply_steady s c p).fd d
  by_cases hk : p.fd = (s.channel d).fd → (s.setSendPkg c p).outcome p.fd p.total ≠ .error
  · have hlive : (s.reply c p).Live d := response_keeps_live hX hdX (by rwa [hfdX])
    have hmap : (s.reply c p).channelMap[(s.channel d).fd]? = some d := hfd ▸ hlive
    refine .inl ⟨useIterator_of_some hmap, hlive, h.reply hp ?_⟩
    intro e he
    rw [hch] at he
    obtain rfl := Option.some.inj he
    rwa [hfdX]
  · -- `d` refused the packet, and is erased
    have hno : ¬ CallSafe (.response p) (s.setSendPkg c p).toGlobals s.calls := by
      intro hsafe
      have hcall := hsafe (f, d) hch
      rw [hfdX] at hcall
      exact hk hcall
    obtain ⟨hpd, ho⟩ := Classical.not_imp.1 hk
    have hgone : (s.reply c p).channelMap[(s.channel d).fd]? = none := by
      rw [← hpd]
      refine response_gone hX (c := d) ?_ (not_not.1 ho)
      rw [hpd]
      exact hd
    refine .inr ⟨?_, not_heeds_of_suffix hno ((s.setSendPkg c p).response_suffix p)⟩
    rw [useIterator_of_none hgone]
    exact Option.some_ne_none _

/-- The iterator to the raspi is used after each of the two replies. -/
theorem Judged.handleChooseServerReq (h : s.Judged) (hs : s.Sound) (pkg : Pkg) :
    (s.handleChooseServerReq pkg).1.Judged := by
  have hE := hs.enter (.handleChooseServerReq pkg)
  have hJ : (s.enter (.handleChooseServerReq pkg)).Judged :=
    h.enter (k := .handleChooseServerReq pkg) trivial rfl rfl
  rcases s.handleChooseServerReq_cases pkg with ⟨-, heq⟩ | ⟨c, d, hc, hd, heq⟩
  · rw [heq]
    exact hJ
  · have hch : (s.enter (.handleChooseServerReq pkg)).calls.choosing = some (pkg.fd, d) := by
      simp only [Server.enter, History.choosing, Globals.chosen, hc, hd, reduceCtorEq, ↓reduceIte,
        Option.map_some]
    have hrem : (s.enter (.handleChooseServerReq pkg)).channelMap[pkg.fd]? = some c :=
      (hs.lookup_eq _).symm.trans hc
    have hras : (s.enter (.handleChooseServerReq pkg)).channelMap[pkg.chooseFd]? = some d :=
      (hs.lookup_eq _).symm.trans hd
    rw [heq]
    simp only
    clear heq
    generalize s.enter (.handleChooseServerReq pkg) = u at *
    have hlive := hE.live hras
    obtain hdfd : (u.channel d).fd = pkg.chooseFd := hE.fd_eq hras
    rw [← hdfd]
    -- the answer to the viewer
    have hX : (u.setSendPkg c (chooseRes (u.channel c).sendCtx.pkg pkg.fd)).Sound := by
      apply hE.setSendPkg
      · rw [len_chooseRes]
        decide
      · exact .inr ((fd_chooseRes _ pkg.fd_lt).trans (hE.fd_eq hrem).symm)
    have hfd := (reply_steady u c (chooseRes (u.channel c).sendCtx.pkg pkg.fd)).fd d
    have hvch := u.reply_choosing c (chooseRes (u.channel c).sendCtx.pkg pkg.fd)
    have hvS := hX.reply
    have hv := hJ.reply_chosen hX (by rw [len_chooseRes]; decide) hlive hch
    rw [hch] at hvch
    generalize u.reply c (chooseRes (u.channel c).sendCtx.pkg pkg.fd) = v at *
    rcases hv with ⟨heq, hvl, hvJ⟩ | ⟨hvf, hvG⟩
    · -- the START for the raspi
      rw [heq, ← hfd]
      have hY : (v.setSendPkg d (startNtf (v.channel d).sendCtx.pkg pkg.fd)).Sound := by
        apply hvS.setSendPkg
        · rw [len_startNtf]
          decide
        · rw [fd_startNtf, len_startNtf]
          exact (hvS.slot d).pkgFd.imp_left fun h => ⟨h.1, le_rfl⟩
      have hw := hvJ.reply_chosen hY (by rw [len_startNtf]; decide) hvl hvch
      rcases hw with ⟨heq', -, hwJ⟩ | ⟨hwf, hwG⟩
      · rw [heq']
        exact hwJ.congr rfl rfl
      · refine .of_faulty hwf ?_
        intro hG
        exact hwG (hG.of_suffix (useIterator_calls _ (v.channel d).fd ▸ List.suffix_rfl))
    · -- the viewer chose itself and is erased
      refine .of_faulty (useIterator_faulty ?_) ?_
      · rw [Server.reply, response_fault_eq _ (by rw [len_startNtf]; decide)]
        exact hvf
      · intro hG
        apply hvG
        have hsuf := useIterator_calls v (u.channel d).fd ▸ reply_suffix
          (v.useIterator (u.channel d).fd) d (startNtf ((v.useIterator (u.channel d).fd).channel
            d).sendCtx.pkg pkg.fd)
        refine hG.of_suffix (hsuf.trans ?_)
        exact useIterator_calls _ (u.channel d).fd ▸ List.suffix_rfl

/-- A request is one of the two, or does nothing. -/
theorem Judged.handle (h : s.Judged) (hs : s.Sound) (pkg : Pkg) : (s.handle pkg).1.Judged := by
  have hE : (s.enter (.handle pkg)).Judged := h.enter (k := .handle pkg) trivial rfl rfl
  rcases s.handle_cases pkg with heq | heq | heq <;> rw [heq]
  · exact hE.handleRegisterClientReq pkg
  · exact hE.handleChooseServerReq (hs.enter _) pkg
  · exact hE

/-! ## The callbacks -/

/-- A whole packet is handled or relayed. -/
theorem Judged.route (h : s.Judged) (hs : s.Sound) (c : Slot) : (s.route c).Judged := by
  by_cases h0 : (s.channel c).recvCtx.pkg.fd = 0
  · rw [route_of_request h0]
    refine Judged.handle ?_ ((hs.setRecvPkg c _).enter _) _
    exact h.enter (k := .routed c _) trivial rfl rfl
  · rw [route_of_relay h0]
    refine Judged.dispatch ?_ (hs.enter _) rfl
    exact h.enter (k := .routed c _) trivial rfl rfl

/-- Bytes that fit are no fault. -/
theorem store_fault_of_fits {bs : List UInt8}
    (h : (s.channel c).recvCtx.len + bs.length ≤ sizeofPkg) :
    (s.store c bs).fault = s.fault := by
  unfold store
  simp only
  rw [if_neg (Nat.not_lt.2 h)]
  rfl

/-- Bytes that do not fit are one. -/
theorem store_fault_of_not_fits {bs : List UInt8}
    (h : ¬ (s.channel c).recvCtx.len + bs.length ≤ sizeofPkg) :
    (s.store c bs).fault = some .recvOverflow := by
  unfold store
  simp only
  rw [if_pos (Nat.not_le.1 h)]
  rfl

/-- No update mends a fault. -/
theorem Update.fault_none (h : Update c s t) (hs : s.Sound) (ht : t.fault = none) :
    s.fault = none := by
  cases h with
  | effect h => exact h.fault_none ht
  | closing h => exact (closing_effect hs h).fault_none ht
  | _ => exact ht

/-- A callback undoes no fault. -/
theorem Updates.fault_none (h : Updates c s t) (hs : s.Sound) (ht : t.fault = none) :
    s.fault = none := by
  induction h with
  | refl => exact ht
  | tail h' h ih => exact ih (h.fault_none (hs.updates h') ht)

/-- Once bytes went past the receive buffer there is a fault. -/
theorem serverRecvCb_overflow (hs : s.Sound) (hact : (s.channel c).recvCtx.io.active = true)
    {bs : List UInt8} (h : ¬ (s.channel c).recvCtx.len + bs.length ≤ sizeofPkg) :
    (s.serverRecvCb c (.data bs)).fault ≠ none := by
  have hE := hs.enter (.serverRecvCb c)
  have hS := hE.updates (store_updates (s.enter (.serverRecvCb c)) c bs)
  have hover : ((s.enter (.serverRecvCb c)).store c bs).fault = some .recvOverflow :=
    store_fault_of_not_fits h
  have hne : ((s.enter (.serverRecvCb c)).store c bs).fault ≠ none := by
    rw [hover]
    exact Option.some_ne_none _
  rcases serverRecvCb_cases hs hact (.data bs) with
    ⟨hbs, -⟩ | ⟨hbs, -⟩ | ⟨hbs, -⟩ | ⟨bs', hbs, hdata⟩
  · cases hbs
  · cases hbs
  · cases hbs
  · obtain rfl := RecvResult.data.inj hbs
    rcases hdata with heq | heq | heq <;> rw [heq]
    · exact hne
    · exact hne
    · intro hf
      exact hne ((route_updates hS c).fault_none hS hf)

/-- Bytes that fit, and then one of the ways through `server_recv_cb`. -/
theorem Judged.serverRecvCb (h : s.Judged) (hs : s.Sound)
    (hact : (s.channel c).recvCtx.io.active = true) {r : RecvResult}
    (hfits : ∀ bs, r = .data bs → (s.channel c).recvCtx.len + bs.length ≤ sizeofPkg) :
    (s.serverRecvCb c r).Judged := by
  have hE := hs.enter (.serverRecvCb c)
  have hJ : (s.enter (.serverRecvCb c)).Judged := h.enter (k := .serverRecvCb c) trivial rfl rfl
  rcases serverRecvCb_cases hs hact r with
    ⟨-, heq⟩ | ⟨-, heq⟩ | ⟨-, heq⟩ | ⟨bs, hbs, hdata⟩
  · rw [heq]
    have hC : ((s.enter (.serverRecvCb c)).enter (.closed c)).Judged :=
      hJ.enter (k := .closed c) trivial rfl rfl
    exact (hC.freed c).checkBreakFd (by simp [CallSafe, History.dispatching])
  · rw [heq]
    exact hJ
  · rw [heq]
    exact hJ.freeChannel c
  · have hst : ((s.enter (.serverRecvCb c)).store c bs).Judged :=
      hJ.congr (store_calls ..) (store_fault_of_fits (hfits bs hbs))
    have hS := hE.updates (store_updates (s.enter (.serverRecvCb c)) c bs)
    rcases hdata with heq | heq | heq <;> rw [heq]
    · exact hst
    · exact hst.freeChannel c
    · exact (hst.route hS c).congr rfl rfl

/-- `server_send_cb` is recorded. -/
theorem serverSendCb_suffix (s : Server) (c : Slot) :
    (.serverSendCb c, s.toGlobals) :: s.calls <:+ (s.serverSendCb c).calls := by
  rcases s.serverSendCb_cases c with
    ⟨k, -, heq⟩ | ⟨k, -, -, ⟨-, heq⟩ | ⟨a, -, heq⟩⟩ | ⟨-, heq⟩ <;> rw [heq]
  · exact List.suffix_rfl
  · exact List.suffix_rfl
  · exact List.suffix_rfl
  · have hsuf := checkBreakFd_suffix ((s.enter (.serverSendCb c)).popped (s.channel c).fd
      (s.channel c).sendCtx.len (s.sendCount c)) (s.channel c).type (s.channel c).fd
    exact ((List.suffix_cons _ _).trans hsuf).trans (List.suffix_cons _ _)

/-- The offset must be inside the packet, and a source must be there at its end. -/
theorem Judged.serverSendCb (h : s.Judged) (c : Slot) : (s.serverSendCb c).Judged := by
  have hcases := s.serverSendCb_cases c
  by_cases hwin : (s.channel c).sendCtx.len + s.sendCount c ≤ sizeofPkg
  · have hpop := fault_of_fits hwin s.fault
    rcases hcases with ⟨k, ho, heq⟩ | ⟨k, ho, hk, ⟨ha, heq⟩ | ⟨a, ha, heq⟩⟩ | ⟨ho, heq⟩
    · have hc : ¬ s.Completes c := by
        unfold Globals.Completes
        rcases ho with ⟨ho, -⟩ | ⟨ho, hlt⟩
        · rw [ho]
          exact id
        · rw [ho]
          exact Nat.not_le.2 hlt
      rw [heq]
      exact h.enter (k := .serverSendCb c) ⟨hwin, fun hdone => absurd hdone hc⟩ rfl hpop
    · -- there is no source to resume
      rw [heq]
      refine .of_faulty (Option.some_ne_none _) (not_heeds_of_suffix (k := .serverSendCb c) ?_
        List.suffix_rfl)
      intro hsafe
      exact hsafe.2 (.intro ho hk) ha
    · rw [heq]
      refine h.enter (k := .serverSendCb c) ⟨hwin, fun _ => ?_⟩ rfl hpop
      rw [ha]
      exact Option.some_ne_none a
    · have hc : ¬ s.Completes c := by
        unfold Globals.Completes
        rw [ho]
        exact id
      have hu : ((s.enter (.serverSendCb c)).popped (s.channel c).fd (s.channel c).sendCtx.len
          (s.sendCount c)).Judged :=
        h.enter (k := .serverSendCb c) ⟨hwin, fun hdone => absurd hdone hc⟩ rfl hpop
      rw [heq]
      exact (hu.checkBreakFd (by simp [CallSafe, History.dispatching])).freeChannel c
  · -- `send` reads past the end of the packet
    have hpop : (if sizeofPkg < (s.channel c).sendCtx.len + s.sendCount c then
        some .sendOverread else s.fault) ≠ none := by
      rw [if_pos (Nat.not_le.1 hwin)]
      exact Option.some_ne_none _
    have hno : ¬ (s.serverSendCb c).Heeds CallSafe := by
      refine not_heeds_of_suffix ?_ (s.serverSendCb_suffix c)
      intro hsafe
      exact hwin hsafe.1
    refine .of_faulty ?_ hno
    rcases hcases with ⟨k, -, heq⟩ | ⟨k, -, -, ⟨-, heq⟩ | ⟨a, -, heq⟩⟩ | ⟨-, heq⟩ <;> rw [heq]
    · exact hpop
    · exact Option.some_ne_none _
    · exact hpop
    · show (Server.checkBreakFd _ _ _).fault ≠ none
      rw [checkBreakFd_fault_eq]
      exact hpop

/-- `accept_cb` needs a free slot. -/
theorem Judged.acceptCb (h : s.Judged) (fd : ℕ) : (s.acceptCb fd).Judged := by
  cases hc : s.freeSlot with
  | none =>
    rw [acceptCb_of_none hc]
    refine .of_faulty (Option.some_ne_none _) (not_heeds_of_suffix (k := .acceptCb fd)
      (g := s.toGlobals) ?_ List.suffix_rfl)
    rintro ⟨c, hfree⟩
    exact freeSlot_none hc c hfree
  | some c =>
    rw [acceptCb_of_some hc]
    exact h.enter (k := .acceptCb fd) (g := s.toGlobals) ⟨c, freeSlot_some hc⟩ rfl rfl

/-! ## Runs -/

/-- A callback faults if `recv` stores too much, and else if a call was not safe. -/
theorem step_judged (hs : s.Sound) (h : s.Judged) {e : Event} (hst : s.step e = some t) :
    (s.Fits e ∧ t.Judged) ∨ (¬ s.Fits e ∧ t.fault ≠ none) := by
  obtain ⟨-, hen, rfl⟩ := step_eq_some.1 hst
  cases e with
  | accept fd => exact .inl ⟨trivial, h.acceptCb fd⟩
  | acceptError => exact .inl ⟨trivial, h⟩
  | recv c r q =>
    have hq : ({ s with results := q } : Server).Judged := h.congr rfl rfl
    have hqS : ({ s with results := q } : Server).Sound := hs.congr rfl rfl rfl
    by_cases hfits : s.Fits (.recv c r q)
    · refine .inl ⟨hfits, hq.serverRecvCb hqS hen.1 ?_⟩
      intro bs hbs
      rw [hbs] at hfits
      exact hfits
    · cases r with
      | data bs => exact .inr ⟨hfits, serverRecvCb_overflow hqS hen.1 hfits⟩
      | _ => exact absurd trivial hfits
  | send c q =>
    have hq : ({ s with results := q } : Server).Judged := h.congr rfl rfl
    exact .inl ⟨trivial, hq.serverSendCb c⟩

/-- A run ends where it meets a fault. -/
theorem run_faulty {es : List Event} (h : s.fault ≠ none) (hrun : Runs.run step s es = some t) :
    t = s := by
  cases es with
  | nil => exact (Option.some.inj hrun).symm
  | cons e es =>
    obtain ⟨u, hu, -⟩ := (Runs.run_cons_eq_some step).1 hrun
    exact absurd (step_eq_some.1 hu).1 h

/-- Induction on the run: what the calls say is what happens. -/
theorem run_judged (hs : s.Sound) (h : s.Judged) {es : List Event}
    (hrun : Runs.run step s es = some t) :
    t.fault = none ↔ Runs.Along step (fun s e _ => s.Fits e) s es ∧ t.Heeds CallSafe := by
  induction es generalizing s with
  | nil =>
    obtain rfl : s = t := Option.some.inj hrun
    exact h.trans (and_iff_right trivial).symm
  | cons e es ih =>
    obtain ⟨u, hu, hrest⟩ := (Runs.run_cons_eq_some step).1 hrun
    have halong : Runs.Along step (fun s e _ => s.Fits e) s (e :: es) ↔
        s.Fits e ∧ Runs.Along step (fun s e _ => s.Fits e) u es := by
      simp only [Runs.Along, hu, Option.mem_def, Option.some.injEq, forall_eq']
    rw [halong]
    rcases step_judged hs h hu with ⟨hfits, hJ⟩ | ⟨hno, hf⟩
    · rw [and_iff_right hfits]
      exact ih (hs.step hu) hJ hrest
    · rw [run_faulty hf hrest]
      exact iff_of_false hf fun hall => hno hall.1.1

/-- At the start nothing was called. -/
theorem boot_judged : boot.Judged := iff_of_true rfl (by simp [Heeds, boot])

/-- A run meets no fault exactly if what `recv` stores stays inside the packets and every call is
safe. -/
theorem fault_none_iff {es : List Event} (h : Runs.run step boot es = some t) :
    t.fault = none ↔ Runs.Along step (fun s e _ => s.Fits e) boot es ∧ t.Heeds CallSafe :=
  run_judged .boot boot_judged h

theorem fault_none_iff_viewerRefuses : (after viewerRefuses).fault = none ↔
    Runs.Along step (fun s e _ => s.Fits e) boot viewerRefuses ∧
      (after viewerRefuses).Heeds CallSafe :=
  fault_none_iff (run_after [] viewerRefuses (by decide +kernel))

end Server
end WawaServer
