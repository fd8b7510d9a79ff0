import WawaServer.Clients.Control
import WawaServer.Answers
import WawaServer.Isolation
import WawaServer.Notices

/-!
# The raspi serves the viewer that has its bridge

`bridge_map` is what the server knows of who watches whom, and `camera_status` and `remotefd` are
what the raspi knows. The two are kept apart and agree only through the orders that the server
sends. `OrderSafe` is what it takes: every order finds its connection, idle, and is sent whole, and
no bridge is made or lost without one. Then the last order that a connection was sent is a START for
`fd` exactly while `bridge_map` leads from `fd` to it (`Agrees`), and so does `main` of the raspi
(`raspi_serves_bridge`). Other packets may be cut or refused.
-/

namespace WawaServer

/-- The packet is a START or a RESTART. -/
def Pkg.IsOrder (p : Pkg) : Prop := p.IsStart ∨ p.IsRestart

instance (p : Pkg) : Decidable p.IsOrder := inferInstanceAs (Decidable (_ ∨ _))

namespace Raspi

/-- After a list of packets with an order, the last order decides. -/
theorem started_iff {ps : List Pkg} (h : ∀ p ∈ ps, p.IsStart → p.reserve ≠ 0) (fd : ℕ) :
    (∃ p, (ps.filter fun p => p.IsOrder).getLast? = some p ∧ p.IsStart ∧ p.reserve = fd) ↔
      fd ≠ 0 ∧ statusOf ps = .start ∧ remotefdOf ps = fd := by
  induction ps using List.reverseRecOn with
  | nil =>
    simp only [List.filter_nil, List.getLast?_nil, reduceCtorEq, false_and, exists_false,
      false_iff]
    rintro ⟨hne, -, hfd⟩
    exact hne hfd.symm
  | append_singleton ps p ih =>
    have hlast := h p (by simp)
    have ih := ih fun q hq => h q (List.mem_append_left _ hq)
    rw [List.filter_append, statusOf_concat, remotefdOf_concat]
    by_cases hrestart : p.IsRestart
    · have hstart : ¬ p.IsStart := by
        intro hstart
        cases hrestart.symm.trans hstart
      simp [Pkg.IsOrder, hrestart, hstart]
    · by_cases hstart : p.IsStart
      · have horder : [p].filter (fun p => p.IsOrder) = [p] := by
          simp [Pkg.IsOrder, hstart]
        rw [horder, List.getLast?_concat, if_neg hrestart, if_pos hstart, if_pos hstart]
        constructor
        · intro hp
          obtain ⟨q, hq, -, hfd⟩ := hp
          obtain rfl := Option.some.inj hq
          exact ⟨hfd ▸ hlast hstart, rfl, hfd⟩
        · intro hfd
          exact ⟨p, rfl, hstart, hfd.2.2⟩
      · simpa [Pkg.IsOrder, hrestart, hstart] using ih

end Raspi

/-- The orders among the messages that were sent to the connection last accepted under `fd`. -/
def History.orders (fd : ℕ) (l : History) : List Pkg :=
  ((l.outbox fd).map Prod.fst).filter fun p => p.IsOrder

/-- An order finds its connection, idle, and is sent whole, and none is relayed; a raspi that is
chosen has no bridge but that of the viewer, and the viewer none but to the raspi; and no bridge
leads to a connection that is freed. -/
def OrderSafe : Call → Globals → History → Prop
  | .response p, g, _ => p.IsOrder → g.channelMap[p.fd]? ≠ none ∧
      (∀ c ∈ g.channelMap[p.fd]?, (g.channel c).sendCtx.io.active = false) ∧
        g.outcome p.fd p.total = .sent p.total
  | .dispatch pkg _ _, _, _ => ¬ pkg.IsOrder
  | .handleChooseServerReq pkg, g, _ => ∀ d ∈ g.chosen pkg, ∀ e ∈ g.bridgeMap.toList,
      (e.1 = pkg.fd ↔ e.2 = d)
  | .freeChannel c, g, _ => ∀ e ∈ g.bridgeMap.toList, (g.channel e.2).fd ≠ (g.channel c).fd
  | _, _, _ => True

instance (k : Call) (g : Globals) (l : History) : Decidable (OrderSafe k g l) := by
  refine k.casesOn ?_ ?_ ?_ ?_ ?_ ?_ ?_ ?_ ?_ ?_ ?_ ?_ <;> intros <;>
    dsimp only [OrderSafe] <;> infer_instance

namespace Server

open Pkg
open Raspi (start mainRound Process)

variable {s t u : Server} {c d : Slot} {p pkg : Pkg} {k fd srcfd dstfd : ℕ}

/-- No packet that is pending is an order. -/
def Unordered (s : Server) : Prop := ∀ c, (s.channel c).sendCtx.io.active = true →
  ¬ (s.channel c).sendCtx.pkg.IsOrder

/-- The bridges and the orders agree. -/
structure Agrees (s : Server) : Prop where
  live : ∀ (fd : ℕ) (d : Slot), s.bridgeMap[fd]? = some d → s.Live d
  started : ∀ d, s.Live d → ∀ fd : ℕ, s.bridgeMap[fd]? = some d ↔
    ∃ p, (s.calls.orders (s.channel d).fd).getLast? = some p ∧ p.IsStart ∧ p.reserve = fd
  fits : ∀ d, s.Live d → ∀ p ∈ s.calls.orders (s.channel d).fd,
    p.len = sizeofInt ∧ (p.IsStart → p.reserve ≠ 0)
  pending : s.Unordered

/-! ## What leaves the orders alone -/

/-- The same connections, bridges and orders. -/
structure SameOrders (s t : Server) : Prop where
  map : t.channelMap = s.channelMap
  fd : ∀ d, (t.channel d).fd = (s.channel d).fd
  bridge : t.bridgeMap = s.bridgeMap
  orders : ∀ fd, t.calls.orders fd = s.calls.orders fd

section Calls
variable {g : Globals} {l : History}

/-- Orders are counted where messages are. -/
theorem orders_of_outbox {l' : History} {ms : List (Pkg × Conn)}
    (h : l'.outbox fd = l.outbox fd ++ ms) :
    l'.orders fd = l.orders fd ++ (ms.map Prod.fst).filter fun p => p.IsOrder := by
  rw [History.orders, h, List.map_append, List.filter_append, ← History.orders]

/-- A message that is no order, or none, was sent. -/
theorem orders_ite {l' : History} {P : Prop} [Decidable P] {κ : Conn} (hp : P → ¬ p.IsOrder)
    (h : l'.outbox fd = l.outbox fd ++ if P then [(p, κ)] else []) :
    l'.orders fd = l.orders fd := by
  rw [orders_of_outbox h]
  split_ifs with hP
  · simp [hp hP]
  · simp

/-- A packet that is no order adds none. -/
theorem orders_response (hp : ¬ p.IsOrder) (fd : ℕ) :
    History.orders fd ((.response p, g) :: l) = l.orders fd :=
  orders_ite (fun _ => hp) rfl

/-- A frame that is no order adds none. -/
theorem orders_dispatch (hp : ¬ pkg.IsOrder) (srcfd dstfd fd : ℕ) :
    History.orders fd ((.dispatch pkg srcfd dstfd, g) :: l) = l.orders fd :=
  orders_ite (fun _ => hp) rfl

/-- A new connection has been given no orders. -/
theorem orders_acceptCb (fd' fd : ℕ) :
    History.orders fd ((.acceptCb fd', g) :: l) = if fd' = fd then [] else l.orders fd := by
  rw [History.orders, History.outbox]
  split_ifs <;> rfl

/-- The end of a frame that is no order adds none. -/
theorem orders_sendCb (hp : ¬ (g.channel c).sendCtx.pkg.IsOrder) (fd : ℕ) :
    History.orders fd ((.serverSendCb c, g) :: l) = l.orders fd :=
  orders_ite (fun _ => hp) rfl

end Calls

/-- Where orders and bridges stay as they are, agreement stays. -/
theorem Agrees.same (h : s.Agrees) (hst : SameOrders s t) (hp : t.Unordered) : t.Agrees := by
  have hlive : ∀ d, t.Live d ↔ s.Live d := by
    intro d
    rw [Globals.Live, Globals.Live, hst.map, hst.fd]
  constructor
  · intro fd d hb
    rw [hst.bridge] at hb
    exact (hlive d).2 (h.live fd d hb)
  · intro d hd fd
    rw [hst.bridge, hst.fd, hst.orders]
    exact h.started d ((hlive d).1 hd) fd
  · intro d hd
    rw [hst.fd, hst.orders]
    exact h.fits d ((hlive d).1 hd)
  · exact hp

/-- Only the send buffer of `c` is another, and holds no order. -/
theorem Agrees.touched (h : s.Agrees) (hst : SameOrders s t) (c : Slot)
    (hc : ¬ (t.channel c).sendCtx.pkg.IsOrder)
    (hothers : ∀ d, d ≠ c → (t.channel d).sendCtx = (s.channel d).sendCtx) : t.Agrees := by
  apply h.same hst
  intro d hact
  by_cases hd : d = c
  · rwa [hd]
  · rw [hothers d hd] at hact ⊢
    exact h.pending d hact

/-- A freed slot has no order pending. -/
theorem freed_unordered (h : s.Unordered) (c : Slot) : (s.freed c).Unordered := by
  intro d hact
  rw [freed_sendPkg]
  exact h d ((freed_sendActive ..).1 hact).2

/-- No bridge leads to the connection that is freed. -/
theorem Agrees.freed (h : s.Agrees)
    (hG : ∀ e ∈ s.bridgeMap.toList, (s.channel e.2).fd ≠ (s.channel c).fd) :
    (s.freed c).Agrees := by
  constructor
  · intro fd d hb
    rw [freed_bridgeMap] at hb
    have hne := hG (fd, d) (Std.ExtTreeMap.mem_toList_iff_getElem?_eq_some.2 hb)
    rw [freed_live]
    exact ⟨hne, h.live fd d hb⟩
  · intro d hd fd
    rw [freed_channel_fd]
    exact h.started d (freed_live.1 hd).2 fd
  · intro d hd
    rw [freed_channel_fd]
    exact h.fits d (freed_live.1 hd).2
  · exact freed_unordered h.pending c

theorem useIterator_sameOrders (s : Server) (fd : ℕ) : SameOrders s (s.useIterator fd) := by
  unfold useIterator
  split <;> exact ⟨rfl, fun _ => rfl, rfl, fun _ => rfl⟩

/-- A fault changes neither orders nor bridges. -/
theorem Agrees.useIterator (h : s.Agrees) (fd : ℕ) : (s.useIterator fd).Agrees := by
  apply h.same (useIterator_sameOrders s fd)
  unfold Server.useIterator
  split <;> exact h.pending

/-! ## `response` -/

/-- A packet that is no order, in a buffer that holds none. -/
theorem Agrees.response (h : s.Agrees) (hs : s.Sound) (hp : ¬ p.IsOrder)
    (hbuf : ∀ c ∈ s.channelMap[p.fd]?, ¬ (s.channel c).sendCtx.pkg.IsOrder)
    (hG : (s.response p).1.Heeds OrderSafe) : (s.response p).1.Agrees := by
  have hcalls : ∀ {t : Server}, t.calls = (.response p, s.toGlobals) :: s.calls →
      ∀ fd, t.calls.orders fd = s.calls.orders fd := by
    intro t ht fd
    rw [ht]
    exact orders_response hp fd
  rcases hs.response_cases p with ⟨-, heq⟩ | ⟨c, hc, ⟨k, -, heq⟩ | ⟨-, heq⟩ | ⟨-, -, heq⟩⟩
  · rw [heq]
    exact h.same ⟨rfl, fun _ => rfl, rfl, hcalls rfl⟩ h.pending
  · rw [heq]
    refine h.touched ⟨rfl, by simp, rfl, hcalls rfl⟩ c ?_ ?_
    · simpa using hbuf c hc
    · intro d hd
      simp [modify_channel_of_ne hd]
  · rw [heq]
    refine h.same ⟨rfl, by simp, rfl, hcalls rfl⟩ ?_
    intro d hact
    simpa using h.pending d (by simpa using hact)
  · have hu : (((s.enter (.response p)).setSendLen c 0).popped p.fd 0 p.total).Agrees := by
      refine h.same ⟨rfl, by simp, rfl, hcalls rfl⟩ ?_
      intro d hact
      simpa using h.pending d (by simpa using hact)
    rw [heq] at hG ⊢
    exact hu.freed (hG (.freeChannel c) _ _ List.suffix_rfl)

/-- A packet that is not about to be sent, or is no order, changes nothing. -/
theorem Agrees.setSendPkg (h : s.Agrees) (c : Slot)
    (hp : (s.channel c).sendCtx.io.active = true → ¬ p.IsOrder) : (s.setSendPkg c p).Agrees := by
  refine h.same ⟨rfl, by simp, rfl, fun _ => rfl⟩ ?_
  intro d hact
  have hold : (s.channel d).sendCtx.io.active = true := by simpa using hact
  by_cases hd : d = c
  · subst hd
    simpa using hp hold
  · simpa [Server.setSendPkg, modify_channel_of_ne hd] using h.pending d hold

/-- A reply that is no order changes nothing. -/
theorem Agrees.reply (h : s.Agrees) (hX : (s.setSendPkg c p).Sound) (hp : ¬ p.IsOrder)
    (hc : s.channelMap[p.fd]? = some c) (hG : (s.reply c p).Heeds OrderSafe) :
    (s.reply c p).Agrees := by
  refine Agrees.response (h.setSendPkg c fun _ => hp) hX hp ?_ hG
  intro e he
  obtain rfl : c = e := Option.some.inj (hc.symm.trans he)
  simpa using hp

/-! ## Orders -/

/-- From `s` to `t` the connection in `c`, which was idle, was sent the order `p`. -/
structure Ordered (s t : Server) (c : Slot) (p : Pkg) : Prop where
  found : s.channelMap[p.fd]? = some c
  idle : (s.channel c).sendCtx.io.active = false
  map : t.channelMap = s.channelMap
  fd : ∀ d, (t.channel d).fd = (s.channel d).fd
  bridge : t.bridgeMap = s.bridgeMap
  orders : ∀ fd, t.calls.orders fd = s.calls.orders fd ++ if p.fd = fd then [p] else []
  pending : s.Unordered → t.Unordered

/-- An order is sent whole, to a connection that is idle. -/
theorem response_order (hs : s.Sound) (hp : p.IsOrder) (hG : (s.response p).1.Heeds OrderSafe) :
    ∃ c, Ordered s (s.response p).1 c p := by
  obtain ⟨hfound, hidle, hwhole⟩ := hG (.response p) s.toGlobals s.calls (s.response_suffix p) hp
  rcases hs.response_cases p with ⟨hnone, -⟩ | ⟨c, hc, ⟨k, hk, -⟩ | ⟨-, heq⟩ | ⟨ho, -⟩⟩
  · exact absurd hnone hfound
  · exact absurd hwhole hk.outcome_ne.2
  · rw [heq]
    refine ⟨c, hc, hidle c hc, rfl, by simp, rfl, ?_, ?_⟩
    · intro fd
      show History.orders fd ((.response p, s.toGlobals) :: s.calls) = _
      by_cases hfd : p.fd = fd
      · subst hfd
        rw [orders_of_outbox (outbox_response_sent hfound hwhole), if_pos rfl]
        simp [hp]
      · have hbox : History.outbox fd ((.response p, s.toGlobals) :: s.calls) =
            s.calls.outbox fd := outbox_response_unsent fun heq => absurd heq hfd
        rw [History.orders, hbox, if_neg hfd, List.append_nil, ← History.orders]
    · intro hpend d hact
      simpa using hpend d (by simpa using hact)
  · cases ho.symm.trans hwhole

/-- After the order the bridges are what it says. -/
theorem Agrees.ordered (h : s.Agrees) (hs : s.Sound) (ho : Ordered s t c p)
    (hlen : p.len = sizeofInt) (hres : p.IsStart → p.reserve ≠ 0) (b : Std.ExtTreeMap ℕ Slot)
    (hown : ∀ fd : ℕ, b[fd]? = some c ↔ p.IsStart ∧ p.reserve = fd)
    (hothers : ∀ d, d ≠ c → ∀ fd : ℕ, b[fd]? = some d ↔ s.bridgeMap[fd]? = some d) :
    Agrees { t with bridgeMap := b } := by
  have hlive : ∀ d, t.Live d ↔ s.Live d := by
    intro d
    rw [Globals.Live, Globals.Live, ho.map, ho.fd]
  have hc := hs.live ho.found
  have hfd := hs.fd_eq ho.found
  have hmine : t.calls.orders (t.channel c).fd = s.calls.orders (s.channel c).fd ++ [p] := by
    rw [ho.fd, ho.orders, if_pos hfd.symm]
  have hother : ∀ d, d ≠ c → s.Live d →
      t.calls.orders (t.channel d).fd = s.calls.orders (s.channel d).fd := by
    intro d hdc hd
    have hne := fd_ne_of_live hd ho.found hdc
    rw [ho.fd, ho.orders, if_neg hne.symm, List.append_nil]
  constructor
  · intro fd d hb
    show t.Live d
    rw [hlive]
    by_cases hdc : d = c
    · rwa [hdc]
    · exact h.live fd d ((hothers d hdc fd).1 hb)
  · intro d hd fd
    show b[fd]? = some d ↔ ∃ q, (t.calls.orders (t.channel d).fd).getLast? = some q ∧ _
    by_cases hdc : d = c
    · subst hdc
      rw [hown, hmine]
      simp
    · have hd := (hlive d).1 hd
      rw [hothers d hdc, hother d hdc hd]
      exact h.started d hd fd
  · intro d hd
    show ∀ q ∈ t.calls.orders (t.channel d).fd, q.len = sizeofInt ∧ (q.IsStart → q.reserve ≠ 0)
    by_cases hdc : d = c
    · subst hdc
      rw [hmine]
      intro q hq
      rcases List.mem_append.1 hq with hq | hq
      · exact h.fits d hc q hq
      · rw [List.mem_singleton.1 hq]
        exact ⟨hlen, hres⟩
    · have hd := (hlive d).1 hd
      rw [hother d hdc hd]
      exact h.fits d hd
  · exact ho.pending h.pending

/-- Two bridges do not lead to one raspi. -/
theorem Agrees.bridge_inj (h : s.Agrees) {fd' : ℕ} (hb : s.bridgeMap[fd]? = some d)
    (hb' : s.bridgeMap[fd']? = some d) : fd = fd' := by
  have hd := h.live fd d hb
  obtain ⟨p, hp, -, hres⟩ := (h.started d hd fd).1 hb
  obtain ⟨p', hp', -, hres'⟩ := (h.started d hd fd').1 hb'
  obtain rfl := Option.some.inj (hp.symm.trans hp')
  exact hres.symm.trans hres'

/-- The packet of `check_break_fd` is an order. -/
theorem isOrder_restartPkg (fd : ℕ) : (restartPkg fd).IsOrder := by
  right
  simp [restartPkg, Pkg.IsRestart]

/-- The status is not read. -/
theorem Agrees.setStatus (h : s.Agrees) (c : Slot) (st : ChannelStatus) :
    (s.setStatus c st).Agrees := by
  refine h.same ⟨rfl, by simp, rfl, fun _ => rfl⟩ ?_
  intro d hact
  simpa using h.pending d (by simpa using hact)

/-- The bridge is erased, and its raspi is ordered to stop. -/
theorem Agrees.checkBreakFd (h : s.Agrees) (hs : s.Sound) (type : ClientType) (fd : ℕ)
    (hG : (s.checkBreakFd type fd).Heeds OrderSafe) : (s.checkBreakFd type fd).Agrees := by
  have hE : (s.enter (.checkBreakFd type fd)).Agrees :=
    h.same ⟨rfl, fun _ => rfl, rfl, fun _ => rfl⟩ h.pending
  rcases Server.checkBreakFd_cases s type fd with ⟨-, heq⟩ | ⟨r, rfl, hb, heq⟩
  · rw [heq]
    exact hE
  · have hr := h.live fd r hb
    have hfd := fd_restartPkg (hs.slot r).fd_lt
    rw [heq] at hG ⊢
    obtain ⟨c, ho⟩ := response_order (hs.enter (.checkBreakFd .remote fd))
      (isOrder_restartPkg (s.channel r).fd) hG
    have hc := ho.found
    rw [hfd] at hc
    obtain rfl : r = c := Option.some.inj (hr.symm.trans hc)
    generalize ((s.enter (.checkBreakFd .remote fd)).response (restartPkg (s.channel r).fd)).1 = u
      at *
    have hu : Agrees { u with bridgeMap := s.bridgeMap.erase fd } := by
      apply hE.ordered (hs.enter _) ho (len_restartPkg _)
      · exact fun hstart => absurd hstart (not_isStart_restartPkg _)
      · intro fd'
        simp only [not_isStart_restartPkg, false_and, iff_false, Std.ExtTreeMap.getElem?_erase,
          Std.LawfulEqCmp.compare_eq_iff_eq]
        split
        · simp
        · rename_i hne
          intro hb'
          exact hne (h.bridge_inj hb hb')
      · intro d hdr fd'
        show _ ↔ s.bridgeMap[fd']? = some d
        simp only [Std.ExtTreeMap.getElem?_erase, Std.LawfulEqCmp.compare_eq_iff_eq]
        split
        · rename_i heq'
          subst heq'
          simp [hb, Ne.symm hdr]
        · rfl
    have hbridge : u.bridgeMap = s.bridgeMap := ho.bridge
    rw [← hbridge] at hu
    exact hu.setStatus r .active

/-! ## `dispatch` -/

/-- Who is freed has no bridge. -/
theorem Agrees.freeChannel (h : s.Agrees) (hs : s.Sound) (hc : (s.channel c).fd ≠ 0)
    (hG : (s.freeChannel c).Heeds OrderSafe) : (s.freeChannel c).Agrees := by
  rw [hs.freeChannel_eq hc] at hG ⊢
  exact h.freed (hG (.freeChannel c) s.toGlobals s.calls List.suffix_rfl)

/-- The copy has the command of the packet. -/
theorem isOrder_copyFrame (q : Pkg) (h : pkg.len ≤ bufSize) :
    (copyFrame q pkg).IsOrder ↔ pkg.IsOrder := by
  have hcmd : (copyFrame q pkg).cmd = pkg.cmd :=
    word_copyFrame q pkg h (by have := twelve_le_total pkg; omega)
  rw [Pkg.IsOrder, Pkg.IsOrder, Pkg.IsStart, Pkg.IsStart, Pkg.IsRestart, Pkg.IsRestart, hcmd]

/-- No order is relayed. -/
theorem Agrees.dispatch (h : s.Agrees) (hs : s.Sound) (hfd : pkg.fd = dstfd)
    (hG : (s.dispatch pkg srcfd dstfd).1.Heeds OrderSafe) :
    (s.dispatch pkg srcfd dstfd).1.Agrees := by
  have hp : ¬ pkg.IsOrder :=
    hG (.dispatch pkg srcfd dstfd) s.toGlobals s.calls (s.dispatch_suffix pkg srcfd dstfd)
  have hcalls : ∀ fd, History.orders fd ((.dispatch pkg srcfd dstfd, s.toGlobals) :: s.calls) =
      s.calls.orders fd := orders_dispatch hp srcfd dstfd
  rcases s.dispatch_cases pkg srcfd dstfd with
    ⟨-, heq⟩ | ⟨a, d, ha, hd, hlen, ⟨k, -, heq⟩ | ⟨-, heq⟩ | ⟨ho, heq⟩⟩
  · rw [heq]
    exact h.same ⟨rfl, fun _ => rfl, rfl, hcalls⟩ h.pending
  · rw [heq]
    refine h.touched ⟨rfl, by simp [relaying, pausing], rfl, hcalls⟩ d ?_ ?_
    · simpa [relaying, pausing] using (isOrder_copyFrame _ hlen).not.2 hp
    · intro e hed
      simp [relaying, pausing, modify_channel_of_ne hed]
  · rw [heq]
    refine h.touched ⟨rfl, by simp [relaying], rfl, hcalls⟩ d ?_ ?_
    · simpa [relaying] using (isOrder_copyFrame _ hlen).not.2 hp
    · intro e hed
      simp [relaying, modify_channel_of_ne hed]
  · have hr := hs.relays ha hd hfd hlen
    have hY := hs.effect (.relayFail pkg srcfd dstfd a d hr ho)
    have hA : ((s.relaying pkg srcfd dstfd d).popped dstfd 0 pkg.total).Agrees := by
      refine h.touched ⟨rfl, by simp [relaying], rfl, hcalls⟩ d ?_ ?_
      · simpa [relaying] using (isOrder_copyFrame _ hlen).not.2 hp
      · intro e hed
        simp [relaying, modify_channel_of_ne hed]
    have hused : (((s.relaying pkg srcfd dstfd d).popped dstfd 0 pkg.total).channel d).fd ≠ 0 :=
      hY.used (show _ = some d from hr.dst)
    rw [heq] at hG ⊢
    simp only at hG ⊢
    clear heq
    generalize (s.relaying pkg srcfd dstfd d).popped dstfd 0 pkg.total = u at *
    have heff := checkBreakFd_effect hY (u.channel d).type (u.channel d).fd
    have hA' := hA.checkBreakFd hY (u.channel d).type (u.channel d).fd (hG.of_suffix (by
      rw [← useIterator_calls _ dstfd]
      exact List.suffix_cons _ _))
    have hS := hY.effect heff
    have hfd' := heff.fd_eq d
    generalize u.checkBreakFd (u.channel d).type (u.channel d).fd = v at *
    apply (hA'.useIterator dstfd).freeChannel (hS.effects (useIterator_effects v dstfd)) ?_ hG
    rw [(useIterator_steady v dstfd).fd, hfd']
    exact hused

/-! ## Handlers -/

/-- The response to a registration is no order. -/
theorem not_isOrder_registration (s : Server) (pkg : Pkg) (c : Slot) (ty : ClientType) :
    ¬ (s.registration pkg c ty).IsOrder := by
  rw [Pkg.IsOrder, Pkg.IsStart, Pkg.IsRestart, registration, cmd_setRaspiFds, registerRes]
  simp [PkgCmdType.code]

/-- The answer to the viewer is no order. -/
theorem not_isOrder_chooseRes (q : Pkg) (fd : ℕ) : ¬ (chooseRes q fd).IsOrder := by
  simp [Pkg.IsOrder, Pkg.IsStart, Pkg.IsRestart, chooseRes, PkgCmdType.code]

/-- The packet to the raspi is a START. -/
theorem isStart_startNtf (q : Pkg) (fd : ℕ) : (startNtf q fd).IsStart := cmd_startNtf q fd

/-- It names the viewer. -/
theorem reserve_startNtf (q : Pkg) (h : fd < 4294967296) : (startNtf q fd).reserve = fd :=
  Pkg.reserve_setReserve h

/-- A registration gives no order. -/
theorem Agrees.handleRegisterClientReq (h : s.Agrees) (hs : s.Sound) (pkg : Pkg)
    (hG : (s.handleRegisterClientReq pkg).1.Heeds OrderSafe) :
    (s.handleRegisterClientReq pkg).1.Agrees := by
  have hA : ∀ c ty, ((s.enter (.handleRegisterClientReq pkg)).setType c ty).Agrees := by
    intro c ty
    refine h.same ⟨rfl, by simp, rfl, fun _ => rfl⟩ ?_
    intro d hact
    simpa using h.pending d (by simpa using hact)
  rcases s.handleRegisterClientReq_cases pkg with
    ⟨heq, -⟩ | ⟨c, ty, hc, -, ⟨heq, -⟩ | ⟨-, -, heq⟩⟩
  · rw [heq]
    exact h.same ⟨rfl, fun _ => rfl, rfl, fun _ => rfl⟩ h.pending
  · have hmap : s.channelMap[pkg.fd]? = some c := (hs.lookup_eq _).symm.trans hc
    rw [heq] at hG ⊢
    refine (hA c ty).reply ?_ (not_isOrder_registration s pkg c ty) ?_ hG
    · apply ((hs.enter (.handleRegisterClientReq pkg)).setType c ty).setSendPkg
      · rw [len_registration]
        decide
      · right
        rw [fd_registration]
        simpa using (hs.fd_eq hmap).symm
    · rw [fd_registration]
      exact hmap
  · rw [heq]
    exact (hA c ty).setSendPkg c fun _ => not_isOrder_registration s pkg c ty

/-- A bridge from `f` to `d`, where each has none to another. -/
theorem insertIfNew_leads {b : Std.ExtTreeMap ℕ Slot} {f : ℕ}
    (hb : ∀ e ∈ b.toList, (e.1 = f ↔ e.2 = d)) (fd : ℕ) (e : Slot) :
    (b.insertIfNew f d)[fd]? = some e ↔ if e = d then f = fd else b[fd]? = some e := by
  have hentry : ∀ (fd : ℕ) (e : Slot), b[fd]? = some e → (fd = f ↔ e = d) := by
    intro fd e he
    exact hb (fd, e) (Std.ExtTreeMap.mem_toList_iff_getElem?_eq_some.2 he)
  cases hf : b[f]? with
  | some r =>
    -- it is there already
    obtain rfl := (hentry f r hf).1 rfl
    rw [BridgeLaw.insertIfNew_of_some hf]
    split_ifs with hed
    · subst hed
      constructor
      · intro he
        exact ((hentry fd e he).2 rfl).symm
      · intro hfd
        rwa [← hfd]
    · rfl
  | none =>
    rw [BridgeLaw.getElem?_insertIfNew_of_none hf]
    by_cases hfd : fd = f
    · subst hfd
      simp [hf, eq_comm]
    · rw [if_neg hfd]
      split_ifs with hed
      · subst hed
        constructor
        · intro he
          exact absurd ((hentry fd e he).2 rfl) hfd
        · intro heq
          exact absurd heq.symm hfd
      · rfl

theorem handleChooseServerReq_suffix (s : Server) (pkg : Pkg) :
    (.handleChooseServerReq pkg, s.toGlobals) :: s.calls <:+
      (s.handleChooseServerReq pkg).1.calls := by
  rcases s.handleChooseServerReq_cases pkg with ⟨-, heq⟩ | ⟨c, d, -, -, heq⟩ <;> rw [heq]
  · exact List.suffix_rfl
  · simp only
    rw [useIterator_calls]
    refine List.IsSuffix.trans ?_ (reply_suffix _ d _)
    rw [useIterator_calls]
    exact reply_suffix (s.enter (.handleChooseServerReq pkg)) c _

/-- The raspi is told whose bridge it gets. -/
theorem Agrees.handleChooseServerReq (h : s.Agrees) (hs : s.Sound) (pkg : Pkg)
    (hG : (s.handleChooseServerReq pkg).1.Heeds OrderSafe) :
    (s.handleChooseServerReq pkg).1.Agrees := by
  have hE := hs.enter (.handleChooseServerReq pkg)
  have hA : (s.enter (.handleChooseServerReq pkg)).Agrees :=
    h.same ⟨rfl, fun _ => rfl, rfl, fun _ => rfl⟩ h.pending
  have hfree := hG (.handleChooseServerReq pkg) s.toGlobals s.calls
    (s.handleChooseServerReq_suffix pkg)
  have hfd : pkg.fd < 4294967296 := pkg.fd_lt
  rcases s.handleChooseServerReq_cases pkg with ⟨-, heq⟩ | ⟨c, d, hc, hd, heq⟩
  · rw [heq]
    exact hA
  · have hchosen : d ∈ s.chosen pkg := by
      simp [Globals.chosen, hc, hd]
    have hbridge := hfree d hchosen
    have hrem : (s.enter (.handleChooseServerReq pkg)).channelMap[pkg.fd]? = some c :=
      (hs.lookup_eq _).symm.trans hc
    have hras : (s.enter (.handleChooseServerReq pkg)).channelMap[pkg.chooseFd]? = some d :=
      (hs.lookup_eq _).symm.trans hd
    have hbr : (s.enter (.handleChooseServerReq pkg)).bridgeMap = s.bridgeMap := rfl
    rw [heq] at hG ⊢
    simp only at hG ⊢
    clear heq hfree
    generalize s.enter (.handleChooseServerReq pkg) = u at *
    -- the answer to the viewer is no order
    have hresfd := fd_chooseRes (u.channel c).sendCtx.pkg hfd
    have hX : (u.setSendPkg c (chooseRes (u.channel c).sendCtx.pkg pkg.fd)).Sound :=
      hE.setSendPkg (by rw [len_chooseRes]; decide) (.inr (hresfd.trans (hE.fd_eq hrem).symm))
    have hrep : u.Replies c (chooseRes (u.channel c).sendCtx.pkg pkg.fd) :=
      ⟨by rw [hresfd]; exact hrem, by rw [len_chooseRes]; decide,
        fun hstart => absurd hstart (isStart_chooseRes _ _)⟩
    have heff := (reply_effects hE hrep).trans (useIterator_effects _ pkg.chooseFd)
    have hst := (reply_steady u c (chooseRes (u.channel c).sendCtx.pkg pkg.fd)).trans
      (useIterator_steady _ pkg.chooseFd)
    have hw := hA.reply hX (not_isOrder_chooseRes _ _) (by rw [hresfd]; exact hrem)
    generalize hq : chooseRes (u.channel c).sendCtx.pkg pkg.fd = q at *
    have hGw : (((u.reply c q).useIterator pkg.chooseFd).reply d (startNtf (((u.reply c
        q).useIterator pkg.chooseFd).channel d).sendCtx.pkg pkg.fd)).Heeds OrderSafe :=
      hG.of_suffix (useIterator_calls _ pkg.chooseFd ▸ List.suffix_rfl)
    have hwA := (hw (hGw.of_suffix (useIterator_calls (u.reply c q) pkg.chooseFd ▸
      reply_suffix _ d _))).useIterator pkg.chooseFd
    have hwS := hE.effects heff
    have hwfd : (((u.reply c q).useIterator pkg.chooseFd).channel d).fd = pkg.chooseFd :=
      (hst.fd d).trans (hE.fd_eq hras)
    have hwb := hst.bridge.trans hbr
    have hwmap := fun e (he : ((u.reply c q).useIterator pkg.chooseFd).channelMap[pkg.chooseFd]? =
      some e) => Option.some.inj (hras.symm.trans (Effects.map_sub heff he))
    generalize (u.reply c q).useIterator pkg.chooseFd = w at *
    -- the START is: it finds the raspi, whose send buffer leads to it or to nobody
    have hY : (w.setSendPkg d (startNtf (w.channel d).sendCtx.pkg pkg.fd)).Sound := by
      apply hwS.setSendPkg (by rw [len_startNtf]; decide)
      rw [fd_startNtf, len_startNtf]
      exact (hwS.slot d).pkgFd.imp_left fun h => ⟨h.1, le_rfl⟩
    obtain ⟨e, ho⟩ := response_order hY (.inl (isStart_startNtf _ _)) hGw
    have hown : (startNtf (w.channel d).sendCtx.pkg pkg.fd).fd = pkg.chooseFd := by
      have hne := hY.fd_ne_zero ho.found
      rw [fd_startNtf] at hne ⊢
      rcases (hwS.slot d).pkgFd with ⟨h0, -⟩ | hown
      · exact absurd h0 hne
      · exact hown.trans hwfd
    have hfound := ho.found
    rw [hown] at hfound
    obtain rfl : d = e := hwmap e hfound
    have hidle : (w.channel d).sendCtx.io.active = false := by
      simpa using ho.idle
    have hwY : (w.setSendPkg d (startNtf (w.channel d).sendCtx.pkg pkg.fd)).Agrees := by
      apply hwA.setSendPkg d
      intro hact
      cases hidle.symm.trans hact
    have hmap : (w.reply d (startNtf (w.channel d).sendCtx.pkg pkg.fd)).channelMap[pkg.chooseFd]? =
        some d := by
      rw [show (w.reply d _).channelMap = _ from ho.map]
      exact hfound
    have hb : (w.reply d (startNtf (w.channel d).sendCtx.pkg pkg.fd)).bridgeMap = s.bridgeMap :=
      ho.bridge.trans hwb
    rw [useIterator_of_some hmap, hb]
    apply hwY.ordered hY ho (len_startNtf _ _)
    · rw [reserve_startNtf _ hfd]
      exact fun _ => hE.fd_ne_zero hrem
    · intro fd
      rw [insertIfNew_leads hbridge, if_pos rfl, reserve_startNtf _ hfd]
      simp [isStart_startNtf]
    · intro x hx fd
      show _ ↔ w.bridgeMap[fd]? = some x
      rw [insertIfNew_leads hbridge, if_neg hx, hwb]

/-- Of the requests only a choose request gives an order. -/
theorem Agrees.handle (h : s.Agrees) (hs : s.Sound) (pkg : Pkg)
    (hG : (s.handle pkg).1.Heeds OrderSafe) : (s.handle pkg).1.Agrees := by
  have hA : (s.enter (.handle pkg)).Agrees :=
    h.same ⟨rfl, fun _ => rfl, rfl, fun _ => rfl⟩ h.pending
  have hE := hs.enter (.handle pkg)
  rcases s.handle_cases pkg with heq | heq | heq <;> rw [heq] at hG ⊢
  · exact hA.handleRegisterClientReq hE pkg hG
  · exact hA.handleChooseServerReq hE pkg hG
  · exact hA

/-! ## Callbacks -/

theorem Agrees.setRecvPkg (h : s.Agrees) (c : Slot) (p : Pkg) : (s.setRecvPkg c p).Agrees := by
  refine h.same ⟨rfl, by simp, rfl, fun _ => rfl⟩ ?_
  intro d hact
  simpa using h.pending d (by simpa using hact)

theorem Agrees.setRecvLen (h : s.Agrees) (c : Slot) (n : ℕ) : (s.setRecvLen c n).Agrees := by
  refine h.same ⟨rfl, by simp, rfl, fun _ => rfl⟩ ?_
  intro d hact
  simpa using h.pending d (by simpa using hact)

/-- Bytes that arrive are not in a send buffer. -/
theorem Agrees.store (h : s.Agrees) (c : Slot) (bs : List UInt8) : (s.store c bs).Agrees := by
  obtain ⟨hmap, -, -, -⟩ := store_globals s c bs
  refine h.same ⟨hmap, fun d => store_fd s c d bs, (store_steady s c bs).bridge, ?_⟩ ?_
  · rw [store_calls]
    exact fun _ => rfl
  · intro d hact
    rw [store_sendCtx] at hact ⊢
    exact h.pending d hact

/-- A whole packet is handled or relayed. -/
theorem Agrees.route (h : s.Agrees) (hs : s.Sound) (c : Slot) (hG : (s.route c).Heeds OrderSafe) :
    (s.route c).Agrees := by
  by_cases h0 : (s.channel c).recvCtx.pkg.fd = 0
  · rw [route_of_request h0] at hG ⊢
    refine Agrees.handle ?_ ((hs.setRecvPkg c _).enter _) _ hG
    have hA := h.setRecvPkg c ((s.channel c).recvCtx.pkg.setFd (s.channel c).recvCtx.io.fd)
    exact hA.same ⟨rfl, fun _ => rfl, rfl, fun _ => rfl⟩ hA.pending
  · rw [route_of_relay h0] at hG ⊢
    refine Agrees.dispatch ?_ (hs.enter _) rfl hG
    exact h.same ⟨rfl, fun _ => rfl, rfl, fun _ => rfl⟩ h.pending

/-- `server_recv_cb` stores, frees or routes. -/
theorem Agrees.serverRecvCb (h : s.Agrees) (hs : s.Sound)
    (hact : (s.channel c).recvCtx.io.active = true) {r : RecvResult}
    (hG : (s.serverRecvCb c r).Heeds OrderSafe) : (s.serverRecvCb c r).Agrees := by
  have hE := hs.enter (.serverRecvCb c)
  have hA : (s.enter (.serverRecvCb c)).Agrees :=
    h.same ⟨rfl, fun _ => rfl, rfl, fun _ => rfl⟩ h.pending
  have hu : ((s.enter (.serverRecvCb c)).channel c).fd ≠ 0 := (hs.slot c).recvUsed hact
  have hfree : (s.enter (.serverRecvCb c)).Freeable c := ⟨hu, .inr (.inr (.inl hact))⟩
  have hcases := serverRecvCb_cases hs hact r
  generalize s.enter (.serverRecvCb c) = u at *
  rcases hcases with ⟨-, heq⟩ | ⟨-, heq⟩ | ⟨-, heq⟩ | ⟨bs, -, hdata⟩
  · rw [heq] at hG ⊢
    have hX := hE.enter (.closed c)
    have hAX : (u.enter (.closed c)).Agrees :=
      hA.same ⟨rfl, fun _ => rfl, rfl, fun _ => rfl⟩ hA.pending
    apply (hAX.freed ?_).checkBreakFd (hX.freed hu) _ _ hG
    exact hG _ _ _ (closing_suffix hE hfree)
  · rw [heq]
    exact hA
  · rw [heq] at hG ⊢
    exact hA.freeChannel hE hu hG
  · have hS := hE.updates (store_updates u c bs)
    rcases hdata with heq | heq | heq <;> rw [heq] at hG ⊢
    · exact hA.store c bs
    · refine (hA.store c bs).freeChannel hS ?_ hG
      rw [store_fd]
      exact hu
    · exact (((hA.store c bs).route hS c hG).setRecvLen c 0).setRecvPkg c _

/-- What `server_send_cb` completes is no order. -/
theorem Agrees.serverSendCb (h : s.Agrees) (hs : s.Sound)
    (hact : (s.channel c).sendCtx.io.active = true) (hG : (s.serverSendCb c).Heeds OrderSafe) :
    (s.serverSendCb c).Agrees := by
  have hp := h.pending c hact
  have hcalls : ∀ fd, History.orders fd ((.serverSendCb c, s.toGlobals) :: s.calls) =
      s.calls.orders fd := orders_sendCb hp
  rcases s.serverSendCb_cases c with
    ⟨k, -, heq⟩ | ⟨k, -, -, ⟨-, heq⟩ | ⟨a, -, heq⟩⟩ | ⟨-, heq⟩
  · rw [heq]
    refine h.touched ⟨rfl, by simp [sending], rfl, hcalls⟩ c ?_ ?_
    · simpa [sending] using hp
    · intro d hd
      simp [sending, modify_channel_of_ne hd]
  · rw [heq]
    refine h.touched ⟨rfl, by simp [finishing, sending], rfl, hcalls⟩ c ?_ ?_
    · simpa [finishing, sending] using hp
    · intro d hd
      simp [finishing, sending, modify_channel_of_ne hd]
  · rw [heq]
    refine h.touched ⟨rfl, by simp [finishing, sending], rfl, hcalls⟩ c ?_ ?_
    · simpa [finishing, sending] using hp
    · intro d hd
      simp [finishing, sending, modify_channel_of_ne hd]
  · have hY : ((s.enter (.serverSendCb c)).popped (s.channel c).fd (s.channel c).sendCtx.len
        (s.sendCount c)).Sound := (hs.enter _).popped ..
    have hA : ((s.enter (.serverSendCb c)).popped (s.channel c).fd (s.channel c).sendCtx.len
        (s.sendCount c)).Agrees := h.same ⟨rfl, fun _ => rfl, rfl, hcalls⟩ h.pending
    have hu : (((s.enter (.serverSendCb c)).popped (s.channel c).fd (s.channel c).sendCtx.len
        (s.sendCount c)).channel c).fd ≠ 0 := (hs.slot c).sendUsed hact
    rw [heq] at hG ⊢
    simp only at hG ⊢
    clear heq
    generalize (s.enter (.serverSendCb c)).popped (s.channel c).fd (s.channel c).sendCtx.len
      (s.sendCount c) = u at *
    have heff := checkBreakFd_effect hY (u.channel c).type (u.channel c).fd
    apply (hA.checkBreakFd hY _ _ (hG.of_suffix (List.suffix_cons _ _))).freeChannel
      (hY.effect heff) ?_ hG
    rw [heff.fd_eq]
    exact hu

/-- A new connection has neither orders nor a bridge. -/
theorem Agrees.accepting (h : s.Agrees) (hs : s.Sound) (hkey : s.channelMap[fd]? = none)
    (hc : s.freeSlot = some c) : (s.accepting fd c).Agrees := by
  have hcalls : ∀ fd', (s.accepting fd c).calls.orders fd' =
      if fd = fd' then [] else s.calls.orders fd' := orders_acceptCb fd
  have hown : ((s.accepting fd c).channel c).fd = fd := by
    rw [accepting_channel, if_pos rfl]
    rfl
  have hother : ∀ d, d ≠ c → ((s.accepting fd c).channel d).fd = (s.channel d).fd := by
    intro d hdc
    rw [accepting_channel, if_neg hdc]
  -- the slot was free
  have hdead : ¬ s.Live c := by
    intro hlive
    cases (freeSlot_some hc).symm.trans (hs.map _ c hlive).2.2.1
  constructor
  · intro fd' d hb
    exact (accepting_live hkey).2 (.inr (h.live fd' d hb))
  · intro d hd fd'
    show s.bridgeMap[fd']? = some d ↔ _
    by_cases hdc : d = c
    · subst hdc
      rw [hown, hcalls, if_pos rfl]
      simp only [List.getLast?_nil, reduceCtorEq, false_and, exists_false, iff_false]
      intro hb
      exact hdead (h.live fd' d hb)
    · have hlive := ((accepting_live hkey).1 hd).resolve_left hdc
      rw [hother d hdc, hcalls, if_neg (fd_ne_of_none hlive hkey).symm]
      exact h.started d hlive fd'
  · intro d hd
    by_cases hdc : d = c
    · subst hdc
      rw [hown, hcalls, if_pos rfl]
      simp
    · have hlive := ((accepting_live hkey).1 hd).resolve_left hdc
      rw [hother d hdc, hcalls, if_neg (fd_ne_of_none hlive hkey).symm]
      exact h.fits d hlive
  · intro d hact
    rw [accepting_channel] at hact ⊢
    split at hact
    · cases hact
    · rename_i hdc
      rw [if_neg hdc]
      exact h.pending d hact

theorem Agrees.refusing (h : s.Agrees) (hkey : s.channelMap[fd]? = none) :
    (s.refusing fd).Agrees := by
  have hcalls : ∀ d, s.Live d → (s.refusing fd).calls.orders (s.channel d).fd =
      s.calls.orders (s.channel d).fd := by
    intro d hd
    have horders : (s.refusing fd).calls.orders (s.channel d).fd =
        if fd = (s.channel d).fd then [] else s.calls.orders (s.channel d).fd :=
      orders_acceptCb fd _
    rw [horders, if_neg (fd_ne_of_none hd hkey).symm]
  constructor
  · exact h.live
  · intro d hd
    show ∀ fd' : ℕ, s.bridgeMap[fd']? = some d ↔
      ∃ p, ((s.refusing fd).calls.orders (s.channel d).fd).getLast? = some p ∧ _
    rw [hcalls d hd]
    exact h.started d hd
  · intro d hd
    show ∀ p ∈ (s.refusing fd).calls.orders (s.channel d).fd, _
    rw [hcalls d hd]
    exact h.fits d hd
  · exact h.pending

/-- One step, by the callback that it is. -/
theorem Agrees.step (h : s.Agrees) (hs : s.Sound) {e : Event} (hst : s.step e = some t)
    (hG : t.Heeds OrderSafe) : t.Agrees := by
  obtain ⟨-, hen, rfl⟩ := step_eq_some.1 hst
  have hres : ∀ q, ({ s with results := q } : Server).Agrees := fun q =>
    h.same ⟨rfl, fun _ => rfl, rfl, fun _ => rfl⟩ h.pending
  cases e with
  | accept fd =>
    have hkey := hs.key_none hen.2.2
    rcases acceptCb_cases s fd with ⟨c, hc, heq⟩ | ⟨-, heq⟩
    · rw [exec, heq]
      exact h.accepting hs hkey hc
    · rw [exec, heq]
      exact h.refusing hkey
  | acceptError => exact h
  | recv c r q =>
    exact (hres q).serverRecvCb (s := { s with results := q }) (hs.congr rfl rfl rfl) hen.1 hG
  | send c q =>
    exact (hres q).serverSendCb (s := { s with results := q }) (hs.congr rfl rfl rfl) hen hG

/-- At the start nobody is connected. -/
theorem Agrees.boot : boot.Agrees := by
  constructor
  · intro fd d hb
    simp [Server.boot] at hb
  · intro d hd
    simp [Globals.Live, Server.boot] at hd
  · intro d hd
    simp [Globals.Live, Server.boot] at hd
  · intro d hact
    cases hact

/-- In the runs whose calls meet `OrderSafe` orders and bridges agree. -/
theorem Reachable.agrees (hr : Reachable s) (hG : s.Heeds OrderSafe) : s.Agrees := by
  refine Runs.Reaches.induction Server.step (P := fun s => s.Heeds OrderSafe → s.Agrees)
    (fun _ => .boot) ?_ hr hG
  intro t e u ht ih hst hG
  have hS : t.Sound := Reachable.sound ht
  exact (ih (hG.of_suffix (step_calls_suffix hS hst))).step hS hst hG

/-! ## The raspi -/

/-- The raspi `t` in the channel `d` is started for `fd` if `bridge_map` leads from `fd` to it, and
only then. -/
def ServedBy (s : Server) (d : Slot) (t : Raspi.Process) : Prop :=
  ∀ fd : ℕ, s.bridgeMap[fd]? = some d ↔ fd ≠ 0 ∧ t.status = .start ∧ t.target = fd

/-- The orders in an inbox are those that were sent. -/
theorem orders_inbox {l : History} (h : ∀ m ∈ l.outbox fd, m.1.len ≤ bufSize) :
    (l.inbox fd).filter (fun p => p.IsOrder) = (l.orders fd).map fun p => filled p.frame := by
  rw [History.inbox, History.orders]
  generalize l.outbox fd = ms at *
  induction ms with
  | nil => rfl
  | cons m ms ih =>
    have hm := isOrder_copyFrame construct (h m List.mem_cons_self)
    have ih := ih fun m' hm' => h m' (List.mem_cons_of_mem _ hm')
    have hm : (filled m.1.frame).IsOrder ↔ m.1.IsOrder := hm
    by_cases horder : m.1.IsOrder
    · simp [horder, hm, ih]
    · simp [horder, hm, ih]

/-- A `recv_pkg` returns the order that was sent. -/
theorem reserve_filled (h : p.len = sizeofInt) : (filled p.frame).reserve = p.reserve := by
  have htotal : p.total = sizeofInt + sizeofHead := by rw [← total_eq, h]
  apply word_copyFrame construct p
  · rw [h]
    decide
  · rw [htotal]
    decide

/-- The messages decide, and they agree with the bridges. -/
theorem Agrees.servedBy (h : s.Agrees) (hd : s.Live d) {t : Process}
    (hfits : ∀ m ∈ s.calls.outbox (s.channel d).fd, m.1.len ≤ bufSize)
    (hhead : ∀ p, (s.calls.inbox (s.channel d).fd).head? = some p → ¬ p.IsOrder)
    (ht : t.Obeys (s.calls.inbox (s.channel d).fd).tail) : s.ServedBy d t := by
  have hstart : ∀ m ∈ s.calls.outbox (s.channel d).fd,
      ((filled m.1.frame).IsStart ↔ m.1.IsStart) := by
    intro m hm
    exact isStart_copyFrame construct (hfits m hm)
  have horders : ((s.calls.inbox (s.channel d).fd).tail.filter fun p => p.IsOrder) =
      (s.calls.orders (s.channel d).fd).map fun p => filled p.frame := by
    rw [← orders_inbox hfits]
    cases hin : s.calls.inbox (s.channel d).fd with
    | nil => rfl
    | cons p ps =>
      have hp := hhead p (by rw [hin]; rfl)
      simp [hp]
  have hmem : ∀ p ∈ s.calls.orders (s.channel d).fd,
      ∃ m ∈ s.calls.outbox (s.channel d).fd, m.1 = p := by
    intro p hp
    exact List.mem_map.1 (List.mem_filter.1 hp).1
  intro fd
  rw [ht.status, ht.target, ← Raspi.started_iff ?_ fd, h.started d hd fd, horders,
    List.getLast?_map]
  · constructor
    · intro hlast
      obtain ⟨p, hp, hstartp, hfd⟩ := hlast
      obtain ⟨m, hm, rfl⟩ := hmem p (List.mem_of_getLast? hp)
      have hlen := (h.fits d hd m.1 (List.mem_of_getLast? hp)).1
      exact ⟨filled m.1.frame, by rw [hp]; rfl, (hstart m hm).2 hstartp,
        (reserve_filled hlen).trans hfd⟩
    · intro hlast
      obtain ⟨q, hq, hstartq, hfd⟩ := hlast
      obtain ⟨p, hp, rfl⟩ := Option.map_eq_some_iff.1 hq
      obtain ⟨m, hm, rfl⟩ := hmem p (List.mem_of_getLast? hp)
      have hlen := (h.fits d hd m.1 (List.mem_of_getLast? hp)).1
      exact ⟨m.1, hp, (hstart m hm).1 hstartq, (reserve_filled hlen).symm.trans hfd⟩
  · intro p hp hstartp
    obtain ⟨m, hm, rfl⟩ := List.mem_map.1 (List.mem_of_mem_tail hp)
    have horder : m.1 ∈ s.calls.orders (s.channel d).fd := by
      apply List.mem_filter.2
      exact ⟨List.mem_map_of_mem hm, decide_eq_true (.inl ((hstart m hm).1 hstartp))⟩
    obtain ⟨hlen, hres⟩ := h.fits d hd m.1 horder
    rw [reserve_filled hlen]
    exact hres ((hstart m hm).1 hstartp)

variable {κ : Kernel} {fuel : ℕ} {k : Socket}

/-- While the output of the server is framed and its orders get through, a raspi that has read all
that it was sent is started for the viewer that has the bridge to it, and stopped if nobody has,
however its threads are scheduled. Or `main` has returned at one of the messages. -/
theorem raspi_serves_bridge (hκ : κ.Progresses) (hzero : ∀ i, κ.recv i 0 ≤ 0)
    (hfuel : sizeofPkg < fuel) (hr : Reachable s) (hF : s.Heeds FrameSafe)
    (hO : s.Heeds OrderSafe) (hd : s.Live d) (hin : k.input = s.sent (s.channel d).fd)
    (ok : ℕ → Bool) (pkg : Pkg) :
    ∃ m₀ n m, start κ fuel pkg k = some (.inl m₀) ∧
      Loop.rounds (mainRound κ fuel ok) n m₀ = some m ∧
      (mainRound κ fuel ok m = none ∧ n = (s.calls.inbox (s.channel d).fd).length ∧
          s.ServedBy d m.process ∧
          (∀ es t, Runs.run Process.step .boot es = some t →
            Process.receivedPkgs es = (s.calls.inbox (s.channel d).fd).tail → s.ServedBy d t) ∨
        ∃ p r, (s.calls.inbox (s.channel d).fd)[n]? = some p ∧
          mainRound κ fuel ok m = some (.inr r) ∧
          Raspi.Refused ((s.calls.inbox (s.channel d).fd).take n) p ∧ r.2 = -1) := by
  have hfits := ((allMailed_keeps.reachable hr hF).mailed d hd).fits
  obtain ⟨m₀, n, m, hm₀, hrounds, -, hm, hend⟩ :=
    main_follows hκ hzero hfuel hr hF hd (by rw [hin]) ok pkg
  refine ⟨m₀, n, m, hm₀, hrounds, ?_⟩
  rcases hend with ⟨hnone, hall⟩ | hret
  · left
    have hn := hall hin
    subst hn
    rw [List.take_length] at hm
    have hserved : ∀ es t, Runs.run Process.step .boot es = some t →
        Process.receivedPkgs es = (s.calls.inbox (s.channel d).fd).tail → s.ServedBy d t := by
      intro es t hrun hpkgs
      apply (hr.agrees hO).servedBy hd hfits ?_ (hpkgs ▸ Process.run_control hrun)
      intro p hp horder
      have hcmd := hm.answer p hp
      rcases horder with hstart | hrestart
      · cases hcmd.symm.trans hstart
      · cases hcmd.symm.trans hrestart
    obtain ⟨es, hes, hpkgs⟩ := hm.run
    exact ⟨hnone, rfl, hserved es _ hes hpkgs, hserved⟩
  · exact .inr hret

/-- After the first viewer another one comes, and chooses the same raspi. -/
def revisited : List Event :=
  visited ++ [.accept 7] ++ Event.register 1 .remote Event.takesAll ++
    Event.choose 1 5 Event.takesAll

/-- The raspi is started, for the second viewer. -/
theorem raspi_serves_bridge_revisited : ∃ m₀ m,
    start (.atMost 5) 1500 construct ⟨(after revisited).sent 5, [], 0, []⟩ = some (.inl m₀) ∧
    Loop.rounds (mainRound (.atMost 5) 1500 fun _ => true) 4 m₀ = some m ∧
    mainRound (.atMost 5) 1500 (fun _ => true) m = none ∧ m.process.status = .start ∧
    m.process.target = 7 := by
  have hfd : ((after revisited).channel 0).fd = 5 := by decide +kernel
  obtain ⟨m₀, n, m, hm₀, hrounds, hend⟩ :=
    raspi_serves_bridge (s := after revisited) (d := 0)
      (k := ⟨(after revisited).sent 5, [], 0, []⟩)
      (Kernel.atMost_progresses (m := 5) (by decide)) (fun i => Reader.atMost_recv_le 5 i 0)
      (show sizeofPkg < 1500 by decide) (reachable_after _ (by decide +kernel)) (by decide +kernel)
      (by decide +kernel) (by decide +kernel) (by rw [hfd]) (fun _ => true) construct
  rw [hfd] at hend
  have hlen : ((after revisited).calls.inbox 5).length = 4 := by decide +kernel
  have hrefused : ∀ n < 4, ∀ p ∈ ((after revisited).calls.inbox 5)[n]?,
      ¬ Raspi.Refused (((after revisited).calls.inbox 5).take n) p := by decide +kernel
  rcases hend with ⟨hnone, hn, hserved, -⟩ | ⟨p, r, hp, -, href, -⟩
  · have hn4 := hn.trans hlen
    subst hn4
    obtain ⟨-, hstatus, htarget⟩ := (hserved 7).1 (by decide +kernel)
    exact ⟨m₀, m, hm₀, hrounds, hnone, hstatus, htarget⟩
  · obtain ⟨hlt, -⟩ := List.getElem?_eq_some_iff.1 hp
    exact absurd href (hrefused n (hlen ▸ hlt) p hp)

end Server
end WawaServer
