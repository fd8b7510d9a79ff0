import WawaServer.Delivery

/-!
# START notifications

A START carries the descriptor of the viewer that asked for the stream, and a raspi addresses its
frames to that descriptor. Here is what holds on the server's side of it: the START in a send
buffer carries the descriptor of the connection whose choose request it was built for, and while it
waits to be sent that connection is still there (`Started`); and what is sent to a client as a
START is such a START (`Sends`).

A RESTART that is cut short sends the packet in the raspi's buffer again, so the second part needs
that this packet is no START for a connection that is gone.
-/

namespace WawaServer

/-- When `check_break_fd`'s RESTART is cut short, the START that goes out in its place, if any, is
not for a connection that is gone. -/
def RestartSafe : Call → Globals → History → Prop
  | .checkBreakFd type fd, g, l => type = .remote → ∀ r ∈ g.bridgeMap[fd]?,
      ∀ c ∈ g.channelMap[(g.channel r).fd]?, g.restartOutcome r ≠ .error →
        g.restartOutcome r ≠ .sent (sizeofInt + sizeofHead) →
          (g.channel c).sendCtx.pkg.IsStart → l.Current (l.startOf c)
  | _, _, _ => True

instance (k : Call) (g : Globals) (l : History) : Decidable (RestartSafe k g l) := by
  refine k.casesOn ?_ ?_ ?_ ?_ ?_ ?_ ?_ ?_ ?_ ?_ ?_ ?_ <;> intros <;>
    dsimp only [RestartSafe] <;> infer_instance

/-- No client sends a START. -/
def Unforged : Call → Globals → History → Prop
  | .dispatch pkg _ _, _, _ => ¬ pkg.IsStart
  | _, _, _ => True

/-- A message that is no START, or a START for the connection that asked for it. -/
def History.Fair (l : History) (n : Pkg × Conn) : Prop :=
  n.1.IsStart → n.1.reserve = n.2.1 ∧ l.Current n.2

namespace Server

variable {s t u : Server} {c d : Slot} {p pkg : Pkg}

/-- The START in a send buffer carries the descriptor of the connection that asked for it, and
one that waits to be sent is for a connection that is not gone. -/
structure Started (s : Server) : Prop where
  reserve : ∀ c, (s.channel c).sendCtx.pkg.IsStart →
    (s.channel c).sendCtx.pkg.reserve = (s.calls.startOf c).1
  current : ∀ c, (s.channel c).sendCtx.io.active = true → (s.channel c).sendCtx.pkg.IsStart →
    s.calls.Current (s.calls.startOf c)

/-- From `s` to `t` nothing was accepted, and the clients were sent fair messages. -/
structure Sends (s t : Server) : Prop where
  gen : ∀ fd, t.calls.gen fd = s.calls.gen fd
  outbox : ∀ fd, ∃ l, t.calls.outbox fd = s.calls.outbox fd ++ l ∧ ∀ n ∈ l, s.calls.Fair n

/-! ## Histories of the same connections -/

theorem current_congr {l l' : History} (h : ∀ fd, l'.gen fd = l.gen fd) (κ : Conn) :
    l'.Current κ ↔ l.Current κ := by
  rw [History.Current, History.Current, History.conn, History.conn, h]

theorem fair_congr {l l' : History} (h : ∀ fd, l'.gen fd = l.gen fd) (n : Pkg × Conn) :
    l'.Fair n ↔ l.Fair n := by
  rw [History.Fair, History.Fair, current_congr h]

theorem fair_of_not_start {l : History} (h : ¬ p.IsStart) (κ : Conn) : l.Fair (p, κ) :=
  fun hp => absurd hp h

theorem Sends.refl (s : Server) : Sends s s :=
  ⟨fun _ => rfl, fun _ => ⟨[], by simp, by simp⟩⟩

theorem Sends.trans (h : Sends s t) (h' : Sends t u) : Sends s u := by
  refine ⟨fun fd => (h'.gen fd).trans (h.gen fd), fun fd => ?_⟩
  obtain ⟨l, hl, hfair⟩ := h.outbox fd
  obtain ⟨l', hl', hfair'⟩ := h'.outbox fd
  refine ⟨l ++ l', by rw [hl', hl, List.append_assoc], fun n hn => ?_⟩
  rcases List.mem_append.1 hn with hn | hn
  · exact hfair n hn
  · exact (fair_congr h.gen n).1 (hfair' n hn)

/-- Nothing was sent. -/
theorem Sends.of_eq (hgen : ∀ fd, t.calls.gen fd = s.calls.gen fd)
    (hbox : ∀ fd, t.calls.outbox fd = s.calls.outbox fd) : Sends s t :=
  ⟨hgen, fun fd => ⟨[], by rw [hbox, List.append_nil], by simp⟩⟩

/-- One message was sent, at most. -/
theorem Sends.of_message (hgen : ∀ fd, t.calls.gen fd = s.calls.gen fd) {n : Pkg × Conn}
    (hn : s.calls.Fair n) {P : ℕ → Prop} [DecidablePred P]
    (hbox : ∀ fd, t.calls.outbox fd = s.calls.outbox fd ++ if P fd then [n] else []) :
    Sends s t := by
  refine ⟨hgen, fun fd => ⟨_, hbox fd, fun m hm => ?_⟩⟩
  split at hm
  · rwa [List.mem_singleton.1 hm]
  · cases hm

/-- `Started` reads the packets and watchers of the send contexts, and what the history says of
them. -/
theorem Started.congr (h : s.Started) (hgen : ∀ fd, t.calls.gen fd = s.calls.gen fd)
    (hd : ∀ d, (t.channel d).sendCtx.pkg.IsStart →
      ((t.channel d).sendCtx.pkg = (s.channel d).sendCtx.pkg ∧
        t.calls.startOf d = s.calls.startOf d ∧
        ((t.channel d).sendCtx.io.active = true → (s.channel d).sendCtx.io.active = true ∨
          s.calls.Current (s.calls.startOf d))) ∨
      (t.channel d).sendCtx.pkg.reserve = (t.calls.startOf d).1 ∧
        s.calls.Current (t.calls.startOf d)) : t.Started := by
  constructor
  · intro d hp
    rcases hd d hp with ⟨hpkg, hst, -⟩ | ⟨hr, -⟩
    · rw [hpkg, hst]
      exact h.reserve d (hpkg ▸ hp)
    · exact hr
  · intro d hact hp
    rw [current_congr hgen]
    rcases hd d hp with ⟨hpkg, hst, hact'⟩ | ⟨-, hcur⟩
    · rw [hst]
      exact (hact' hact).elim (fun ha => h.current d ha (hpkg ▸ hp)) id
    · exact hcur

/-- No send context was touched. -/
theorem Started.same (h : s.Started) (hgen : ∀ fd, t.calls.gen fd = s.calls.gen fd)
    (hpkg : ∀ d, (t.channel d).sendCtx.pkg = (s.channel d).sendCtx.pkg)
    (hact : ∀ d, (t.channel d).sendCtx.io.active = true → (s.channel d).sendCtx.io.active = true)
    (hst : ∀ d, t.calls.startOf d = s.calls.startOf d) : t.Started :=
  h.congr hgen fun d _ => .inl ⟨hpkg d, hst d, fun ha => .inl (hact d ha)⟩

/-! ## Effects -/

theorem not_isStart_restartPkg (fd : ℕ) : ¬ (restartPkg fd).IsStart := by
  simp [restartPkg, Pkg.IsStart, PkgCmdType.code]

/-- Another packet's `response` does not touch what is known of the START for `d`. -/
theorem startOf_response {g : Globals} (h : p.IsStart → s.calls.target ≠ some d) :
    History.startOf d ((.response p, g) :: s.calls) = s.calls.startOf d := by
  simp only [History.startOf, ite_eq_right_iff, and_imp]
  exact fun hp ht => absurd ht (h hp)

theorem Starts.startOf (h : s.Starts c p) (hp : p.IsStart) (g : Globals) :
    History.startOf c ((.response p, g) :: s.calls) = s.calls.asker := by
  simp only [History.startOf, hp, h.target, and_self, ↓reduceIte]

theorem Starts.fair (h : p.IsStart → s.Starts c p) : s.calls.Fair (p, s.calls.asker) :=
  fun hp => ⟨(h hp).reserve, (h hp).current⟩

/-- What an effect sends is fair. -/
theorem Effect.sends (h : s.Started) (he : Effect s t) (hN : t.Heeds Unforged) : Sends s t := by
  have hgen := he.gen_eq
  -- a packet that waits to be sent
  have hbuf : ∀ c, (s.channel c).sendCtx.io.active = true →
      s.calls.Fair ((s.channel c).sendCtx.pkg, s.calls.startOf c) :=
    fun c hact hp => ⟨h.reserve c hp, h.current c hact hp⟩
  cases he with
  | log k hk =>
    refine .of_eq hgen fun fd => ?_
    cases k with
    | dispatch pkg srcfd dstfd =>
      have hw : ¬ s.Writes pkg srcfd dstfd := by
        rintro ⟨hsrc, hdst, hlen⟩
        rcases hk with hk | hk | hk
        · exact hsrc hk
        · exact hdst hk
        · omega
      simp [History.outbox, hw]
    | _ => first | rfl | cases hk
  | replyCut c p k hr => exact .of_message hgen (Starts.fair hr.start) fun _ => rfl
  | replyDone c p hr => exact .of_message hgen (Starts.fair hr.start) fun _ => rfl
  | replyFail c p hr => exact .of_message hgen (Starts.fair hr.start) fun _ => rfl
  | startLost d p _ _ _ hst => exact .of_message hgen (Starts.fair fun _ => hst) fun _ => rfl
  | breakLost fd r =>
    exact .of_message hgen (fair_of_not_start (not_isStart_restartPkg _) _) fun _ => rfl
  | breakCut fd r c p k hn hp =>
    subst hp
    exact .of_message hgen (fair_of_not_start (not_isStart_restartPkg _) _) fun _ => rfl
  | breakDone fd r c p hn hp =>
    subst hp
    exact .of_message hgen (fair_of_not_start (not_isStart_restartPkg _) _) fun _ => rfl
  | breakFail fd r c p hn hp =>
    subst hp
    exact .of_message hgen (fair_of_not_start (not_isStart_restartPkg _) _) fun _ => rfl
  | relayCut pkg srcfd dstfd =>
    have hp := hN (.dispatch pkg srcfd dstfd) s.toGlobals s.calls (by simp [relaying, pausing])
    exact .of_message hgen (fair_of_not_start hp _) fun _ => rfl
  | relayDone pkg srcfd dstfd =>
    have hp := hN (.dispatch pkg srcfd dstfd) s.toGlobals s.calls (by simp [relaying])
    exact .of_message hgen (fair_of_not_start hp _) fun _ => rfl
  | relayFail pkg srcfd dstfd =>
    have hp := hN (.dispatch pkg srcfd dstfd) s.toGlobals s.calls (by simp [relaying])
    exact .of_message hgen (fair_of_not_start hp _) fun _ => rfl
  | sendMore c k hact => exact .of_message hgen (hbuf c hact) fun _ => rfl
  | sendOver c k a hact => exact .of_message hgen (hbuf c hact) fun _ => rfl
  | sendNull c k hact => exact .of_message hgen (hbuf c hact) fun _ => rfl
  | sendFail c hact => exact .of_message hgen (hbuf c hact) fun _ => rfl
  | _ => exact .of_eq hgen fun _ => rfl

/-- `response` with the packet `p` built in the buffer of `c`. -/
theorem Started.reply (h : s.Started) {g : Globals} (hcalls : t.calls = (.response p, g) :: s.calls)
    (hst : p.IsStart → s.Starts c p) (hpkg : (t.channel c).sendCtx.pkg = p)
    (hd : ∀ d, d ≠ c → (t.channel d).sendCtx = (s.channel d).sendCtx) : t.Started := by
  apply h.congr (fun fd => by rw [hcalls]; rfl)
  intro d hp
  by_cases hdc : d = c
  · subst d
    rw [hpkg] at hp ⊢
    rw [hcalls, (hst hp).startOf hp]
    exact .inr ⟨(hst hp).reserve, (hst hp).current⟩
  · rw [hd d hdc, hcalls]
    have hother : p.IsStart → s.calls.target ≠ some d := by
      intro hps htd
      rw [(hst hps).target] at htd
      exact hdc (Option.some.inj htd).symm
    exact .inl ⟨rfl, startOf_response hother, .inl⟩

/-- `check_break_fd`'s `response`, on which no START is built. -/
theorem startOf_restart (fd fd' : ℕ) (g g' : Globals) (d : Slot) (l : History) :
    History.startOf d ((.response (restartPkg fd), g) :: (.checkBreakFd .remote fd', g') :: l) =
      l.startOf d := by
  simp [History.startOf, not_isStart_restartPkg]

/-- The buffer of `c` has a new packet that is no START. -/
theorem Started.replace (h : s.Started) (hgen : ∀ fd, t.calls.gen fd = s.calls.gen fd)
    (hst : ∀ d, t.calls.startOf d = s.calls.startOf d)
    (hpkg : ¬ (t.channel c).sendCtx.pkg.IsStart)
    (hd : ∀ d, d ≠ c → (t.channel d).sendCtx = (s.channel d).sendCtx) : t.Started := by
  apply h.congr hgen
  intro d hp
  by_cases hdc : d = c
  · exact absurd (hdc ▸ hp) hpkg
  · rw [hd d hdc]
    exact .inl ⟨rfl, hst d, .inl⟩

/-- `Started` is kept, if no RESTART that is cut short sends an old START again. -/
theorem Started.effect (hs : s.Sound) (h : s.Started) (he : Effect s t) (hG : t.Heeds RestartSafe)
    (hN : t.Heeds Unforged) : t.Started := by
  have hgen := he.gen_eq
  have hcopy : ∀ d pkg, pkg.len ≤ bufSize → ¬ pkg.IsStart →
      ¬ (copyFrame (s.channel d).sendCtx.pkg pkg).IsStart :=
    fun d pkg hlen hp => (Pkg.isStart_copyFrame _ hlen).not.2 hp
  cases he with
  | log k hk =>
    apply h.same hgen (fun _ => rfl) (fun _ => id)
    intro d
    cases k <;> first | rfl | cases hk
  | free c => exact h.same hgen (by simp) (by simp) fun _ => rfl
  | listFull pkg c p _ _ _ _ _ hst =>
    apply h.replace (c := c) hgen (fun _ => rfl) (by simpa using hst)
    intro d hdc
    simp [modify_channel_of_ne hdc]
  | replyCut c p k hr =>
    apply h.reply (c := c) rfl hr.start (by simp [replying])
    intro d hdc
    simp [replying, modify_channel_of_ne hdc]
  | replyDone c p hr =>
    apply h.reply (c := c) rfl hr.start (by simp [replying])
    intro d hdc
    simp [replying, modify_channel_of_ne hdc]
  | replyFail c p hr =>
    apply h.reply (c := c) rfl hr.start (by simp [replying])
    intro d hdc
    simp [replying, modify_channel_of_ne hdc]
  | startLost d p _ _ _ hst =>
    apply h.reply (c := d) rfl (fun _ => hst) (by simp)
    intro d hdc
    simp [modify_channel_of_ne hdc]
  | breakLost fd r =>
    apply h.same hgen (by simp [unbridged]) (by simp [unbridged])
    intro d
    exact startOf_restart ..
  | breakCut fd r c p k hn hp ho =>
    subst hp
    have hcall := hG (.checkBreakFd .remote fd) s.toGlobals s.calls
      (by simp [notifying, unbridged]) rfl r hn.bridge c hn.live
    have hne := ho.outcome_ne
    rw [hs.outcome_restartPkg, total_restartPkg] at hne
    refine h.congr hgen fun d hp => .inl ⟨by simp [notifying, unbridged], startOf_restart .., ?_⟩
    intro hact
    -- the packet in the buffer of `c` is about to be sent again
    by_cases hdc : d = c
    · subst d
      exact .inr (hcall hne.1 hne.2 (by simpa [notifying, unbridged] using hp))
    · exact .inl (by simpa [notifying, unbridged, hdc] using hact)
  | breakDone fd r c p hn hp =>
    subst hp
    apply h.same hgen (by simp [notifying, unbridged]) (by simp [notifying, unbridged])
    intro d
    exact startOf_restart ..
  | breakFail fd r c p hn hp =>
    subst hp
    apply h.same hgen (by simp [notifying, unbridged]) (by simp [notifying, unbridged])
    intro d
    simp [notifying, unbridged, History.startOf, not_isStart_restartPkg]
  | relayCut pkg srcfd dstfd a d k hr =>
    -- a relayed frame is no START, and it replaces the packet of the buffer
    have hp := hN (.dispatch pkg srcfd dstfd) s.toGlobals s.calls (by simp [relaying, pausing])
    refine h.replace (c := d) hgen (fun _ => rfl) ?_ fun e hed => ?_
    · simpa [relaying, pausing] using hcopy d pkg hr.len hp
    · simp [relaying, pausing, modify_channel_of_ne hed]
  | relayDone pkg srcfd dstfd a d hr =>
    have hp := hN (.dispatch pkg srcfd dstfd) s.toGlobals s.calls (by simp [relaying])
    refine h.replace (c := d) hgen (fun _ => rfl) ?_ fun e hed => ?_
    · simpa [relaying] using hcopy d pkg hr.len hp
    · simp [relaying, modify_channel_of_ne hed]
  | relayFail pkg srcfd dstfd a d hr =>
    have hp := hN (.dispatch pkg srcfd dstfd) s.toGlobals s.calls (by simp [relaying])
    refine h.replace (c := d) hgen (fun _ => rfl) ?_ fun e hed => ?_
    · simpa [relaying] using hcopy d pkg hr.len hp
    · simp [relaying, modify_channel_of_ne hed]
  | _ =>
    refine h.same hgen ?_ ?_ fun _ => rfl <;> simp [sending, finishing]

/-! ## Steps -/

theorem Update.sends (hs : s.Sound) (h : s.Started) (hu : Update c s t) (hG : t.Heeds RestartSafe)
    (hN : t.Heeds Unforged) : Sends s t ∧ t.Started := by
  cases hu with
  | effect he => exact ⟨he.sends h hN, h.effect hs he hG hN⟩
  | closing hc =>
    have hX : ((s.enter (.closed c)).freed c).Started :=
      h.same (fun _ => rfl) (by simp) (by simp) fun _ => rfl
    have he := closing_effect hs hc
    refine ⟨(Sends.of_eq ?_ ?_).trans (he.sends hX hN), hX.effect ((hs.enter _).freed hc.1) he hG hN⟩
    · exact fun _ => rfl
    · exact fun _ => rfl
  | routed p =>
    exact ⟨.of_eq (fun _ => rfl) fun _ => rfl, h.same (fun _ => rfl) (by simp) (by simp) fun _ => rfl⟩
  | recvPkg p =>
    exact ⟨.of_eq (fun _ => rfl) fun _ => rfl, h.same (fun _ => rfl) (by simp) (by simp) fun _ => rfl⟩
  | recvLen n =>
    exact ⟨.of_eq (fun _ => rfl) fun _ => rfl, h.same (fun _ => rfl) (by simp) (by simp) fun _ => rfl⟩

theorem Updates.sends (hs : s.Sound) (h : s.Started) (hu : Updates c s t)
    (hG : t.Heeds RestartSafe) (hN : t.Heeds Unforged) : Sends s t ∧ t.Started := by
  induction hu with
  | refl => exact ⟨.refl s, h⟩
  | tail hsu huv ih =>
    have hS := hs.updates hsu
    have hsuf := huv.calls_suffix hS
    obtain ⟨hsends, hu⟩ := ih (hG.of_suffix hsuf) (hN.of_suffix hsuf)
    obtain ⟨hsends', hv⟩ := huv.sends hS hu hG hN
    exact ⟨hsends.trans hsends', hv⟩

/-- A connection stays the last one of its descriptor while that is not accepted again. -/
theorem current_acceptCb {fd : ℕ} {κ : Conn} (hne : κ.1 ≠ fd) (h : s.calls.Current κ) :
    (s.acceptCb fd).calls.Current κ := by
  rw [acceptCb_calls]
  simpa [History.Current, History.conn, History.gen, hne.symm] using h

theorem outbox_acceptCb (s : Server) (fd fd' : ℕ) : (s.acceptCb fd).calls.outbox fd' =
    if fd = fd' then [] else s.calls.outbox fd' := by
  rw [acceptCb_calls]
  rfl

/-- `accept_cb` keeps `Started` when no START for an earlier owner of the descriptor waits to be
sent. -/
theorem Started.acceptCb (h : s.Started) {fd : ℕ}
    (hquiet : ∀ d, (s.channel d).sendCtx.io.active = true → (s.channel d).sendCtx.pkg.IsStart →
      (s.calls.startOf d).1 ≠ fd) : (s.acceptCb fd).Started := by
  have hst : ∀ d, (s.acceptCb fd).calls.startOf d = s.calls.startOf d := by
    intro d
    rw [acceptCb_calls]
    rfl
  have hold : ∀ d, ((s.acceptCb fd).channel d).sendCtx.pkg.IsStart →
      ((s.acceptCb fd).channel d).sendCtx = (s.channel d).sendCtx := by
    intro d hp
    obtain ⟨c, -, heq⟩ | ⟨-, heq⟩ := acceptCb_cases s fd
    · rw [heq, accepting_channel] at hp ⊢
      split
      · rename_i hdc
        rw [if_pos hdc] at hp
        simp [freshChannel, Pkg.IsStart, Pkg.cmd, Pkg.construct, PkgCmdType.code] at hp
      · rfl
    · rw [heq]
      rfl
  constructor
  · intro d hp
    rw [hst, hold d hp]
    exact h.reserve d (hold d hp ▸ hp)
  · intro d hact hp
    rw [hold d hp] at hact hp
    rw [hst]
    exact current_acceptCb (hquiet d hact hp) (h.current d hact hp)

theorem boot_started : boot.Started := by
  have hp : ∀ c, ¬ (boot.channel c).sendCtx.pkg.IsStart := by
    simp [boot, Channel.unused, Pkg.IsStart, Pkg.cmd, Pkg.construct, PkgCmdType.code]
  exact ⟨fun c h => absurd h (hp c), fun c _ h => absurd h (hp c)⟩

theorem heedsList_unforged {l : History} (h : ∀ e ∈ l.dispatched, ¬ e.1.IsStart) :
    heedsList Unforged l := by
  induction l with
  | nil => trivial
  | cons x l ih =>
    obtain ⟨k, g⟩ := x
    refine ⟨?_, ih fun e he => h e ?_⟩
    · cases k <;> first | trivial | exact h _ List.mem_cons_self
    · cases k <;> first | exact he | exact List.mem_cons_of_mem _ he

theorem heeds_unforged (h : ∀ e ∈ s.calls.dispatched, ¬ e.1.IsStart) : s.Heeds Unforged :=
  heedsList_iff.1 (heedsList_unforged h)

end Server
end WawaServer
