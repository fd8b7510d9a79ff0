import WawaServer.Watchers

/-!
# Ownership of descriptors

`channel_map` leads from a descriptor to the channel that owns it, at every call of every function
(`channelMap_sound`). A descriptor should be closed once for each time `accept` returned it, by the
channel that owns it, and no iterator into `channel_map` should be used after its element was
erased. `free_channel` asks none of this: it frees the channel it is given. `OwnSafe` lists the
callers that give it a channel which was freed already.
-/

namespace WawaServer

/-- Every entry of `channel_map` leads to an active channel that has its descriptor and knows its
index, no two lead to one channel, and a lookup yields the channel of an open descriptor. -/
structure Globals.MapSound (g : Globals) : Prop where
  entry : ∀ (fd : ℕ) (c : Slot), g.channelMap[fd]? = some c →
    (g.channel c).fd = fd ∧ (g.channel c).status = .active ∧ (g.channel c).idx = c
  inj : ∀ (fd fd' : ℕ) (c : Slot), g.channelMap[fd]? = some c → g.channelMap[fd']? = some c →
    fd = fd'
  lookup : ∀ fd, g.lookup fd = g.channelMap[fd]?
  opened : ∀ fd c, g.lookup fd = some c → (g.channel c).fd = fd ∧ g.opened fd = true

/-- `free_channel` is given the channel that `channel_map` holds under its own descriptor. -/
def FreesLive : Call → Globals → History → Prop
  | .freeChannel c, g, _ => g.Live c
  | _, _, _ => True

instance (k : Call) (g : Globals) (l : History) : Decidable (FreesLive k g l) := by
  refine k.casesOn ?_ ?_ ?_ ?_ ?_ ?_ ?_ ?_ ?_ ?_ ?_ ?_ <;> intros <;>
    dsimp only [FreesLive] <;> infer_instance

/-- The data that arrive are for a live channel; while a choose request is answered, the channel
that was chosen refuses no packet; and a connection that is its own raspi does not refuse the
RESTART it is sent when a packet to it was refused. -/
def OwnSafe : Call → Globals → History → Prop
  | .serverRecvCb c, g, _ => g.Live c
  | .response p, g, l => ∀ e ∈ l.choosing, p.fd = (g.channel e.2).fd →
      g.outcome p.fd p.total ≠ .error
  | .checkBreakFd type fd, g, _ => type = .remote → g.channelMap[fd]? ≠ none →
      ∀ r ∈ g.bridgeMap[fd]?, (g.channel r).fd = fd → g.restartOutcome r ≠ .error
  | _, _, _ => True

instance (k : Call) (g : Globals) (l : History) : Decidable (OwnSafe k g l) := by
  refine k.casesOn ?_ ?_ ?_ ?_ ?_ ?_ ?_ ?_ ?_ ?_ ?_ ?_ <;> intros <;>
    dsimp only [OwnSafe] <;> infer_instance

namespace Server

variable {s t : Server} {c d : Slot} {p pkg : Pkg}

/-! ## The channel table at every call -/

/-- Soundness says what `MapSound` says of `channel_map`. -/
theorem Sound.mapSound (hs : s.Sound) : s.MapSound where
  entry fd c hm := ⟨hs.fd_eq hm, (hs.map fd c hm).2.2.1, hs.idx_eq (hs.used hm)⟩
  inj _ _ _ := hs.map_inj
  lookup := hs.lookup_eq
  opened fd c hl := by
    rw [hs.lookup_eq] at hl
    exact ⟨hs.fd_eq hl, (hs.map fd c hl).2.2.2⟩

/-- The state a call was made on is sound. -/
def SoundCall (_ : Call) (g : Globals) (l : History) : Prop := Sound ⟨g, l⟩

/-- A condition on calls holds on when it holds of one more call. -/
theorem Heeds.enter {G : Call → Globals → History → Prop} {k : Call} {g : Globals} (h : s.Heeds G)
    (hk : G k g s.calls) (ht : t.calls = (k, g) :: s.calls) : t.Heeds G := by
  intro k' g' l hl
  rw [ht, List.suffix_cons_iff] at hl
  rcases hl with hl | hl
  · cases hl
    exact hk
  · exact h k' g' l hl

/-- Inside a callback, too, functions are called on sound states. -/
theorem Effect.soundCalls (hs : s.Sound) (h : s.Heeds SoundCall) (he : Effect s t) :
    t.Heeds SoundCall := by
  cases he with
  | answers | fail | bridge => exact h
  | replyCut c p k hr | replyDone c p hr | replyFail c p hr =>
    exact h.enter (k := .response p) (hs.setSendPkg hr.len (.inr (hr.fd_eq hs).symm)) rfl
  | startLost d p hfd hlen hlost hst hnone =>
    exact h.enter (k := .response p) (g := (s.setSendPkg d p).toGlobals)
      ((hs.effect (.startLost d p hfd hlen hlost hst hnone)).congr rfl rfl rfl) rfl
  | breakLost fd r | breakCut fd r | breakDone fd r =>
    exact (h.enter (t := s.enter (.checkBreakFd .remote fd)) hs rfl).enter (hs.enter _) rfl
  | breakFail fd r c p hn hp ho =>
    have h1 := h.enter (t := s.enter (.checkBreakFd .remote fd)) hs rfl
    have h2 := h1.enter (t := (s.enter (.checkBreakFd .remote fd)).enter (.response p))
      (hs.enter _) rfl
    exact h2.enter (k := .freeChannel c) ((hs.notifying fd c p).popped ..) rfl
  | log k | free c | register pkg c t | listFull pkg c p | relayCut pkg srcfd dstfd
  | relayDone pkg srcfd dstfd | relayFail pkg srcfd dstfd | sendMore c | sendOver c | sendNull c
  | sendFail c => exact h.enter hs rfl

/-- Every part of a step calls functions on sound states. -/
theorem soundCalls_keeps : Keeps (fun _ _ _ => True) fun s => s.Heeds SoundCall where
  boot k g l h := by simp [boot] at h
  accepting hs h _ _ _ _ _ := h.enter hs rfl
  refusing hs h _ _ := h.enter hs rfl
  effect hs h he _ := he.soundCalls hs h
  closing {s c} hs h hc _ := by
    have hX : ((s.enter (.closed c)).freed c).Heeds SoundCall :=
      (h.enter (t := s.enter (.closed c)) hs rfl).enter (hs.enter _) rfl
    exact (closing_effect hs hc).soundCalls ((hs.enter _).freed hc.1) hX
  routed _ _ hs h := h.enter hs rfl
  recvPkg _ _ h := h
  recvLen _ _ h := h

/-- In every run functions are called on sound states. -/
theorem Reachable.soundCalls (hr : Reachable s) : s.Heeds SoundCall :=
  soundCalls_keeps.reachable hr fun _ _ _ _ => trivial

/-- `channel_map` is sound between callbacks, and at every call of a function inside them. -/
theorem channelMap_sound (hr : Reachable s) : s.MapSound ∧ s.Heeds fun _ g _ => g.MapSound :=
  ⟨hr.sound.mapSound, fun k g l h => (hr.soundCalls k g l h).mapSound⟩

/-- A viewer refuses a frame of its raspi and is freed in the middle of `dispatch`. -/
def viewerRefuses : List Event :=
  [.accept 5, .accept 6] ++ Event.register 1 .remote Event.takesAll ++
    Event.choose 1 5 Event.takesAll ++
    Event.stream 0 6 [77] (fun fd => if fd = 6 then [.error] else Event.takesAll fd)

/-- In this run `free_channel` is called between two uses of the map. -/
theorem channelMap_sound_viewerRefuses : (after viewerRefuses).MapSound :=
  (channelMap_sound (reachable_after _ (by decide +kernel))).1

/-! ## What `free_channel` is given -/

/-- `free_channel` was given live channels, and no iterator was used after its element was
erased. -/
structure Tidy (s : Server) : Prop where
  frees : s.Heeds FreesLive
  iterator : s.fault ≠ some .erasedIterator

/-- One more call, which frees nothing but a live channel. -/
theorem Tidy.enter (h : s.Tidy) {k : Call} {g : Globals} (hk : FreesLive k g s.calls)
    (ht : t.calls = (k, g) :: s.calls) (hf : t.fault = s.fault ∨ t.fault ≠ some .erasedIterator) :
    t.Tidy where
  frees := h.frees.enter hk ht
  iterator := hf.elim (fun hf => hf ▸ h.iterator) id

/-- `Tidy` reads the history and the fault. -/
theorem Tidy.congr (h : s.Tidy) (hc : t.calls = s.calls)
    (hf : t.fault = s.fault ∨ t.fault ≠ some .erasedIterator) : t.Tidy where
  frees k g l hl := h.frees k g l (hc ▸ hl)
  iterator := hf.elim (fun hf => hf ▸ h.iterator) id

/-- A `send` past the packet is another fault. -/
theorem fault_send {P : Prop} [Decidable P] (o : Option Fault) :
    (if P then some .sendOverread else o) = o ∨
      (if P then some .sendOverread else o) ≠ some Fault.erasedIterator := by
  split
  · exact .inr (by decide)
  · exact .inl rfl

/-- Freeing a live channel is tidy. -/
theorem Tidy.freeChannel (h : s.Tidy) (hl : s.Live c) : (s.freeChannel c).Tidy :=
  h.enter (k := .freeChannel c) hl rfl (.inl rfl)

/-- `response` frees the channel that it has just looked up. -/
theorem Tidy.response (h : s.Tidy) (hs : s.Sound) (p : Pkg) : (s.response p).1.Tidy := by
  rcases s.response_cases p with ⟨-, h'⟩ | ⟨c, hc, ⟨k, -, h'⟩ | ⟨-, h'⟩ | ⟨-, h'⟩⟩ <;> rw [h']
  · exact h.enter (k := .response p) trivial rfl (.inl rfl)
  · exact h.enter (k := .response p) trivial rfl (fault_send _)
  · exact h.enter (k := .response p) trivial rfl (fault_send _)
  · have hX : (((s.enter (.response p)).setSendLen c 0).popped p.fd 0 p.total).Tidy :=
      h.enter (k := .response p) trivial rfl (fault_send _)
    rw [hs.lookup_eq] at hc
    apply hX.freeChannel
    simpa [Globals.Live, hs.fd_eq hc] using hc

/-- `check_break_fd` frees nobody but by its `response`. -/
theorem Tidy.checkBreakFd (h : s.Tidy) (hs : s.Sound) (type : ClientType) (fd : ℕ) :
    (s.checkBreakFd type fd).Tidy := by
  have hX : (s.enter (.checkBreakFd type fd)).Tidy :=
    h.enter (k := .checkBreakFd type fd) trivial rfl (.inl rfl)
  rcases s.checkBreakFd_cases type fd with ⟨-, heq⟩ | ⟨r, rfl, -, heq⟩ <;> rw [heq]
  · exact hX
  · exact (hX.response (hs.enter _) _).congr rfl (.inl rfl)

/-- `response` takes the descriptor of no channel but the one that refused the packet. -/
theorem response_keeps_live (hs : s.Sound) (hd : s.Live d)
    (hp : p.fd = (s.channel d).fd → s.outcome p.fd p.total ≠ .error) :
    (s.response p).1.Live d := by
  rcases hs.response_cases p with ⟨-, h⟩ | ⟨c, hc, ⟨k, -, h⟩ | ⟨-, h⟩ | ⟨ho, -, h⟩⟩ <;> rw [h]
  · exact hd
  · simpa [Globals.Live] using hd
  · simpa [Globals.Live] using hd
  · rw [freed_live]
    have hne : (s.channel d).fd ≠ (s.channel c).fd := by
      rw [hs.fd_eq hc]
      exact fun h => hp h.symm ho
    exact ⟨by simpa using hne, by simpa [Globals.Live] using hd⟩

/-- So does `check_break_fd`. -/
theorem checkBreakFd_keeps_live (hs : s.Sound) (hd : s.Live d) {type : ClientType} {fd : ℕ}
    (hr : type = .remote → ∀ r ∈ s.bridgeMap[fd]?, (s.channel r).fd = (s.channel d).fd →
      s.restartOutcome r ≠ .error) : (s.checkBreakFd type fd).Live d := by
  rcases s.checkBreakFd_cases type fd with ⟨-, h⟩ | ⟨r, rfl, hb, h⟩ <;> rw [h]
  · exact hd
  · rw [unbridged_live]
    apply response_keeps_live (hs.enter _) hd
    intro hfd
    have hout := hs.outcome_restartPkg r
    rw [fd_restartPkg (hs.slot r).fd_lt] at hfd
    exact hout ▸ hr rfl r hb hfd

/-! ## The functions of the source -/

/-- An iterator may be used while its element is there. -/
theorem useIterator_of_some {fd : ℕ} (h : s.channelMap[fd]? = some c) : s.useIterator fd = s := by
  simp only [useIterator, h]

/-- Who owns its descriptor after an effect has its entry there. -/
theorem Effect.map_of_live (h : Effect s t) (hd : t.Live d) :
    t.channelMap[(s.channel d).fd]? = some d := by
  rw [← h.fd_eq d]
  exact hd

/-- The descriptor is the channel's own until `check_break_fd` returns. -/
theorem own_checkBreakFd (hs : s.Sound) (hd : s.Live d) (type : ClientType)
    (hG : (s.checkBreakFd type (s.channel d).fd).Heeds OwnSafe) :
    (s.checkBreakFd type (s.channel d).fd).Live d := by
  apply checkBreakFd_keeps_live hs hd
  intro ht r hr hfd
  have hcall := hG (.checkBreakFd type (s.channel d).fd) s.toGlobals s.calls
    (checkBreakFd_suffix s _ _)
  refine hcall ht ?_ r hr hfd
  rw [hd]
  exact Option.some_ne_none d

/-- `dispatch` frees the destination, which must own its descriptor after `check_break_fd`. -/
theorem Tidy.dispatch (h : s.Tidy) (hs : s.Sound) {pkg : Pkg} {srcfd dstfd : ℕ}
    (hfd : pkg.fd = dstfd) (hG : (s.dispatch pkg srcfd dstfd).1.Heeds OwnSafe) :
    (s.dispatch pkg srcfd dstfd).1.Tidy := by
  have hlog : ∀ {t : Server}, t.calls = (.dispatch pkg srcfd dstfd, s.toGlobals) :: s.calls →
      t.fault = s.fault ∨ t.fault ≠ some .erasedIterator → t.Tidy :=
    fun hc hf => h.enter (k := .dispatch pkg srcfd dstfd) trivial hc hf
  rcases s.dispatch_cases pkg srcfd dstfd with
    ⟨-, heq⟩ | ⟨a, d, ha, hd, hlen, ⟨k, -, heq⟩ | ⟨-, heq⟩ | ⟨ho, heq⟩⟩
  · rw [heq]
    exact hlog rfl (.inl rfl)
  · rw [heq]
    exact hlog rfl (fault_send _)
  · rw [heq]
    exact hlog rfl (fault_send _)
  · have hr := hs.relays ha hd hfd hlen
    have hY := hs.effect (.relayFail pkg srcfd dstfd a d hr ho)
    have hT : ((s.relaying pkg srcfd dstfd d).popped dstfd 0 pkg.total).Tidy :=
      hlog rfl (fault_send _)
    have hmap : ((s.relaying pkg srcfd dstfd d).popped dstfd 0 pkg.total).channelMap[dstfd]? =
        some d := hr.dst
    rw [heq] at hG ⊢
    simp only at hG ⊢
    clear heq
    generalize (s.relaying pkg srcfd dstfd d).popped dstfd 0 pkg.total = u at *
    have hown : (u.checkBreakFd (u.channel d).type (u.channel d).fd).Live d := by
      refine own_checkBreakFd hY (hY.live hmap) _ (hG.of_suffix ?_)
      exact useIterator_calls _ dstfd ▸ List.suffix_cons _ _
    have hmap' := (checkBreakFd_effect hY (u.channel d).type (u.channel d).fd).map_of_live hown
    obtain rfl : (u.channel d).fd = dstfd := hY.fd_eq hmap
    -- the iterator that `dispatch` found leads to `d` still
    rw [useIterator_of_some hmap']
    exact (hT.checkBreakFd hY _ _).freeChannel hown

/-- A reply is tidy whoever refuses it. -/
theorem Tidy.reply (h : s.Tidy) (hX : (s.setSendPkg c p).Sound) : (s.reply c p).Tidy :=
  Tidy.response (s := s.setSendPkg c p) (h.congr rfl (.inl rfl)) hX p

/-- A registration makes one reply. -/
theorem Tidy.handleRegisterClientReq (h : s.Tidy) (hs : s.Sound) (pkg : Pkg) :
    (s.handleRegisterClientReq pkg).1.Tidy := by
  have hT : (s.enter (.handleRegisterClientReq pkg)).Tidy :=
    h.enter (k := .handleRegisterClientReq pkg) trivial rfl (.inl rfl)
  rcases s.handleRegisterClientReq_cases pkg with ⟨h, -⟩ | ⟨c, t, hc, -, ⟨h, -⟩ | ⟨-, -, h⟩⟩ <;> rw [h]
  · exact hT
  · have hmap : s.channelMap[pkg.fd]? = some c := (hs.lookup_eq _).symm.trans hc
    have hX := (hs.enter (.handleRegisterClientReq pkg)).setType c t
    refine Tidy.reply (hT.congr rfl (.inl rfl)) (hX.setSendPkg ?_ (.inr ?_))
    · rw [len_registration]
      decide
    · rw [fd_registration]
      simpa using (hs.fd_eq hmap).symm
  · exact hT.congr rfl (.inl rfl)

/-- The chosen channel keeps its descriptor while the request is answered. -/
theorem own_response (hs : s.Sound) (hd : s.Live d) {fd : ℕ}
    (hch : s.calls.choosing = some (fd, d)) (hG : (s.response p).1.Heeds OwnSafe) :
    (s.response p).1.Live d := by
  apply response_keeps_live hs hd
  intro hfd
  exact hG (.response p) s.toGlobals s.calls (s.response_suffix p) (fd, d) hch hfd

/-- `response` by itself is sound for every packet. -/
theorem Sound.response (hs : s.Sound) (p : Pkg) : (s.response p).1.Sound := by
  rcases hs.response_cases p with ⟨-, h⟩ | ⟨c, hc, h⟩
  · rw [h]
    exact hs.enter _
  · have hu := hs.used hc
    have hX := (hs.enter (.response p)).setSendLen c 0
    rcases h with ⟨k, -, h⟩ | ⟨-, h⟩ | ⟨-, hY, h⟩ <;> rw [h]
    · exact ((hX.wrote ..).setSendLen c k).startSend (by simpa using hu)
    · exact (hX.wrote ..).startRecv (by simpa using hu)
    · exact hY.freed (by simpa using hu)

/-- A reply does not end a choose request. -/
theorem reply_choosing (s : Server) (c : Slot) (p : Pkg) :
    (s.reply c p).calls.choosing = s.calls.choosing :=
  (s.setSendPkg c p).response_choosing p

theorem Sound.reply (hX : (s.setSendPkg c p).Sound) : (s.reply c p).Sound := hX.response p

/-- The chosen channel keeps its descriptor when a reply is sent. -/
theorem own_reply (hX : (s.setSendPkg c p).Sound) (hd : s.Live d) {fd : ℕ}
    (hch : s.calls.choosing = some (fd, d)) (hG : (s.reply c p).Heeds OwnSafe) :
    (s.reply c p).Live d :=
  own_response hX (by simpa [Globals.Live] using hd) hch hG

/-- Both packets are sent before the iterator to the raspi is used for the last time. -/
theorem Tidy.handleChooseServerReq (h : s.Tidy) (hs : s.Sound) (pkg : Pkg)
    (hG : (s.handleChooseServerReq pkg).1.Heeds OwnSafe) :
    (s.handleChooseServerReq pkg).1.Tidy := by
  have hE := hs.enter (.handleChooseServerReq pkg)
  have hT : (s.enter (.handleChooseServerReq pkg)).Tidy :=
    h.enter (k := .handleChooseServerReq pkg) trivial rfl (.inl rfl)
  have hfd : pkg.fd < 4294967296 := pkg.fd_lt
  rcases s.handleChooseServerReq_cases pkg with ⟨-, heq⟩ | ⟨c, d, hc, hd, heq⟩
  · rw [heq]
    exact hT
  · have hch : (s.enter (.handleChooseServerReq pkg)).calls.choosing = some (pkg.fd, d) := by
      simp only [Server.enter, History.choosing, Globals.chosen, hc, hd, reduceCtorEq, ↓reduceIte,
        Option.map_some]
    have hrem : (s.enter (.handleChooseServerReq pkg)).channelMap[pkg.fd]? = some c :=
      (hs.lookup_eq _).symm.trans hc
    have hras : (s.enter (.handleChooseServerReq pkg)).channelMap[pkg.chooseFd]? = some d :=
      (hs.lookup_eq _).symm.trans hd
    rw [heq] at hG ⊢
    simp only at hG ⊢
    clear heq
    generalize s.enter (.handleChooseServerReq pkg) = u at *
    have hfd' : (u.channel d).fd = pkg.chooseFd := hE.fd_eq hras
    have hX : (u.setSendPkg c (chooseRes (u.channel c).sendCtx.pkg pkg.fd)).Sound :=
      hE.setSendPkg (by rw [len_chooseRes]; decide)
        (.inr ((fd_chooseRes _ hfd).trans (hE.fd_eq hrem).symm))
    have hv := hT.reply hX
    have hvS := hX.reply
    -- the reply to the viewer; by `OwnSafe` the raspi keeps its descriptor
    have hvfd := (reply_steady u c (chooseRes (u.channel c).sendCtx.pkg pkg.fd)).fd d
    have hvch := u.reply_choosing c (chooseRes (u.channel c).sendCtx.pkg pkg.fd)
    have hown := own_reply hX (hE.live hras) hch
    rw [hch] at hvch
    rw [hfd'] at hvfd
    generalize u.reply c (chooseRes (u.channel c).sendCtx.pkg pkg.fd) = v at *
    have hGw : ((v.useIterator pkg.chooseFd).reply d (startNtf ((v.useIterator
        pkg.chooseFd).channel d).sendCtx.pkg pkg.fd)).Heeds OwnSafe :=
      hG.of_suffix (useIterator_calls _ pkg.chooseFd ▸ List.suffix_rfl)
    have hGv : v.Heeds OwnSafe :=
      hGw.of_suffix (useIterator_calls v pkg.chooseFd ▸ reply_suffix _ d _)
    have hlive := hown hGv
    have hmap : v.channelMap[pkg.chooseFd]? = some d := hvfd ▸ hlive
    -- the iterator leads to the raspi still, and the START is sent
    rw [useIterator_of_some hmap] at hGw ⊢
    have hY : (v.setSendPkg d (startNtf (v.channel d).sendCtx.pkg pkg.fd)).Sound := by
      apply hvS.setSendPkg (by rw [len_startNtf]; decide)
      rw [fd_startNtf, len_startNtf]
      exact (hvS.slot d).pkgFd.imp_left fun h => ⟨h.1, le_rfl⟩
    have hlive' := own_reply hY hlive hvch hGw
    have hwfd := (reply_steady v d (startNtf (v.channel d).sendCtx.pkg pkg.fd)).fd d
    rw [hvfd] at hwfd
    rw [useIterator_of_some (c := d) (hwfd ▸ hlive')]
    exact (hv.reply hY).congr rfl (.inl rfl)

/-- A request is tidy. -/
theorem Tidy.handle (h : s.Tidy) (hs : s.Sound) (pkg : Pkg)
    (hG : (s.handle pkg).1.Heeds OwnSafe) : (s.handle pkg).1.Tidy := by
  have hT : (s.enter (.handle pkg)).Tidy := h.enter (k := .handle pkg) trivial rfl (.inl rfl)
  have hE := hs.enter (.handle pkg)
  rcases s.handle_cases pkg with heq | heq | heq <;> rw [heq] at hG ⊢
  · exact hT.handleRegisterClientReq hE pkg
  · exact hT.handleChooseServerReq hE pkg hG
  · exact hT

/-- A whole packet is handled or relayed. -/
theorem Tidy.route (h : s.Tidy) (hs : s.Sound) (c : Slot) (hG : (s.route c).Heeds OwnSafe) :
    (s.route c).Tidy := by
  by_cases h0 : (s.channel c).recvCtx.pkg.fd = 0
  · rw [route_of_request h0] at hG ⊢
    refine Tidy.handle ?_ ((hs.setRecvPkg c _).enter _) _ hG
    exact h.enter (k := .routed c _) trivial rfl (.inl rfl)
  · rw [route_of_relay h0] at hG ⊢
    refine Tidy.dispatch ?_ (hs.enter _) rfl hG
    exact h.enter (k := .routed c _) trivial rfl (.inl rfl)

/-- Bytes that arrive in the receive buffer use no iterator. -/
theorem store_fault (s : Server) (c : Slot) (bs : List UInt8) :
    (s.store c bs).fault = s.fault ∨ (s.store c bs).fault ≠ some .erasedIterator := by
  unfold store
  simp only
  split
  · exact .inr (by simp)
  · exact .inl rfl

/-- Data arrive for a live channel, which a failing packet frees. -/
theorem Tidy.serverRecvCb (h : s.Tidy) (hs : s.Sound)
    (hact : (s.channel c).recvCtx.io.active = true) {r : RecvResult}
    (hG : (s.serverRecvCb c r).Heeds OwnSafe) : (s.serverRecvCb c r).Tidy := by
  have hE := hs.enter (.serverRecvCb c)
  have hT : (s.enter (.serverRecvCb c)).Tidy :=
    h.enter (k := .serverRecvCb c) trivial rfl (.inl rfl)
  have hl : (s.enter (.serverRecvCb c)).Live c := hG (.serverRecvCb c) s.toGlobals s.calls
    ((serverRecvCb_updates_enter hs hact r).calls_suffix hE)
  have hu := (hs.slot c).recvUsed hact
  unfold Server.serverRecvCb at hG ⊢
  simp only at hG ⊢
  have hu' : ((s.enter (.serverRecvCb c)).channel c).fd ≠ 0 := hu
  generalize s.enter (.serverRecvCb c) = u at *
  cases r with
  | closed =>
    have hX := hE.enter (.closed c)
    have hTX : ((u.enter (.closed c)).freeChannel c).Tidy :=
      (hT.enter (k := .closed c) (t := u.enter (.closed c)) trivial rfl (.inl rfl)).freeChannel hl
    -- the descriptor is closed before `check_break_fd` is called
    refine hTX.checkBreakFd ?_ _ _
    rw [hX.freeChannel_eq hu']
    exact hX.freed hu'
  | again => exact hT.congr rfl (.inl rfl)
  | error => exact hT.freeChannel hl
  | data bs =>
    have hS := hE.updates (store_updates u c bs)
    have hTS : (u.store c bs).Tidy := hT.congr (store_calls ..) (store_fault ..)
    have hlS : (u.store c bs).Live c := (store_live u c bs).2 hl
    simp only at hG ⊢
    generalize u.store c bs = v at *
    split
    · exact hTS
    · split
      · exact hTS.freeChannel hlS
      · split
        · exact hTS.congr rfl (.inl rfl)
        · rename_i h1 h2 h3
          rw [if_neg h1, if_neg h2, if_neg h3] at hG
          have hroute : (v.route c).Heeds OwnSafe := hG
          exact (hTS.route hS c hroute).congr rfl (.inl rfl)

/-- What is sent is sent for a live channel, which a failing `send` frees. -/
theorem Tidy.serverSendCb (h : s.Tidy) (hs : s.Sound) (hl : s.Live c)
    (hG : (s.serverSendCb c).Heeds OwnSafe) : (s.serverSendCb c).Tidy := by
  have hlog : ∀ {t : Server}, t.calls = (.serverSendCb c, s.toGlobals) :: s.calls →
      t.fault = s.fault ∨ t.fault ≠ some .erasedIterator → t.Tidy :=
    fun hc hf => h.enter (k := .serverSendCb c) trivial hc hf
  rcases s.serverSendCb_cases c with
    ⟨k, -, heq⟩ | ⟨k, -, -, ⟨-, heq⟩ | ⟨a, -, heq⟩⟩ | ⟨-, heq⟩
  · rw [heq]
    exact hlog rfl (fault_send _)
  · rw [heq]
    exact hlog rfl (.inr (by simp))
  · rw [heq]
    exact hlog rfl (fault_send _)
  · have hT : ((s.enter (.serverSendCb c)).popped (s.channel c).fd (s.channel c).sendCtx.len
        (s.sendCount c)).Tidy := hlog rfl (fault_send _)
    have hS : ((s.enter (.serverSendCb c)).popped (s.channel c).fd (s.channel c).sendCtx.len
        (s.sendCount c)).Sound := (hs.enter _).popped ..
    have hl' : ((s.enter (.serverSendCb c)).popped (s.channel c).fd (s.channel c).sendCtx.len
        (s.sendCount c)).Live c := hl
    rw [heq] at hG ⊢
    simp only at hG ⊢
    clear heq
    generalize (s.enter (.serverSendCb c)).popped (s.channel c).fd (s.channel c).sendCtx.len
      (s.sendCount c) = u at *
    exact (hT.checkBreakFd hS _ _).freeChannel
      (own_checkBreakFd hS hl' _ (hG.of_suffix (List.suffix_cons _ _)))

/-! ## Runs -/

/-- A started send watcher belongs to a live channel. -/
def SendLive (s : Server) : Prop := ∀ c, (s.channel c).sendCtx.io.active = true → s.Live c

/-- `SendLive` reads who owns its descriptor and the send watchers. -/
theorem SendLive.congr (h : s.SendLive) (hm : t.channelMap = s.channelMap)
    (hfd : ∀ d, (t.channel d).fd = (s.channel d).fd)
    (hs : ∀ d, (t.channel d).sendCtx.io.active = true →
      (s.channel d).sendCtx.io.active = true ∨ s.Live d) : t.SendLive := by
  intro d hd
  rw [Globals.Live, hm, hfd]
  exact (hs d hd).elim (h d) id

/-- `free_channel` stops the send watcher of the channel it takes the descriptor from. -/
theorem SendLive.freed (h : s.SendLive) (hc : s.Live c) : (s.freed c).SendLive := by
  intro d hd
  obtain ⟨hdc, hd⟩ := (freed_sendActive ..).1 hd
  exact freed_live.2 ⟨fd_ne_of_live (h d hd) hc hdc, h d hd⟩

/-- A send watcher is started on channels that `channel_map` leads to. -/
theorem SendLive.effect (hs : s.Sound) (h : s.SendLive) (he : Effect s t)
    (hG : t.Heeds FreesLive) : t.SendLive := by
  cases he with
  | free c => exact h.freed (hG (.freeChannel c) s.toGlobals s.calls (by simp))
  | replyCut c p k hr =>
    have hc := hs.live hr.live
    refine h.congr rfl (by simp [replying]) ?_
    simp [replying]
    grind
  | breakCut fd r c p k hn =>
    have hc := hs.live hn.live
    refine h.congr rfl (by simp [notifying, unbridged]) ?_
    simp [notifying, unbridged]
    grind
  | breakFail fd r c p hn =>
    -- the raspi's connection is freed, and it owned its descriptor
    have hY := (hs.notifying fd c p).popped p.fd 0 p.total
    have hX : ((s.notifying fd c p).popped p.fd 0 p.total).SendLive :=
      h.congr rfl (by simp [notifying]) (by simp [notifying]; grind)
    exact (hX.freed (hY.live hn.live)).congr rfl (by simp [unbridged]) (by simp [unbridged]; grind)
  | relayCut pkg srcfd dstfd a d k hr =>
    have hd := hs.live hr.dst
    refine h.congr rfl (by simp [relaying, pausing]) ?_
    simp [relaying, pausing]
    grind
  | sendOver c k a hact | sendNull c k hact =>
    exact h.congr rfl (by simp [finishing, sending]) (by simp [finishing, sending]; grind)
  | _ =>
    exact h.congr rfl (by simp [replying, relaying, sending, notifying, unbridged])
      (by simp [replying, relaying, sending, notifying, unbridged]; try grind)

/-- `accept_cb` starts no send watcher. -/
theorem SendLive.accepting (h : s.SendLive) {fd : ℕ} (hkey : s.channelMap[fd]? = none) :
    (s.accepting fd c).SendLive := by
  intro d hd
  rw [accepting_channel] at hd
  split at hd
  · cases hd
  · exact (accepting_live hkey).2 (.inr (h d hd))

/-- While only live channels are freed, started send watchers are theirs. -/
theorem sendLive_keeps : Keeps FreesLive SendLive where
  boot := nofun
  accepting _ h _ _ hkey _ _ := h.accepting hkey
  refusing _ h _ _ := h
  effect hs h he hG := h.effect hs he hG
  closing {s c} hs h hc hG := by
    have hX : (s.enter (.closed c)).SendLive := h
    exact (hX.freed (hG _ _ _ (closing_suffix hs hc))).effect ((hs.enter _).freed hc.1)
      (closing_effect hs hc) hG
  routed _ _ _ h := h
  recvPkg c p h := h.congr rfl (by simp) (by simp; grind)
  recvLen c n h := h.congr rfl (by simp) (by simp; grind)

/-- Since its last accept a descriptor was closed at most once, and is gone from `channel_map` if
it was. -/
def ClosedOnce (s : Server) : Prop := ∀ fd,
  s.calls.closes fd = 0 ∨ s.calls.closes fd = 1 ∧ s.channelMap[fd]? = none

/-- `ClosedOnce` reads the record of calls and the map. -/
theorem ClosedOnce.congr (h : s.ClosedOnce) (hc : ∀ fd, t.calls.closes fd = s.calls.closes fd)
    (hm : ∀ fd : ℕ, s.channelMap[fd]? = none → t.channelMap[fd]? = none) : t.ClosedOnce := by
  intro fd
  rw [hc]
  exact (h fd).imp_right fun h => ⟨h.1, hm fd h.2⟩

/-- A live channel was not closed before. -/
theorem ClosedOnce.freed (h : s.ClosedOnce) (hs : s.Sound) (hu : (s.channel c).fd ≠ 0)
    (hl : s.Live c) : (s.freed c).ClosedOnce := by
  intro fd
  rw [freed_calls, freed_channelMap_none, History.closes, hs.idx_eq hu]
  by_cases hfd : (s.channel c).fd = fd
  · subst hfd
    rcases h (s.channel c).fd with h0 | ⟨-, hnone⟩
    · exact .inr ⟨by simp [h0], .inl rfl⟩
    · cases hnone.symm.trans hl
  · rw [if_neg hfd, Nat.add_zero]
    exact (h fd).imp_right fun h => ⟨h.1, .inr h.2⟩

theorem ClosedOnce.effect (hs : s.Sound) (h : s.ClosedOnce) (he : Effect s t)
    (hG : t.Heeds FreesLive) : t.ClosedOnce := by
  cases he with
  | free c hc =>
    exact h.freed hs hc.1 (hG (.freeChannel c) s.toGlobals s.calls (by simp))
  | breakFail fd r c p hn =>
    have hY := (hs.notifying fd c p).popped p.fd 0 p.total
    have hX : ((s.notifying fd c p).popped p.fd 0 p.total).ClosedOnce :=
      h.congr (fun _ => rfl) fun _ => id
    have hu : (((s.notifying fd c p).popped p.fd 0 p.total).channel c).fd ≠ 0 := by
      simpa [notifying] using hs.used hn.live
    exact (hX.freed hY hu (hY.live hn.live)).congr (fun _ => rfl) fun _ => id
  | log k hk => exact h.congr (fun _ => by cases k <;> first | rfl | cases hk) fun _ => id
  | _ => exact h.congr (fun _ => rfl) fun _ => id

/-- While only live channels are freed, no descriptor is closed twice. -/
theorem closedOnce_keeps : Keeps FreesLive ClosedOnce where
  boot _ := .inl rfl
  accepting {s fd c} _ h _ _ hkey _ _ := by
    intro fd'
    rw [accepting_channelMap hkey]
    by_cases hfd : fd' = fd
    · exact .inl (by simp [accepting, History.closes, hfd])
    · rw [if_neg hfd]
      simpa [accepting, History.closes, Ne.symm hfd] using h fd'
  refusing {s fd} _ h hkey _ := by
    intro fd'
    by_cases hfd : fd = fd'
    · exact .inl (by simp [refusing, History.closes, hfd])
    · simpa [refusing, History.closes, hfd] using h fd'
  effect hs h he hG := h.effect hs he hG
  closing {s c} hs h hc hG := by
    have hX : (s.enter (.closed c)).ClosedOnce := h.congr (fun _ => rfl) fun _ => id
    exact (hX.freed (hs.enter _) hc.1 (hG _ _ _ (closing_suffix hs hc))).effect
      ((hs.enter _).freed hc.1) (closing_effect hs hc) hG
  routed _ _ _ h := h.congr (fun _ => rfl) fun _ => id
  recvPkg _ _ h := h
  recvLen _ _ h := h

/-- `accept_cb` uses no iterator and frees nobody. -/
theorem Tidy.acceptCb (h : s.Tidy) (fd : ℕ) : (s.acceptCb fd).Tidy := by
  apply h.enter (k := .acceptCb fd) trivial (acceptCb_calls s fd)
  obtain ⟨c, -, heq⟩ | ⟨-, heq⟩ := acceptCb_cases s fd
  · rw [heq]
    exact .inl rfl
  · rw [heq]
    exact .inr (by simp [refusing])

/-- One step, by the callback that it is. -/
theorem Tidy.step (h : s.Tidy) (hs : s.Sound) (hl : s.SendLive) {e : Event}
    (hst : s.step e = some t) (hG : t.Heeds OwnSafe) : t.Tidy := by
  obtain ⟨-, hen, rfl⟩ := step_eq_some.1 hst
  cases e with
  | accept fd => exact h.acceptCb fd
  | acceptError => exact h
  | recv c r q =>
    refine Tidy.serverRecvCb (s := { s with results := q }) ?_ (hs.congr rfl rfl rfl) hen.1 hG
    exact h.congr rfl (.inl rfl)
  | send c q =>
    refine Tidy.serverSendCb (s := { s with results := q }) ?_ (hs.congr rfl rfl rfl) (hl c hen) hG
    exact h.congr rfl (.inl rfl)

/-- At the start nothing was freed. -/
theorem boot_tidy : boot.Tidy := ⟨fun k g l h => by simp [boot] at h, by simp [boot]⟩

/-- Induction on the run; that a live channel gets the send callback is a run's property itself. -/
theorem Reachable.tidy (hr : Reachable s) (hG : s.Heeds OwnSafe) : s.Tidy := by
  refine Runs.Reaches.induction Server.step (P := fun s => s.Heeds OwnSafe → s.Tidy)
    (fun _ => boot_tidy) (fun t e u ht ih hst hG => ?_) hr hG
  have hr : Reachable t := ht
  have hT := ih (hG.of_suffix (step_calls_suffix hr.sound hst))
  exact hT.step hr.sound (sendLive_keeps.reachable hr hT.frees) hst hG

/-- Each accepted descriptor is closed once, by the channel that owns it, and nothing is done with
an entry of `channel_map` that is gone. -/
structure DescriptorsOwned (s : Server) : Prop where
  once : ∀ fd, s.calls.closes fd ≤ 1
  frees : s.Heeds FreesLive
  /-- `free_channel` takes nothing from another connection. -/
  others : ∀ c g l, (.freeChannel c, g) :: l <:+ s.calls → ∀ d, d ≠ c → g.Live d →
    ((⟨g, l⟩ : Server).freeChannel c).Live d ∧
      ((⟨g, l⟩ : Server).freeChannel c).opened (g.channel d).fd = true
  iterator : s.fault ≠ some .erasedIterator

/-- Who owns a different descriptor is left alone. -/
theorem freeChannel_others (hs : s.Sound) (hc : s.Live c) (hd : s.Live d) (hdc : d ≠ c) :
    (s.freeChannel c).Live d ∧ (s.freeChannel c).opened (s.channel d).fd = true := by
  have hne := fd_ne_of_live hd hc hdc
  rw [hs.freeChannel_eq (hs.used hc), freed_live, freed_opened, if_neg hne]
  exact ⟨⟨hne, hd⟩, (hs.map _ d hd).2.2.2⟩

/-- In the runs that avoid the three callers every descriptor is closed once, by its owner. -/
theorem descriptors_owned (hr : Reachable s) (hG : s.Heeds OwnSafe) : s.DescriptorsOwned := by
  have hT := hr.tidy hG
  have honce : s.ClosedOnce := closedOnce_keeps.reachable hr hT.frees
  exact {
    once := fun fd => by rcases honce fd with h | ⟨h, -⟩ <;> omega
    frees := hT.frees
    others := fun c g l hl d hdc hd =>
      freeChannel_others (hr.soundCalls _ g l hl) (hT.frees _ g l hl) hd hdc
    iterator := hT.iterator }

/-- The refusal frees the viewer's channel, once. -/
theorem descriptors_owned_viewerRefuses : (after viewerRefuses).DescriptorsOwned :=
  descriptors_owned (reachable_after _ (by decide +kernel)) (by decide +kernel)

/-- A connection chooses itself, and refuses the START and the RESTART it is sent. -/
def choosesItself : List Event :=
  [.accept 5] ++ Event.register 0 .remote Event.takesAll ++
    Event.choose 0 5 (fun _ => [.sent sizeofPkg, .again]) ++ [.send 0 fun _ => [.error, .error]]

/-- The RESTART is sent to the connection that is being freed, and frees it first. -/
theorem descriptor_closed_twice : ¬ ∀ s, Reachable s → s.DescriptorsOwned := by
  intro h
  have honce := (h _ (reachable_after choosesItself (by decide +kernel))).once 5
  exact absurd honce (by decide +kernel)

end Server
end WawaServer
