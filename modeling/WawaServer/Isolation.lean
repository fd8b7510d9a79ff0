import WawaServer.Delivery

/-!
# What a client can do to the others

Handlers find the connection they act for through `stHead.fd`, which the client writes.
`server_recv_cb` overwrites it before it calls `handle`, so a request acts for the connection it
came from (`acts_alone`): the types of the other connections stay, and so do their bridges, but for
that of a connection which refuses a frame of the client.
-/

namespace WawaServer
namespace Server

variable {s t u : Server} {c d : Slot} {p pkg : Pkg}

/-- `check_break_fd` changes the bridge of one descriptor. -/
theorem checkBreakFd_bridge (s : Server) (type : ClientType) {fd fd' : ℕ} (h : fd' ≠ fd) :
    (s.checkBreakFd type fd).bridgeMap[fd']? = s.bridgeMap[fd']? := by
  rcases s.checkBreakFd_cases type fd with ⟨-, heq⟩ | ⟨r, -, -, heq⟩ <;> rw [heq]
  · rfl
  · have hst := response_steady (s.enter (.checkBreakFd .remote fd)) (restartPkg (s.channel r).fd)
    simp only [unbridged, hst.bridge, Std.ExtTreeMap.getElem?_erase,
      Std.LawfulEqCmp.compare_eq_iff_eq, Ne.symm h, ↓reduceIte]
    rfl

theorem checkBreakFd_type (s : Server) (type : ClientType) (fd : ℕ) (d : Slot) :
    ((s.checkBreakFd type fd).channel d).type = (s.channel d).type := by
  rcases s.checkBreakFd_cases type fd with ⟨-, h⟩ | ⟨r, -, -, h⟩ <;> rw [h]
  · rfl
  · have hst := response_steady (s.enter (.checkBreakFd .remote fd)) (restartPkg (s.channel r).fd)
    simpa [unbridged] using hst.type d

/-- `dispatch` registers nobody. -/
theorem dispatch_type (s : Server) (pkg : Pkg) (srcfd dstfd : ℕ) (d : Slot) :
    ((s.dispatch pkg srcfd dstfd).1.channel d).type = (s.channel d).type := by
  rcases s.dispatch_cases pkg srcfd dstfd with
    ⟨-, h⟩ | ⟨a, b, -, -, -, ⟨k, -, h⟩ | ⟨-, h⟩ | ⟨-, h⟩⟩ <;> rw [h]
  · rfl
  · simp [relaying, pausing]
  · simp [relaying]
  · simp only
    rw [(freeChannel_steady _ _).type, (useIterator_steady _ _).type, checkBreakFd_type]
    simp [relaying]

/-- `dispatch` changes a bridge only where its packet is refused. -/
theorem dispatch_bridge (hs : s.Sound) (pkg : Pkg) (srcfd dstfd fd : ℕ) :
    (s.dispatch pkg srcfd dstfd).1.bridgeMap[fd]? = s.bridgeMap[fd]? ∨
      fd = dstfd ∧ s.Writes pkg srcfd dstfd ∧ s.outcome dstfd pkg.total = .error := by
  rcases s.dispatch_cases pkg srcfd dstfd with
    ⟨-, h⟩ | ⟨a, b, ha, hb, hlen, ⟨k, -, h⟩ | ⟨-, h⟩ | ⟨ho, h⟩⟩ <;> rw [h]
  · exact .inl rfl
  · exact .inl rfl
  · exact .inl rfl
  · by_cases hfd : fd = dstfd
    · exact .inr ⟨hfd, ⟨by simp [map_of_lookup ha], by simp [map_of_lookup hb], hlen⟩, ho⟩
    · -- `check_break_fd` is called for the destination, and leaves the other bridges
      have hown : (((s.relaying pkg srcfd dstfd b).popped dstfd 0 pkg.total).channel b).fd =
          dstfd := by
        simpa [relaying] using hs.fd_eq (map_of_lookup hb)
      simp only
      rw [(freeChannel_steady _ _).bridge, (useIterator_steady _ _).bridge, hown,
        checkBreakFd_bridge _ _ hfd]
      exact .inl rfl

/-! ## Handlers -/

/-- `handle_register_client_req` registers the sender of the request. -/
theorem handleRegisterClientReq_others (s : Server) (pkg : Pkg) :
    (∀ d, s.channelMap[pkg.fd]? ≠ some d →
      ((s.handleRegisterClientReq pkg).1.channel d).type = (s.channel d).type) ∧
    (s.handleRegisterClientReq pkg).1.bridgeMap = s.bridgeMap := by
  have hset : ∀ (c : Slot) (t : ClientType) (d : Slot), s.lookup pkg.fd = some c →
      s.channelMap[pkg.fd]? ≠ some d →
      (((s.enter (.handleRegisterClientReq pkg)).setType c t).channel d).type =
        (s.channel d).type := by
    intro c t d hc hd
    -- only the owner of the request's descriptor gets a type
    have hdc : d ≠ c := by rintro rfl; exact hd (map_of_lookup hc)
    simp [modify_channel_of_ne hdc]
  rcases s.handleRegisterClientReq_cases pkg with ⟨h, -⟩ | ⟨c, t, hc, -, ⟨h, -⟩ | ⟨-, -, h⟩⟩ <;> rw [h]
  · exact ⟨fun _ _ => rfl, rfl⟩
  · have hst := reply_steady ((s.enter (.handleRegisterClientReq pkg)).setType c t) c
      (s.registration pkg c t)
    exact ⟨fun d hd => (hst.type d).trans (hset c t d hc hd), hst.bridge⟩
  · exact ⟨fun d hd => by simpa using hset c t d hc hd, rfl⟩

/-- `handle_choose_server_req` makes a bridge for the sender of the request. -/
theorem handleChooseServerReq_others (s : Server) (pkg : Pkg) :
    (∀ d, ((s.handleChooseServerReq pkg).1.channel d).type = (s.channel d).type) ∧
      ∀ fd, fd ≠ pkg.fd →
        (s.handleChooseServerReq pkg).1.bridgeMap[fd]? = s.bridgeMap[fd]? := by
  have hE : Steady s (s.enter (.handleChooseServerReq pkg)) := ⟨fun _ => rfl, fun _ => rfl, rfl⟩
  rcases s.handleChooseServerReq_cases pkg with ⟨-, h⟩ | ⟨c, d, -, -, h⟩ <;> rw [h]
  · exact ⟨hE.type, fun _ _ => rfl⟩
  · simp only
    clear h
    generalize s.enter (.handleChooseServerReq pkg) = u at *
    have hv := (hE.trans (reply_steady u c (chooseRes (u.channel c).sendCtx.pkg pkg.fd))).trans
      (useIterator_steady _ pkg.chooseFd)
    generalize (u.reply c _).useIterator pkg.chooseFd = v at *
    have hw := (hv.trans (reply_steady v d (startNtf (v.channel d).sendCtx.pkg pkg.fd))).trans
      (useIterator_steady _ pkg.chooseFd)
    refine ⟨hw.type, fun fd hfd => ?_⟩
    rw [Std.ExtTreeMap.getElem?_insertIfNew, if_neg, hw.bridge]
    rintro ⟨heq, -⟩
    exact hfd (Std.LawfulEqCmp.compare_eq_iff_eq.1 heq).symm

/-- A request changes nothing but the type and the bridge of the descriptor it names. -/
theorem handle_others (s : Server) (pkg : Pkg) :
    (∀ d, s.channelMap[pkg.fd]? ≠ some d →
      ((s.handle pkg).1.channel d).type = (s.channel d).type) ∧
    ∀ fd, fd ≠ pkg.fd → (s.handle pkg).1.bridgeMap[fd]? = s.bridgeMap[fd]? := by
  rcases s.handle_cases pkg with heq | heq | heq <;> rw [heq]
  · have h := handleRegisterClientReq_others (s.enter (.handle pkg)) pkg
    exact ⟨h.1, fun fd _ => by rw [h.2]; rfl⟩
  · have h := handleChooseServerReq_others (s.enter (.handle pkg)) pkg
    exact ⟨fun d _ => h.1 d, h.2⟩
  · exact ⟨fun _ _ => rfl, fun _ _ => rfl⟩

/-! ## What is handled -/

theorem handled_of_inner (k : Call) (g : Globals) (l : History) (h : Inner (fun _ => True) k) :
    History.handled ((k, g) :: l) = l.handled := by
  cases k <;> first | rfl | cases h

theorem handle_handled (s : Server) (pkg : Pkg) :
    (s.handle pkg).1.calls.handled = pkg :: s.calls.handled :=
  handle_inner handled_of_inner (fun _ => trivial) (fun _ _ _ => rfl) (fun _ _ _ => rfl) s pkg

/-- What is dispatched is not handled. -/
theorem dispatch_handled (s : Server) (pkg : Pkg) (srcfd dstfd : ℕ) :
    (s.dispatch pkg srcfd dstfd).1.calls.handled = s.calls.handled :=
  dispatch_inner handled_of_inner (fun _ => trivial) s pkg srcfd dstfd

/-! ## A step -/

/-- From `s` to `t` a packet of `dispatch` to `fd` was refused. -/
def Refused (s t : Server) (fd : ℕ) : Prop := ∃ pkg srcfd g l,
  (.dispatch pkg srcfd fd, g) :: l <:+ t.calls ∧ s.calls <:+ l ∧ g.Writes pkg srcfd fd ∧
    g.outcome fd pkg.total = .error

/-- What the packet `p` from the connection `c` does to the others, and whom it acts for. -/
structure ActsAlone (s t : Server) (c : Slot) (p : Pkg) : Prop where
  type : ∀ d, s.Live d → d ≠ c → (t.channel d).type = (s.channel d).type
  bridge : ∀ d, s.Live d → d ≠ c →
    t.bridgeMap[(s.channel d).fd]? = s.bridgeMap[(s.channel d).fd]? ∨
      s.Refused t (s.channel d).fd
  handled : t.calls.handled = s.calls.handled ∨
    p.fd = 0 ∧ t.calls.handled = p.setFd (s.channel c).fd :: s.calls.handled ∧
      (p.setFd (s.channel c).fd).fd = (s.channel c).fd

/-- Nothing was handled, dispatched or registered. -/
theorem ActsAlone.of_steady {c : Slot} {p : Pkg} (h : Steady s t)
    (hc : t.calls.handled = s.calls.handled) : s.ActsAlone t c p :=
  ⟨fun d _ _ => h.type d, fun _ _ _ => .inl (by rw [h.bridge]), .inl hc⟩

theorem dispatch_suffix (s : Server) (pkg : Pkg) (srcfd dstfd : ℕ) :
    (.dispatch pkg srcfd dstfd, s.toGlobals) :: s.calls <:+ (s.dispatch pkg srcfd dstfd).1.calls := by
  rcases s.dispatch_cases pkg srcfd dstfd with
    ⟨-, h⟩ | ⟨a, b, -, -, -, ⟨k, -, h⟩ | ⟨-, h⟩ | ⟨-, h⟩⟩ <;> rw [h]
  · exact List.suffix_rfl
  · exact List.suffix_rfl
  · exact List.suffix_rfl
  · simp only
    refine List.IsSuffix.trans ?_ (List.suffix_cons _ _)
    rw [useIterator_calls]
    exact (List.suffix_cons _ _).trans (checkBreakFd_suffix
      ((s.relaying pkg srcfd dstfd b).popped dstfd 0 pkg.total) _ _)

theorem ActsAlone.congr (h : s.ActsAlone t c p) (ht : Steady t u) (hc : u.calls = t.calls) :
    s.ActsAlone u c p where
  type d hd hdc := (ht.type d).trans (h.type d hd hdc)
  bridge d hd hdc := by
    rw [ht.bridge]
    exact (h.bridge d hd hdc).imp_right fun ⟨pkg, srcfd, g, l, hl, hrest⟩ =>
      ⟨pkg, srcfd, g, l, hc ▸ hl, hrest⟩
  handled := hc ▸ h.handled

/-- The packet that has arrived on `c` is handed over. -/
theorem route_actsAlone (hs : s.Sound) (hc : s.Live c) :
    s.ActsAlone (s.route c) c (s.channel c).recvCtx.pkg := by
  have hown : (s.channel c).recvCtx.io.fd = (s.channel c).fd := (hs.slot c).recvFd
  by_cases h0 : (s.channel c).recvCtx.pkg.fd = 0
  · have hfd : ((s.channel c).recvCtx.pkg.setFd (s.channel c).fd).fd = (s.channel c).fd :=
      Pkg.fd_setFd ((hs.slot c).fd_lt.trans (by decide))
    have hX : ∀ q, Steady s ((s.setRecvPkg c q).enter (.routed c q)) :=
      fun q => ⟨by simp, by simp, rfl⟩
    -- a request: it is stamped with the descriptor of `c`, and acts for it
    rw [route_of_request h0, hown]
    refine ⟨fun d _ hdc => ?_, fun d hd hdc => .inl ?_, .inr ⟨h0, handle_handled .., hfd⟩⟩
    · refine ((handle_others _ _).1 d ?_).trans ((hX _).type d)
      rw [hfd]
      exact fun hm => hdc (Option.some.inj (hm.symm.trans hc))
    · rw [(handle_others _ _).2 _ (by rw [hfd]; exact fd_ne_of_live hd hc hdc), (hX _).bridge]
  · -- a relayed packet: at most the destination loses its bridge, by refusing it
    rw [route_of_relay h0, hown]
    refine ⟨fun d _ _ => dispatch_type .., fun d _ _ => ?_, .inl (dispatch_handled ..)⟩
    rcases dispatch_bridge (s := s.enter (.routed c (s.channel c).recvCtx.pkg)) (hs.enter _)
      (s.channel c).recvCtx.pkg (s.channel c).fd (s.channel c).recvCtx.pkg.fd (s.channel d).fd
      with h | ⟨h, hw, ho⟩
    · exact .inl h
    · rw [h]
      exact .inr ⟨_, _, _, _, dispatch_suffix .., List.suffix_cons _ _, hw, ho⟩

theorem store_steady (s : Server) (c : Slot) (bs : List UInt8) : Steady s (s.store c bs) := by
  unfold store
  simp only
  split <;> refine ⟨?_, ?_, rfl⟩ <;> simp

theorem stored_steady (s : Server) (c : Slot) (bs : List UInt8) (q : ℕ → List SendResult) :
    Steady s (s.stored c bs q) := by
  have hq : Steady s (({ s with results := q } : Server).enter (.serverRecvCb c)) :=
    ⟨fun _ => rfl, fun _ => rfl, rfl⟩
  exact hq.trans (store_steady _ c bs)

/-- What comes before the packet is handed over concerns nobody else. -/
theorem ActsAlone.of_before (ha : t.ActsAlone u c p) (h : Steady s t)
    (hlive : ∀ d, s.Live d → t.Live d) (hc : s.calls <:+ t.calls)
    (hh : t.calls.handled = s.calls.handled) : s.ActsAlone u c p where
  type d hd hdc := (ha.type d (hlive d hd) hdc).trans (h.type d)
  bridge d hd hdc := by
    have hbr := ha.bridge d (hlive d hd) hdc
    rw [h.fd, h.bridge] at hbr
    exact hbr.imp_right fun ⟨pkg, srcfd, g, l, hl, hs, hrest⟩ =>
      ⟨pkg, srcfd, g, l, hl, hc.trans hs, hrest⟩
  handled := by
    rw [← hh, ← h.fd c]
    exact ha.handled

/-- A connection acts for itself, whatever it sends and however it is cut: `pre` and `bs` are what
has arrived of the frame. -/
theorem acts_alone {bs : List UInt8} {q : ℕ → List SendResult} (hr : Reachable s) (hc : s.Live c)
    (h : s.step (.recv c (.data bs) q) = some t) :
    ∃ pre, Pkg.Unfinished pre ∧ s.Assembling c pre ∧
      s.ActsAlone t c (Pkg.filled (pre ++ bs)) := by
  obtain ⟨pre, hun, ha⟩ := assembling_of_reachable hr hc
  refine ⟨pre, hun, ha, ?_⟩
  obtain ⟨hS, hst, hcases⟩ := step_data hr.sound h ha hun
  have hX := stored_steady s c bs q
  have hcalls := stored_calls s c bs q
  have hlive : ∀ d, s.Live d → (s.stored c bs q).Live d := fun d hd => (store_live _ c bs).2 hd
  generalize s.stored c bs q = v at *
  have hhandled : v.calls.handled = s.calls.handled := by
    rw [hcalls]
    rfl
  have hbefore : ∀ u, v.ActsAlone u c (Pkg.filled (pre ++ bs)) →
      s.ActsAlone u c (Pkg.filled (pre ++ bs)) :=
    fun u hu => hu.of_before hX hlive (hcalls ▸ List.suffix_cons _ _) hhandled
  rcases hcases with ⟨-, heq⟩ | ⟨-, -, heq⟩ | ⟨-, -, heq⟩
  · rw [heq]
    exact .of_steady hX hhandled
  · rw [heq]
    -- a packet that is too long ends the connection of `c`, and nothing is handed over
    refine .of_steady ⟨fun d => ?_, fun d => ?_, ?_⟩ hhandled
    · rw [freed_channel_fd, hX.fd]
    · rw [freed_channel]
      split
      · rename_i hdc
        rw [hdc]
        exact hX.type c
      · exact hX.type d
    · exact hX.bridge
  · have hroute := route_actsAlone hS (hlive c hc)
    rw [hst.pkg] at hroute
    rw [heq]
    exact hbefore _ (hroute.congr ⟨by simp, by simp, rfl⟩ rfl)

/-- A remote registers while a raspi is connected; the last event is not in it. -/
def registering : List Event :=
  [.accept 5, .accept 6, .recv 1 (.data (Pkg.encode .registerClientReq 0
    (Buffer.wordBytes ClientType.remote.code) |>.take sizeofHead)) Event.takesAll]

theorem acts_alone_registering : ∃ pre, Pkg.Unfinished pre ∧
    (after registering).Assembling 1 pre ∧
    (after registering).ActsAlone (after (registering ++ [.recv 1 (.data (Buffer.wordBytes
      ClientType.remote.code)) Event.takesAll])) 1
      (Pkg.filled (pre ++ Buffer.wordBytes ClientType.remote.code)) :=
  acts_alone (reachable_after _ (by decide +kernel)) (by decide +kernel)
    (step_after _ _ (by decide +kernel))

end Server
end WawaServer
