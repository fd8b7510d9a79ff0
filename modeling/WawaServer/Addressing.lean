import WawaServer.Answers
import WawaServer.Notices

/-!
# Where a START goes

`handle_choose_server_req` sends the START from the raspi's send buffer and leaves `stHead.fd` as
the last packet there had it. A send buffer names its own connection or descriptor 0, and
`accept` never returns 0, so that the START goes to the raspi that was chosen, or to nobody when
the raspi was never addressed.
-/

namespace WawaServer

/-- The connection that the last choose request named. -/
def History.named : History → Conn
  | [] => (0, 0)
  | (.handleChooseServerReq pkg, _) :: l => conn l pkg.chooseFd
  | _ :: l => named l

/-- The last choose request found the channel `c` under `fd`, which nobody else has been accepted
under since. -/
def History.Names (fd : ℕ) (c : Slot) (l : History) : Prop :=
  l.target = some c ∧ l.conn fd = l.named

namespace Server

variable {s t u : Server} {c d : Slot} {p pkg : Pkg} {fd : ℕ}

/-- If `response` finds a channel for a START, it is that of the connection which the choose
request named. -/
def DeliversStart : Call → Globals → History → Prop
  | .response p, g, l => p.IsStart → ∀ c, g.lookup p.fd = some c → l.Names p.fd c
  | _, _, _ => True

/-! ## Calls that send no START -/

/-- Calls with other packets deliver no START. -/
theorem starts_of_inner (k : Call) (g : Globals) (l : History)
    (h : Inner (fun p => ¬ p.IsStart) k) :
    heedsList DeliversStart ((k, g) :: l) = heedsList DeliversStart l := by
  cases k with
  | response p => exact propext (and_iff_right fun hp => absurd hp h)
  | checkBreakFd | freeChannel => exact propext (and_iff_right trivial)
  | _ => cases h

/-- Only a choose request names anybody. -/
theorem names_of_inner (fd : ℕ) (c : Slot) (k : Call) (g : Globals) (l : History)
    (h : Inner (fun _ => True) k) : History.Names fd c ((k, g) :: l) = l.Names fd c := by
  cases k <;> first | rfl | cases h

/-! ## The handlers -/

/-- A registration delivers its response only. -/
theorem handleRegisterClientReq_starts (pkg : Pkg) (h : heedsList DeliversStart s.calls) :
    heedsList DeliversStart (s.handleRegisterClientReq pkg).1.calls := by
  rcases s.handleRegisterClientReq_cases pkg with ⟨heq, -⟩ | ⟨c, ty, -, -, ⟨heq, -⟩ | ⟨-, -, heq⟩⟩ <;>
    rw [heq]
  · exact ⟨trivial, h⟩
  · have hno := isStart_registration s pkg c ty
    rw [reply_inner starts_of_inner _ c hno]
    exact ⟨trivial, h⟩
  · exact ⟨trivial, h⟩

/-- The START that is built in the send buffer of `d` goes to `d`, if to anybody. -/
theorem startNtf_starts (hs : s.Sound) (hd : s.Live d ∨ s.channelMap[(s.channel d).fd]? = none)
    (hnames : s.calls.Names (s.channel d).fd d) (h : heedsList DeliversStart s.calls)
    (remotefd : ℕ) : heedsList DeliversStart
      (s.reply d (startNtf (s.channel d).sendCtx.pkg remotefd)).calls := by
  have hfd := fd_startNtf (s.channel d).sendCtx.pkg remotefd
  generalize startNtf (s.channel d).sendCtx.pkg remotefd = p at *
  have hp : DeliversStart (.response p) (s.setSendPkg d p).toGlobals s.calls := by
    intro _ c hc
    have hm : s.channelMap[p.fd]? = some c := map_of_lookup (s := s.setSendPkg d p) hc
    -- the buffer does not name nobody, so it names `d`
    have hown : p.fd = (s.channel d).fd := by
      rcases (hs.slot d).pkgFd with ⟨h0, -⟩ | hown
      · exact absurd (hfd.trans h0) (hs.fd_ne_zero hm)
      · exact hfd.trans hown
    rw [hown] at hm ⊢
    rcases hd with hlive | hno
    · obtain rfl : d = c := Option.some.inj (hlive.symm.trans hm)
      exact hnames
    · cases hno.symm.trans hm
  obtain hcalls | ⟨c, g, hcalls⟩ := (s.setSendPkg d p).response_calls p <;> rw [reply, hcalls]
  · exact ⟨hp, h⟩
  · exact ⟨trivial, hp, h⟩

theorem handleChooseServerReq_starts (hs : s.Sound) (pkg : Pkg)
    (h : heedsList DeliversStart s.calls) :
    heedsList DeliversStart (s.handleChooseServerReq pkg).1.calls := by
  have hE : (s.enter (.handleChooseServerReq pkg)).Sound := hs.enter _
  have hlog : heedsList DeliversStart (s.enter (.handleChooseServerReq pkg)).calls := ⟨trivial, h⟩
  rcases s.handleChooseServerReq_cases pkg with ⟨-, heq⟩ | ⟨c, d, hc, hd, heq⟩ <;> rw [heq]
  · exact hlog
  · have hrem : (s.enter (.handleChooseServerReq pkg)).channelMap[pkg.fd]? = some c :=
      map_of_lookup hc
    have hras : (s.enter (.handleChooseServerReq pkg)).channelMap[pkg.chooseFd]? = some d :=
      map_of_lookup hd
    have hnames : (s.enter (.handleChooseServerReq pkg)).calls.Names pkg.chooseFd d := ⟨hras, rfl⟩
    simp only
    generalize s.enter (.handleChooseServerReq pkg) = u at *
    -- the answer to the remote
    have hno := isStart_chooseRes (u.channel c).sendCtx.pkg pkg.fd
    have hrep : u.Replies c (chooseRes (u.channel c).sendCtx.pkg pkg.fd) :=
      ⟨by rw [fd_chooseRes _ pkg.fd_lt]; exact hrem, by rw [len_chooseRes]; decide,
        fun h => absurd h hno⟩
    generalize chooseRes (u.channel c).sendCtx.pkg pkg.fd = q at *
    have hv : heedsList DeliversStart ((u.reply c q).useIterator pkg.chooseFd).calls := by
      rw [useIterator_calls, reply_inner starts_of_inner u c hno]
      exact hlog
    have hnamesv : ((u.reply c q).useIterator pkg.chooseFd).calls.Names pkg.chooseFd d := by
      have hkeep := reply_inner (A := fun _ => True) (names_of_inner pkg.chooseFd d) u c (p := q)
        trivial
      rw [useIterator_calls, hkeep]
      exact hnames
    have heff : Effects u ((u.reply c q).useIterator pkg.chooseFd) :=
      (reply_effects hE hrep).trans (useIterator_effects _ _)
    generalize (u.reply c q).useIterator pkg.chooseFd = v at *
    -- the START to the raspi, which may be gone
    have hvfd : (v.channel d).fd = pkg.chooseFd := (heff.fd_eq d).trans (hE.fd_eq hras)
    rw [useIterator_calls]
    refine startNtf_starts (hE.effects heff) (heff.live_or_gone (hE.live hras)) ?_ hv pkg.fd
    rw [hvfd]
    exact hnamesv

/-- Of the requests only a choose request delivers a START. -/
theorem handle_starts (hs : s.Sound) (pkg : Pkg) (h : heedsList DeliversStart s.calls) :
    heedsList DeliversStart (s.handle pkg).1.calls := by
  have hlog : heedsList DeliversStart (s.enter (.handle pkg)).calls := ⟨trivial, h⟩
  rcases s.handle_cases pkg with heq | heq | heq <;> rw [heq]
  · exact handleRegisterClientReq_starts pkg hlog
  · exact handleChooseServerReq_starts (hs.enter _) pkg hlog
  · exact hlog

/-! ## The callbacks -/

theorem route_starts (hs : s.Sound) (c : Slot) (h : heedsList DeliversStart s.calls) :
    heedsList DeliversStart (s.route c).calls := by
  by_cases h0 : (s.channel c).recvCtx.pkg.fd = 0
  · rw [route_of_request h0]
    exact handle_starts ((hs.setRecvPkg c _).enter _) _ ⟨trivial, h⟩
  · rw [route_of_relay h0, dispatch_inner starts_of_inner not_isStart_restartPkg]
    exact ⟨trivial, trivial, h⟩

/-- `server_recv_cb` delivers the STARTs of the request that it completes. -/
theorem serverRecvCb_starts (hs : s.Sound) (hact : (s.channel c).recvCtx.io.active = true)
    (r : RecvResult) (h : heedsList DeliversStart s.calls) :
    heedsList DeliversStart (s.serverRecvCb c r).calls := by
  have hE := hs.enter (.serverRecvCb c)
  have hlog : heedsList DeliversStart (s.enter (.serverRecvCb c)).calls := ⟨trivial, h⟩
  have hcases := serverRecvCb_cases hs hact r
  generalize s.enter (.serverRecvCb c) = u at *
  rcases hcases with ⟨-, heq⟩ | ⟨-, heq⟩ | ⟨-, heq⟩ | ⟨bs, -, heq | heq | heq⟩ <;> rw [heq]
  · rw [closing, checkBreakFd_inner starts_of_inner not_isStart_restartPkg]
    exact ⟨trivial, trivial, hlog⟩
  · exact hlog
  · rw [freeChannel_inner starts_of_inner]
    exact hlog
  · rw [store_calls]
    exact hlog
  · rw [freeChannel_inner starts_of_inner, store_calls]
    exact hlog
  · apply route_starts (hE.updates (store_updates u c bs)) c
    rw [store_calls]
    exact hlog

/-- Every step delivers its STARTs to those that were named. -/
theorem step_starts (hs : s.Sound) {e : Event} (hst : s.step e = some t)
    (h : heedsList DeliversStart s.calls) : heedsList DeliversStart t.calls := by
  obtain ⟨-, hen, rfl⟩ := step_eq_some.1 hst
  cases e with
  | accept fd =>
    show heedsList DeliversStart (s.acceptCb fd).calls
    rw [acceptCb_calls]
    exact ⟨trivial, h⟩
  | acceptError => exact h
  | recv c r q =>
    exact serverRecvCb_starts (s := { s with results := q }) (hs.congr rfl rfl rfl) hen.1 r h
  | send c q =>
    show heedsList DeliversStart (({ s with results := q } : Server).serverSendCb c).calls
    rw [serverSendCb_inner starts_of_inner not_isStart_restartPkg]
    exact ⟨trivial, h⟩

/-! ## Runs -/

/-- A send buffer never names another connection, and a START goes to the raspi that was chosen or
to nobody. -/
structure NamesOwn (s : Server) : Prop where
  own : ∀ c, s.Live c →
    (s.channel c).sendCtx.pkg.fd = 0 ∨ (s.channel c).sendCtx.pkg.fd = (s.channel c).fd
  starts : s.Heeds DeliversStart

/-- In every run a START finds the connection that was named, or nobody. -/
theorem names_own (hr : Reachable s) : s.NamesOwn where
  own c _ := (hr.sound.slot c).pkgFd.imp_left And.left
  starts := by
    refine heedsList_iff.1 ?_
    refine Runs.Reaches.induction Server.step (P := fun s => heedsList DeliversStart s.calls) ?_
      (fun t e u ht ih hst => step_starts (Reachable.sound ht) hst ih) hr
    show heedsList DeliversStart []
    trivial

/-- The choice of the registered raspi, to its end: the START goes out. -/
theorem names_own_choosing :
    (after (choosing ++ [.recv 1 (.data (Buffer.wordBytes 5)) Event.takesAll])).NamesOwn :=
  names_own (reachable_after _ (by decide +kernel))

end Server
end WawaServer
