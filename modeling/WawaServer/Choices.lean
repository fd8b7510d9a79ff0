import WawaServer.Isolation
import WawaServer.Leaving
import WawaServer.Dangling

/-!
# The latest choice

A viewer may choose again. `bridge_map.insert` keeps the entry that is there, so a second choice is
answered and not recorded. In the runs that avoid this every bridge leads to the channel that was
chosen last; where no viewer leaves its bridge behind and no raspi leaves before its viewer, the
RESTART then goes to the connection that was chosen last, and to no other (`latest_choice_wins`).
-/

namespace WawaServer

/-- A viewer that has a bridge chooses the raspi it leads to. -/
def ChoosesAgain : Call → Globals → History → Prop
  | .handleChooseServerReq pkg, g, _ => ∀ d ∈ g.chosen pkg, ∀ r ∈ g.bridgeMap[pkg.fd]?, r = d
  | _, _, _ => True

instance (k : Call) (g : Globals) (l : History) : Decidable (ChoosesAgain k g l) := by
  refine k.casesOn ?_ ?_ ?_ ?_ ?_ ?_ ?_ ?_ ?_ ?_ ?_ ?_ <;> intros <;>
    dsimp only [ChoosesAgain] <;> infer_instance

namespace Server

variable {s t u : Server} {c d r : Slot} {p pkg : Pkg} {fd : ℕ}

/-! ## Viewers that have chosen have a bridge -/

/-- Only `handle_choose_server_req` is a choice, and only `accept_cb` ends those before. -/
theorem lastChoice_of_inner (fd : ℕ) (k : Call) (g : Globals) (l : History)
    (h : Inner (fun _ => True) k) :
    History.lastChoice fd ((k, g) :: l) = l.lastChoice fd := by
  cases k <;> first | rfl | cases h

/-- From `s` to `t`, whoever stays connected keeps its bridge, and has one if its choice was
answered. -/
structure Retains (s t : Server) : Prop where
  live : ∀ fd : ℕ, t.channelMap[fd]? ≠ none → s.channelMap[fd]? ≠ none
  bridge : ∀ fd : ℕ, t.channelMap[fd]? ≠ none → s.bridgeMap[fd]? ≠ none →
    t.bridgeMap[fd]? ≠ none
  choice : ∀ fd : ℕ, t.channelMap[fd]? ≠ none → t.calls.lastChoice fd ≠ none →
    s.calls.lastChoice fd ≠ none ∨ t.bridgeMap[fd]? ≠ none

/-- Retained and retained again. -/
theorem Retains.trans (h : Retains s t) (h' : Retains t u) : Retains s u where
  live fd hl := h.live fd (h'.live fd hl)
  bridge fd hl hb := h'.bridge fd hl (h.bridge fd (h'.live fd hl) hb)
  choice fd hl hc := by
    rcases h'.choice fd hl hc with hc | hb
    · exact (h.choice fd (h'.live fd hl) hc).imp_right (h'.bridge fd hl)
    · exact .inr hb

/-- Where bridges and choices stay as they are, it is enough that nobody is added. -/
theorem Retains.of_eq (hm : ∀ fd : ℕ, t.channelMap[fd]? ≠ none → s.channelMap[fd]? ≠ none)
    (hb : t.bridgeMap = s.bridgeMap)
    (hc : ∀ fd, t.calls.lastChoice fd = s.calls.lastChoice fd) : Retains s t where
  live := hm
  bridge fd _ h := by rwa [hb]
  choice fd _ h := .inl (by rwa [← hc])

/-- One bridge may go, with its viewer. -/
theorem Retains.of_gone (fd : ℕ) (hm : ∀ fd : ℕ, t.channelMap[fd]? ≠ none → s.channelMap[fd]? ≠ none)
    (hb : ∀ fd', fd' ≠ fd → t.bridgeMap[fd']? = s.bridgeMap[fd']?)
    (hgone : t.channelMap[fd]? = none)
    (hc : ∀ fd, t.calls.lastChoice fd = s.calls.lastChoice fd) : Retains s t where
  live := hm
  bridge fd' hl h := by
    rwa [hb fd' fun hfd => hl (hfd ▸ hgone)]
  choice fd _ h := .inl (by rwa [← hc])

/-- `free_channel` adds no entry. -/
theorem freeChannel_map_sub (s : Server) (c : Slot) (fd : ℕ)
    (h : (s.freeChannel c).channelMap[fd]? ≠ none) : s.channelMap[fd]? ≠ none := by
  intro hnone
  apply h
  simp only [freeChannel, close, Std.ExtTreeMap.getElem?_erase]
  split
  · rfl
  · exact hnone

theorem freeChannel_retains (s : Server) (c : Slot) : Retains s (s.freeChannel c) :=
  .of_eq (freeChannel_map_sub s c) rfl fun _ => rfl

/-- `response` frees at most its addressee, whose bridge stays. -/
theorem response_retains (s : Server) (p : Pkg) : Retains s (s.response p).1 := by
  refine .of_eq (fun fd h => ?_) (response_steady s p).bridge fun fd =>
    response_inner (lastChoice_of_inner fd) s trivial
  rcases s.response_cases p with ⟨-, h'⟩ | ⟨c, -, ⟨k, -, h'⟩ | ⟨-, h'⟩ | ⟨-, h'⟩⟩ <;> rw [h'] at h
  · exact h
  · exact h
  · exact h
  · exact freeChannel_map_sub (((s.enter (.response p)).setSendLen c 0).popped p.fd 0 p.total)
      c fd h

theorem reply_retains (s : Server) (c : Slot) (p : Pkg) : Retains s (s.reply c p) := by
  have hX : Retains s (s.setSendPkg c p) := .of_eq (fun _ => id) rfl fun _ => rfl
  exact hX.trans (response_retains _ p)

/-- A fault changes neither bridges nor choices. -/
theorem useIterator_retains (s : Server) (fd : ℕ) : Retains s (s.useIterator fd) := by
  unfold useIterator
  split <;> exact .of_eq (fun _ => id) rfl fun _ => rfl

/-- A registration changes neither bridges nor choices. -/
theorem handleRegisterClientReq_retains (s : Server) (pkg : Pkg) :
    Retains s (s.handleRegisterClientReq pkg).1 := by
  have hset : ∀ c ty, Retains s ((s.enter (.handleRegisterClientReq pkg)).setType c ty) :=
    fun _ _ => .of_eq (fun _ => id) rfl fun _ => rfl
  rcases s.handleRegisterClientReq_cases pkg with ⟨h, -⟩ | ⟨c, ty, -, -, ⟨h, -⟩ | ⟨-, -, h⟩⟩ <;> rw [h]
  · exact .of_eq (fun _ => id) rfl fun _ => rfl
  · exact (hset c ty).trans (reply_retains _ c _)
  · exact (hset c .remote).trans (.of_eq (fun _ => id) rfl fun _ => rfl)

/-- `insert` keeps the entry that is there, and makes one if there is none. -/
theorem insertIfNew_ne_none {m : Std.ExtTreeMap ℕ Slot} {fd fd' : ℕ} (d : Slot)
    (h : m[fd']? ≠ none ∨ fd' = fd) : (m.insertIfNew fd d)[fd']? ≠ none := by
  rw [Std.ExtTreeMap.getElem?_insertIfNew]
  split
  · exact Option.some_ne_none d
  · rename_i hne
    rcases h with h | rfl
    · exact h
    · intro hnone
      exact hne ⟨Std.LawfulEqCmp.compare_eq_iff_eq.2 rfl,
        fun hmem => by simp [Std.ExtTreeMap.mem_iff_isSome_getElem?, hnone] at hmem⟩

/-- An answered choice has a bridge, this one or one made before. -/
theorem handleChooseServerReq_retains (s : Server) (pkg : Pkg) :
    Retains s (s.handleChooseServerReq pkg).1 := by
  have hnone : s.chosen pkg = none → Retains s (s.enter (.handleChooseServerReq pkg)) := by
    intro hch
    refine .of_eq (fun _ => id) rfl fun fd => ?_
    simp [Server.enter, History.lastChoice, hch]
  rcases s.handleChooseServerReq_cases pkg with ⟨hno, heq⟩ | ⟨c, d, hc, hd, heq⟩
  · rw [heq]
    exact hnone (by rcases hno with hno | hno <;> simp [Globals.chosen, hno])
  · -- only the viewer that asks has a choice that it had not
    have hlast : ∀ fd, (s.enter (.handleChooseServerReq pkg)).calls.lastChoice fd ≠ none →
        s.calls.lastChoice fd ≠ none ∨ fd = pkg.fd := by
      intro fd h
      by_cases hfd : pkg.fd = fd
      · exact .inr hfd.symm
      · left
        simpa [Server.enter, History.lastChoice, hfd] using h
    have hm : (s.enter (.handleChooseServerReq pkg)).channelMap = s.channelMap := rfl
    have hb : (s.enter (.handleChooseServerReq pkg)).bridgeMap = s.bridgeMap := rfl
    -- the reply to the viewer, the START for the raspi, and then the bridge
    rw [heq]
    clear heq
    simp only
    generalize s.enter (.handleChooseServerReq pkg) = u at *
    have hv := (reply_retains u c (chooseRes (u.channel c).sendCtx.pkg pkg.fd)).trans
      (useIterator_retains _ pkg.chooseFd)
    generalize (u.reply c _).useIterator pkg.chooseFd = v at *
    have hw := (hv.trans (reply_retains v d (startNtf (v.channel d).sendCtx.pkg pkg.fd))).trans
      (useIterator_retains _ pkg.chooseFd)
    generalize (v.reply d _).useIterator pkg.chooseFd = w at *
    refine ⟨fun fd hl => hm ▸ hw.live fd hl, fun fd hl h => ?_, fun fd hl h => ?_⟩
    · exact insertIfNew_ne_none d (.inl (hw.bridge fd hl (hb ▸ h)))
    · rcases hw.choice fd hl h with h | h
      · exact (hlast fd h).imp_right fun hfd => insertIfNew_ne_none d (.inr hfd)
      · exact .inr (insertIfNew_ne_none d (.inl h))

/-- A choose request makes the bridge of the one that it adds a choice of. -/
theorem handle_retains (s : Server) (pkg : Pkg) : Retains s (s.handle pkg).1 := by
  have henter : Retains s (s.enter (.handle pkg)) := .of_eq (fun _ => id) rfl fun _ => rfl
  rcases s.handle_cases pkg with h | h | h <;> rw [h]
  · exact henter.trans (handleRegisterClientReq_retains _ pkg)
  · exact henter.trans (handleChooseServerReq_retains _ pkg)
  · exact henter

/-- A viewer that is freed after `check_break_fd` loses its bridge, and its connection. -/
theorem breakFree_retains (hs : s.Sound) (hc : (s.channel c).fd ≠ 0) (type : ClientType)
    (ht : t.Sound) (hst : Steady (s.checkBreakFd type (s.channel c).fd) t)
    (hm : t.channelMap = (s.checkBreakFd type (s.channel c).fd).channelMap)
    (hcalls : t.calls = (s.checkBreakFd type (s.channel c).fd).calls) :
    Retains s (t.freeChannel c) := by
  have hfd : (t.channel c).fd = (s.channel c).fd := by
    rw [hst.fd, (checkBreakFd_effect hs type _).fd_eq]
  have hfree := ht.freeChannel_eq (c := c) (hfd ▸ hc)
  refine .of_gone (s.channel c).fd (fun fd h => ?_) (fun fd h => ?_) ?_ fun fd => ?_
  · have hl := freeChannel_map_sub t c fd h
    rw [hm] at hl
    obtain ⟨d, hd⟩ := Option.ne_none_iff_exists'.1 hl
    rw [(checkBreakFd_effect hs type _).map_sub hd]
    exact Option.some_ne_none _
  · rw [(freeChannel_steady t c).bridge, hst.bridge, checkBreakFd_bridge s type h]
  · rw [hfree, freed_channelMap_none]
    exact .inl hfd.symm
  · rw [freeChannel_inner (lastChoice_of_inner fd), hcalls,
      checkBreakFd_inner (lastChoice_of_inner fd) fun _ => trivial]

/-- The bridge that `dispatch` breaks is that of the destination it frees. -/
theorem dispatch_retains (hs : s.Sound) {srcfd dstfd : ℕ} (hfd : pkg.fd = dstfd) :
    Retains s (s.dispatch pkg srcfd dstfd).1 := by
  have henter : Retains s (s.enter (.dispatch pkg srcfd dstfd)) :=
    .of_eq (fun _ => id) rfl fun _ => rfl
  rcases s.dispatch_cases pkg srcfd dstfd with
    ⟨-, h⟩ | ⟨a, b, ha, hb, hlen, ⟨k, -, h⟩ | ⟨-, h⟩ | ⟨ho, h⟩⟩ <;> rw [h]
  · exact henter
  · exact .of_eq (fun _ => id) rfl fun _ => rfl
  · exact .of_eq (fun _ => id) rfl fun _ => rfl
  · -- `send` failed: the destination leaves, and `dispatch` looks it up again
    have hS := hs.effect (.relayFail pkg srcfd dstfd a b (hs.relays ha hb hfd hlen) ho)
    have hX : Retains s ((s.relaying pkg srcfd dstfd b).popped dstfd 0 pkg.total) :=
      .of_eq (fun _ => id) rfl fun _ => rfl
    have hu : (((s.relaying pkg srcfd dstfd b).popped dstfd 0 pkg.total).channel b).fd ≠ 0 := by
      simpa [relaying] using hs.used (map_of_lookup hb)
    simp only
    clear h
    generalize (s.relaying pkg srcfd dstfd b).popped dstfd 0 pkg.total = t at *
    have hC := hS.effect (checkBreakFd_effect hS (t.channel b).type (t.channel b).fd)
    exact hX.trans (breakFree_retains hS hu _ (hC.effects (useIterator_effects _ dstfd))
      (useIterator_steady _ dstfd) (by unfold useIterator; split <;> rfl)
      (useIterator_calls _ dstfd))

theorem route_retains (hs : s.Sound) (c : Slot) : Retains s (s.route c) := by
  by_cases h0 : (s.channel c).recvCtx.pkg.fd = 0
  · rw [route_of_request h0]
    refine Retains.trans ?_ (handle_retains _ _)
    exact .of_eq (fun _ => id) rfl fun _ => rfl
  · rw [route_of_relay h0]
    refine Retains.trans ?_ (dispatch_retains (hs.enter _) rfl)
    exact .of_eq (fun _ => id) rfl fun _ => rfl

theorem closing_retains (hs : s.Sound) (hc : s.Freeable c) : Retains s (s.closing c) := by
  have hX := (hs.enter (.closed c)).freed hc.1
  have hfree : Retains s ((s.enter (.closed c)).freed c) := by
    refine .of_eq (fun fd h hnone => h ?_) rfl fun _ => rfl
    exact (freed_channelMap_none _ c).2 (.inr hnone)
  have hsub : ∀ fd : ℕ, (s.closing c).channelMap[fd]? ≠ none →
      ((s.enter (.closed c)).freed c).channelMap[fd]? ≠ none := by
    intro fd h
    obtain ⟨d, hd⟩ := Option.ne_none_iff_exists'.1 h
    rw [(closing_effect hs hc).map_sub hd]
    exact Option.some_ne_none _
  refine hfree.trans (.of_gone (s.channel c).fd hsub (fun fd h => ?_) ?_ fun fd => ?_)
  · exact checkBreakFd_bridge _ _ h
  · by_contra h
    exact hsub _ h ((freed_channelMap_none _ c).2 (.inl rfl))
  · exact checkBreakFd_inner (lastChoice_of_inner fd) (fun _ => trivial) _ _ _

/-- The bridge that `server_recv_cb` breaks is that of the connection it frees. -/
theorem serverRecvCb_retains (hs : s.Sound) (h : (s.channel c).recvCtx.io.active = true)
    (r : RecvResult) : Retains s (s.serverRecvCb c r) := by
  have hE := hs.enter (.serverRecvCb c)
  have hX : Retains s (s.enter (.serverRecvCb c)) := .of_eq (fun _ => id) rfl fun _ => rfl
  have hfree : (s.enter (.serverRecvCb c)).Freeable c :=
    ⟨(hs.slot c).recvUsed h, .inr (.inr (.inl h))⟩
  have hcases := serverRecvCb_cases hs h r
  generalize s.enter (.serverRecvCb c) = u at *
  rcases hcases with ⟨-, h⟩ | ⟨-, h⟩ | ⟨-, h⟩ | ⟨bs, -, hdata⟩
  · rw [h]
    exact hX.trans (closing_retains hE hfree)
  · rw [h]
    exact hX
  · rw [h]
    exact hX.trans (freeChannel_retains u c)
  · have hst : Retains u (u.store c bs) := by
      refine .of_eq (fun fd hl => ?_) (store_steady u c bs).bridge fun fd => ?_
      · rwa [(store_globals u c bs).1] at hl
      · rw [store_calls]
    rcases hdata with h | h | h <;> rw [h]
    · exact hX.trans hst
    · exact (hX.trans hst).trans (freeChannel_retains _ c)
    · have hS := hE.updates (store_updates u c bs)
      apply ((hX.trans hst).trans (route_retains hS c)).trans
      exact .of_eq (fun _ => id) rfl fun _ => rfl

/-- The bridge that `server_send_cb` breaks is that of the connection it frees. -/
theorem serverSendCb_retains (hs : s.Sound) (h : (s.channel c).sendCtx.io.active = true) :
    Retains s (s.serverSendCb c) := by
  rcases s.serverSendCb_cases c with
    ⟨k, -, heq⟩ | ⟨k, -, -, ⟨-, heq⟩ | ⟨a, -, heq⟩⟩ | ⟨ho, heq⟩ <;> rw [heq]
  · exact .of_eq (fun _ => id) rfl fun _ => rfl
  · exact .of_eq (fun _ => id) rfl fun _ => rfl
  · exact .of_eq (fun _ => id) rfl fun _ => rfl
  · have hS := hs.effect (.sendFail c h ho)
    have hX : Retains s ((s.enter (.serverSendCb c)).popped (s.channel c).fd
        (s.channel c).sendCtx.len (s.sendCount c)) := .of_eq (fun _ => id) rfl fun _ => rfl
    have hu := (hs.slot c).sendUsed h
    simp only
    exact hX.trans (breakFree_retains hS hu _ (hS.effect (checkBreakFd_effect hS _ _))
      ⟨fun _ => rfl, fun _ => rfl, rfl⟩ rfl rfl)

/-- A viewer that is connected and whose choice was answered has a bridge. -/
def ChosenBridged (s : Server) : Prop := ∀ fd : ℕ, s.channelMap[fd]? ≠ none →
  s.calls.lastChoice fd ≠ none → s.bridgeMap[fd]? ≠ none

theorem ChosenBridged.retains (h : s.ChosenBridged) (ht : Retains s t) : t.ChosenBridged := by
  intro fd hl hc
  rcases ht.choice fd hl hc with hc | hb
  · exact ht.bridge fd hl (h fd (ht.live fd hl) hc)
  · exact hb

/-- A new connection has not chosen yet. -/
theorem ChosenBridged.acceptCb (h : s.ChosenBridged) (hkey : s.channelMap[fd]? = none) :
    (s.acceptCb fd).ChosenBridged := by
  have hlast : ∀ fd' : ℕ, (s.acceptCb fd).calls.lastChoice fd' ≠ none →
      fd' ≠ fd ∧ s.calls.lastChoice fd' ≠ none := by
    intro fd' hc
    rw [acceptCb_calls, History.lastChoice] at hc
    split at hc
    · exact absurd rfl hc
    · rename_i hne
      exact ⟨Ne.symm hne, hc⟩
  intro fd' hl hc
  obtain ⟨hne, hc⟩ := hlast fd' hc
  obtain ⟨c, -, heq⟩ | ⟨-, heq⟩ := acceptCb_cases s fd
  · rw [heq, accepting_channelMap hkey, if_neg hne] at hl
    rw [heq]
    exact h fd' hl hc
  · rw [heq] at hl ⊢
    exact h fd' hl hc

/-- One step, by the callback that it is. -/
theorem ChosenBridged.step (h : s.ChosenBridged) (hs : s.Sound) {e : Event}
    (hst : s.step e = some t) : t.ChosenBridged := by
  obtain ⟨-, hen, rfl⟩ := step_eq_some.1 hst
  cases e with
  | accept fd => exact h.acceptCb (hs.key_none hen.2.2)
  | acceptError => exact h
  | recv c r q =>
    exact ChosenBridged.retains (s := { s with results := q }) h
      (serverRecvCb_retains (s := { s with results := q }) (hs.congr rfl rfl rfl) hen.1 r)
  | send c q =>
    exact ChosenBridged.retains (s := { s with results := q }) h
      (serverSendCb_retains (s := { s with results := q }) (hs.congr rfl rfl rfl) hen)

/-- In every run whoever chose, and is there, has a bridge. -/
theorem Reachable.chosenBridged (hr : Reachable s) : s.ChosenBridged := by
  refine Runs.Reaches.induction Server.step (P := ChosenBridged) ?_ (fun t e u ht ih hst => ?_) hr
  · exact fun fd hl => absurd (by simp [boot]) hl
  · exact ih.step (Reachable.sound ht) hst

/-! ## The latest choice -/

/-- The bridge of `fd` leads to the raspi that its connection chose last, if it has chosen. -/
def LeadsToChoice (s : Server) (fd : ℕ) (r : Slot) : Prop :=
  ∀ d, s.calls.lastChoice fd = some d → r = d

/-- A bridge that is made leads to the choice; a later choice must be the same. -/
theorem leadsToChoice_law : BridgeLaw ChoosesAgain LeadsToChoice where
  less hc _ _ h d hd := h d (by rwa [← hc.lastChoice])
  accepting {s fd fd' c r} _ hI _ _ _ hb d hd := by
    have hd : History.lastChoice fd ((.acceptCb fd', s.toGlobals) :: s.calls) = some d := hd
    rw [History.lastChoice] at hd
    split at hd
    · cases hd
    · exact hI.entry fd r hb d hd
  refusing {s fd fd' r} hI _ _ hb d hd := by
    have hd : History.lastChoice fd ((.acceptCb fd', s.toGlobals) :: s.calls) = some d := hd
    rw [History.lastChoice] at hd
    split at hd
    · cases hd
    · exact hI.entry fd r hb d hd
  chosen {s pkg fd r} _ hI hG hb d hd := by
    simp only [Server.enter, History.lastChoice] at hd
    split at hd
    · rename_i hch
      -- the viewer chooses now, and its bridge leads there already
      obtain ⟨rfl, -⟩ := hch
      exact hG d hd r hb
    · -- another viewer chooses
      exact hI.entry fd r hb d hd
  making {s pkg d} _ _ _ _ hd _ d' hd' := by
    simp only [Server.enter, History.lastChoice] at hd'
    rw [if_pos ⟨trivial, by simp [hd]⟩, hd] at hd'
    exact Option.some.inj hd'
  freed _ _ _ h _ := h
  bridged h _ _ _ := h

/-! ## The RESTART -/

/-- An answered choice is among the choices. -/
theorem choices_ne_nil (fd : ℕ) (l : History) : l.choices fd ≠ [] ↔ l.lastChoice fd ≠ none := by
  induction l with
  | nil => simp [History.choices, History.lastChoice]
  | cons k l ih =>
    obtain ⟨k, g⟩ := k
    cases k with
    | acceptCb fd' =>
      simp only [History.choices, History.lastChoice]
      split
      · simp
      · exact ih
    | handleChooseServerReq pkg =>
      simp only [History.choices, History.lastChoice]
      split
      · rename_i hch
        simp [hch.2]
      · exact ih
    | _ => exact ih

/-- The bridge of `fd` is its connection's own, and leads to the connection that it named last. -/
def LeadsToLast (s : Server) (fd : ℕ) (r : Slot) : Prop :=
  s.Chooser fd r ∧ s.LeadsHome fd r ∧
    (s.calls.choices fd).head? = some (s.calls.conn (s.channel r).fd)

/-- What keeps the RESTART on its way to the raspi that was chosen last. -/
def WinsSafe (k : Call) (g : Globals) (l : History) : Prop :=
  ChoosesAgain k g l ∧ LeaveSafe k g l ∧ RaspiStays k g l

/-- An accept does not rename the connections of other descriptors. -/
theorem conn_accepted {fd fd' : ℕ} (g : Globals) (l : History) (h : fd ≠ fd') :
    History.conn ((.acceptCb fd', g) :: l) fd = l.conn fd := by
  simp [History.conn, History.gen, Ne.symm h]

/-- An accept ends the choices of the descriptor's last connection only. -/
theorem choices_accepted {fd fd' : ℕ} (g : Globals) (l : History) (h : fd ≠ fd') :
    History.choices fd ((.acceptCb fd', g) :: l) = l.choices fd := by
  rw [History.choices, if_neg (Ne.symm h)]

theorem Lawful.chooser (h : s.Lawful LeadsToLast) : s.Lawful Chooser :=
  h.mono fun _ _ h => h.1

theorem Lawful.leadsHome (h : s.Lawful LeadsToLast) : s.Lawful LeadsHome :=
  h.mono fun _ _ h => h.2.1

/-- Neither the viewer nor its raspi is the connection that is accepted. -/
theorem LeadsToLast.accepted (h : s.LeadsToLast fd r) {fd' : ℕ} (hkey : s.channelMap[fd']? = none) :
    (History.choices fd ((.acceptCb fd', s.toGlobals) :: s.calls)).head? =
      some (History.conn ((.acceptCb fd', s.toGlobals) :: s.calls) (s.channel r).fd) := by
  rw [choices_accepted _ _ (h.1.accepted hkey), conn_accepted _ _ (h.2.1.accepted hkey)]
  exact h.2.2

/-- The chooser's law and the raspi's, and the choices of the connection besides. -/
theorem leadsToLast_law : BridgeLaw WinsSafe LeadsToLast where
  less {s t fd r} hc hm hb h := by
    refine ⟨chooser_law.less hc hm hb h.1, leadsHome_law.less hc hm hb h.2.1, ?_⟩
    rw [hc.choices, hc.fd, hc.conn]
    exact h.2.2
  accepting {s fd fd' c r} hs hI hkey hfree hG hb := by
    have h := hI.entry fd r hb
    refine ⟨chooser_law.accepting hs hI.chooser hkey hfree hG.2.1 hb,
      leadsHome_law.accepting hs hI.leadsHome hkey hfree hG.2.2 hb, ?_⟩
    -- the raspi is not in the slot that was free
    have hrc : r ≠ c := by
      rintro rfl
      cases (freeSlot_some hfree).symm.trans (hs.map _ _ h.2.1.1).2.2.1
    have hfd : ((s.accepting fd' c).channel r).fd = (s.channel r).fd := by
      rw [accepting_channel, if_neg hrc]
    rw [hfd]
    exact h.accepted hkey
  refusing {s fd fd' r} hI hkey hG hb := by
    refine ⟨chooser_law.refusing hI.chooser hkey hG.2.1 hb,
      leadsHome_law.refusing hI.leadsHome hkey hG.2.2 hb, ?_⟩
    exact (hI.entry fd r hb).accepted hkey
  chosen {s pkg fd r} hs hI hG hb := by
    have h := hI.entry fd r hb
    refine ⟨chooser_law.chosen hs hI.chooser hG.2.1 hb,
      leadsHome_law.chosen hs hI.leadsHome hG.2.2 hb, ?_⟩
    simp only [Server.enter, History.choices]
    split
    · -- the viewer chooses now, the raspi that its bridge leads to
      rename_i hch
      obtain ⟨rfl, hd⟩ := hch
      obtain ⟨d, hd⟩ := Option.ne_none_iff_exists'.1 hd
      obtain rfl := hG.1 d hd r hb
      rw [List.head?_cons, hs.fd_eq (map_of_chosen hd)]
      rfl
    · -- another viewer chooses
      exact h.2.2
  making {s pkg d} hs hI hG hsender hd hb := by
    refine ⟨chooser_law.making hs hI.chooser hG.2.1 hsender hd hb,
      leadsHome_law.making hs hI.leadsHome hG.2.2 hsender hd hb, ?_⟩
    simp only [Server.enter, History.choices]
    rw [if_pos ⟨trivial, by simp [hd]⟩, List.head?_cons, hs.fd_eq (map_of_chosen hd)]
    rfl
  freed {s c fd r} hs hc hG h hcase := by
    refine ⟨chooser_law.freed hs hc hG.2.1 h.1 hcase,
      leadsHome_law.freed hs hc hG.2.2 h.2.1 hcase, ?_⟩
    rw [freed_channel_fd]
    exact h.2.2
  bridged h _ _ _ := h

/-- From `t` to `s`, `response` was called with a RESTART for the connection `κ`, which was there.
-/
def Restarts (t s : Server) (κ : Conn) : Prop :=
  ∃ g l, (.response (restartPkg κ.1), g) :: l <:+ s.calls ∧ t.calls <:+ l ∧
    History.conn l κ.1 = κ ∧ g.channelMap[κ.1]? ≠ none

/-- A connected viewer whose choice was answered has a bridge to the raspi it chose last. When it
leaves, `response` is called with a RESTART for the connection that it chose last; and whenever
`check_break_fd` is called for it, the bridge leads to that connection and no other is written
to. -/
structure LatestChoiceWins (s : Server) : Prop where
  bridge : ∀ fd d, s.channelMap[fd]? ≠ none → s.calls.lastChoice fd = some d →
    s.bridgeMap[fd]? = some d
  restart : ∀ (t : Server) (e : Event), Reachable t → t.step e = some s → ∀ fd : ℕ,
    t.channelMap[fd]? ≠ none → s.channelMap[fd]? = none →
      ∀ κ, (t.calls.choices fd).head? = some κ → t.Restarts s κ
  raspi : ∀ fd g l, (.checkBreakFd .remote fd, g) :: l <:+ s.calls → ∀ r : Slot,
    g.bridgeMap[fd]? = some r →
      (History.choices fd l).head? = some (History.conn l (g.channel r).fd)
  sent : ∀ type fd g l, (.checkBreakFd type fd, g) :: l <:+ s.calls → ∀ fd',
    ((⟨g, l⟩ : Server).checkBreakFd type fd).sent fd' = g.sent fd' ∨
      (History.choices fd l).head? = some (History.conn l fd')

/-- What is known of the bridge when `check_break_fd` is called. -/
def PartsWithLast (s : Server) (fd : ℕ) (r : Slot) : Prop :=
  s.Live r ∧ (s.calls.choices fd).head? = some (s.calls.conn (s.channel r).fd)

/-- Where `check_break_fd` finds a bridge, it leads to the viewer's last choice, which is there. -/
theorem partsWithLast (hr : Reachable s) (hG : s.Heeds WinsSafe) :
    s.Lawful LeadsToLast ∧ s.Parted PartsWithLast := by
  have hkeep := by
    refine leadsToLast_law.parted (Q := PartsWithLast) ?_ ?_
    · exact fun _ _ _ h => ⟨h.2.1.1, h.2.2⟩
    · intro s c r _ _ hcl hG _ hb h
      have hne : (s.channel r).fd ≠ (s.channel c).fd := by
        refine hG.2.2.1 ((s.channel c).fd, r) ?_ fun hbr => ?_
        · rwa [Std.ExtTreeMap.mem_toList_iff_getElem?_eq_some]
        · cases hcl.symm.trans (closing_of_breaking hbr)
      refine ⟨(h.2.1.freed hne).1, ?_⟩
      rw [freed_channel_fd]
      exact h.2.2
  obtain ⟨⟨⟨-, hlaw⟩, -⟩, hpart⟩ := hkeep.reachable hr hG
  exact ⟨hlaw, hpart⟩

/-- The raspi that a viewer chose last is sent a RESTART when the viewer leaves. -/
theorem leaver_restarts (ht : Reachable t) {e : Event} (hst : t.step e = some s)
    (hG : s.Heeds WinsSafe) (hl : t.channelMap[fd]? ≠ none) (hgone : s.channelMap[fd]? = none)
    {κ : Conn} (hκ : (t.calls.choices fd).head? = some κ) : t.Restarts s κ := by
  have hr : Reachable s := Runs.Reaches.snoc Server.step ht hst
  have hGt : t.Heeds WinsSafe := hG.of_suffix (step_calls_suffix ht.sound hst)
  have hLeave : s.Heeds LeaveSafe := fun k g l hk => (hG k g l hk).2.1
  -- the viewer has a bridge, which leads to its last choice
  have hch : t.calls.choices fd ≠ [] := by
    intro hnil
    rw [hnil] at hκ
    cases hκ
  obtain ⟨r, hb⟩ := Option.ne_none_iff_exists'.1
    (ht.chosenBridged fd hl ((choices_ne_nil fd _).1 hch))
  have hlast := ((partsWithLast ht hGt).1.entry fd r hb).2.2
  obtain rfl := Option.some.inj (hκ.symm.trans hlast)
  -- the callback told the channel of the bridge, and the connection was there
  obtain ⟨g, l, hsuf, hts, hbg, hrg, hgen⟩ := (bridge_dissolved hr hLeave ht.sound hst hb hgone).2
  have hlive := ((partsWithLast hr hG).2 fd g l ((List.suffix_cons _ _).trans hsuf) r hbg).1
  refine ⟨g, _, hsuf, hts.trans (List.suffix_cons _ _), ?_, ?_⟩
  · show ((t.channel r).fd, History.gen (t.channel r).fd l) = t.calls.conn (t.channel r).fd
    rw [hgen]
    rfl
  · show g.channelMap[(t.channel r).fd]? ≠ none
    rw [← hrg, show g.channelMap[(g.channel r).fd]? = some r from hlive]
    exact Option.some_ne_none r

/-- A viewer that keeps to its raspi, and leaves no bridge behind, is followed by a RESTART to it.
-/
theorem latest_choice_wins (hr : Reachable s) (hG : s.Heeds ChoosesAgain) (hL : s.Heeds LeaveSafe)
    (hR : s.Heeds RaspiStays) : s.LatestChoiceWins := by
  have hW : s.Heeds WinsSafe := fun k g l hk => ⟨hG k g l hk, hL k g l hk, hR k g l hk⟩
  have hpart := (partsWithLast hr hW).2
  refine ⟨fun fd d hl hd => ?_, fun t e ht hst fd hl hgone κ hκ => ?_,
    fun fd g l hk r hb => (hpart fd g l hk r hb).2, fun type fd g l hk fd' => ?_⟩
  · -- an answered choice has a bridge, and no bridge leads elsewhere
    obtain ⟨r, hb⟩ := Option.ne_none_iff_exists'.1 (hr.chosenBridged fd hl (by simp [hd]))
    rw [hb, (leadsToChoice_law.reachable hr hG).entry fd r hb d hd]
  · exact leaver_restarts ht hst hW hl hgone hκ
  · apply (checkBreakFd_sent (hr.soundCalls _ g l hk) type fd fd').imp_right
    rintro ⟨rfl, r, hb, rfl⟩
    exact (hpart fd g l hk r hb).2

/-- A viewer chooses the same raspi again, and then leaves. -/
def choosesAgain : List Event :=
  viewerJoins ++ Event.choose 1 5 Event.takesAll ++ [.recv 1 .closed Event.takesAll]

theorem latest_choice_wins_choosesAgain : (after choosesAgain).LatestChoiceWins :=
  latest_choice_wins (reachable_after _ (by decide +kernel)) (by decide +kernel)
    (by decide +kernel) (by decide +kernel)

/-- A viewer leaves its raspi for another one. -/
def choosesAnother : List Event :=
  viewerJoins ++ [.accept 7] ++ Event.choose 1 7 Event.takesAll

/-- `insert` does not replace the bridge of the first choice. -/
theorem first_choice_stays : ¬ ∀ s, Reachable s → s.LatestChoiceWins := by
  intro h
  have hbridge := (h _ (reachable_after choosesAnother (by decide +kernel))).bridge 6 2
    (by decide +kernel) (by decide +kernel)
  exact absurd hbridge (by decide +kernel)

end Server
end WawaServer
