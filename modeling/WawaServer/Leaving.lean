import WawaServer.Bridges

/-!
# Viewers that leave

A viewer that leaves should take its bridge with it, and the raspi should be told. `free_channel`
does neither; the answer to a close, `dispatch` and `server_send_cb` call `check_break_fd`, which
looks at viewers only. `LeaveSafe` lists the ways out that forget it. Where none of them is taken,
every bridge is that of the live connection which made it (`bridges_dissolve`).
-/

namespace WawaServer

/-- A connection that has a bridge leaves by the close of a viewer, or refuses a RESTART that was
caused by its own leaving; and none leaves while its choose request is answered. -/
def LeaveSafe : Call → Globals → History → Prop
  | .freeChannel c, g, l =>
    (g.bridgeMap[(g.channel c).fd]? ≠ none →
      Server.Dissolving ⟨g, l⟩ c (g.channel c).fd) ∧
      ∀ e ∈ l.choosing, e.1 ≠ (g.channel c).fd
  | _, _, _ => True

instance (s : Server) (c : Slot) (fd : ℕ) : Decidable (s.Dissolving c fd) :=
  inferInstanceAs (Decidable (_ ∨ _ ∧ _ ∧ _))

instance (k : Call) (g : Globals) (l : History) : Decidable (LeaveSafe k g l) := by
  refine k.casesOn ?_ ?_ ?_ ?_ ?_ ?_ ?_ ?_ ?_ ?_ ?_ ?_ <;> intros <;>
    dsimp only [LeaveSafe] <;> infer_instance

namespace Server

variable {s t u : Server} {c d r : Slot} {p pkg : Pkg} {fd : ℕ}

/-! ## The keys of `bridge_map` -/

/-- `fd` is the descriptor of a live connection, the one that made its bridge. -/
def Chooser (s : Server) (fd : ℕ) (_ : Slot) : Prop :=
  s.channelMap[fd]? ≠ none ∧ (s.calls.bridging fd).1 = s.calls.conn fd

/-- `Chooser` reads the viewer's entry and the names of its connection. -/
theorem Chooser.congr (h : s.Chooser fd r) (hm : t.channelMap[fd]? = s.channelMap[fd]?)
    (hg : t.calls.gen fd = s.calls.gen fd)
    (hb : t.calls.bridging fd = s.calls.bridging fd) : t.Chooser fd r := by
  refine ⟨hm ▸ h.1, ?_⟩
  show (t.calls.bridging fd).1 = (fd, t.calls.gen fd)
  rw [hb, hg]
  exact h.2

/-- An accept under another descriptor. -/
theorem Chooser.accepted (h : s.Chooser fd r) {fd' : ℕ} (hkey : s.channelMap[fd']? = none) :
    fd ≠ fd' := by
  rintro rfl
  exact h.1 hkey

/-- Only the connection that chose has the bridge, if it is dissolved when its viewer leaves. -/
theorem chooser_law : BridgeLaw LeaveSafe Chooser where
  less hc hm _ h := h.congr (by rw [hm]) (hc.gen _) (hc.bridging _)
  accepting {s fd fd' c r} _ hI hkey _ _ hb := by
    have h := hI.entry fd r hb
    have hne := h.accepted hkey
    refine h.congr ?_ ?_ rfl
    · rw [accepting_channelMap hkey, if_neg hne]
    · simp [Server.accepting, History.gen, Ne.symm hne]
  refusing {s fd fd' r} hI hkey _ hb := by
    have h := hI.entry fd r hb
    have hne := h.accepted hkey
    refine h.congr rfl ?_ rfl
    simp [Server.refusing, History.gen, Ne.symm hne]
  chosen {s pkg fd r} _ hI _ hb := by
    refine (hI.entry fd r hb).congr rfl rfl ?_
    simp [Server.enter, History.bridging, hb]
  making {s pkg d} _ _ _ hsender hd hb := by
    -- the viewer was looked up, and the request is its own
    have hch : s.chosen pkg ≠ none := by simp [hd]
    refine ⟨fun hm => hch ?_, ?_⟩
    · have hm' : s.channelMap[pkg.fd]? = none := hm
      have hl : s.lookup pkg.fd = none := by simp only [Globals.lookup, hm']
      rw [Globals.chosen, if_pos hl]
    · simp only [Server.enter, History.bridging, hch, hb, ne_eq, not_false_eq_true, and_self,
        ↓reduceIte]
      exact hsender
  freed {s c fd r} _ _ hG h hcase := by
    -- by `LeaveSafe` a viewer with a bridge is freed only while that is dissolved
    have hne : fd ≠ (s.channel c).fd := by
      rintro rfl
      rcases hcase with ⟨hb, hd⟩ | hch
      · exact hd (hG.1 (by simp [hb]))
      · exact hG.2 _ hch rfl
    refine ⟨fun hm => ?_, h.2⟩
    exact ((freed_channelMap_none _ _).1 hm).elim hne h.1
  bridged h _ _ _ := h

/-! ## The RESTART -/

/-- From `s` to `t`, `response` was called with `p`. -/
def Responds (s t : Server) (p : Pkg) : Prop :=
  ∃ g l, (.response p, g) :: l <:+ t.calls ∧ s.calls <:+ l

/-- From `s` to `t`, `check_break_fd` found `r` for `fd` and called `response` with a RESTART for
it, and no connection was accepted before. -/
def Tells (s t : Server) (fd : ℕ) (r : Slot) : Prop :=
  ∃ g l, (.response (restartPkg (s.channel r).fd), g) :: (.checkBreakFd .remote fd, g) :: l <:+
      t.calls ∧ s.calls <:+ l ∧ g.bridgeMap[fd]? = some r ∧
    (g.channel r).fd = (s.channel r).fd ∧ ∀ fd', History.gen fd' l = s.calls.gen fd'

theorem Tells.responds (h : s.Tells t fd r) : s.Responds t (restartPkg (s.channel r).fd) := by
  obtain ⟨g, l, hl, hs, -⟩ := h
  exact ⟨g, _, hl, hs.trans (List.suffix_cons _ _)⟩

/-- What was told stays told. -/
theorem Tells.of_suffix (h : s.Tells t fd r) (hu : t.calls <:+ u.calls) : s.Tells u fd r := by
  obtain ⟨g, l, hl, hs⟩ := h
  exact ⟨g, l, hl.trans hu, hs⟩

/-- What was told later was told since an earlier point of the callback. -/
theorem Tells.since (h : t.Tells u fd r) (hs : s.calls <:+ t.calls)
    (hfd : (t.channel r).fd = (s.channel r).fd) (hgen : ∀ fd', t.calls.gen fd' = s.calls.gen fd') :
    s.Tells u fd r := by
  obtain ⟨g, l, hl, ht, hb, hr, hg⟩ := h
  rw [hfd] at hl hr
  exact ⟨g, l, hl, hs.trans ht, hb, hr, fun fd' => (hg fd').trans (hgen fd')⟩

/-- A bridge stays, or the raspi it leads to is sent a RESTART. -/
theorem Effect.bridge_kept (he : Effect s t) (hb : s.bridgeMap[fd]? = some r) :
    t.bridgeMap[fd]? = some r ∨ s.Tells t fd r := by
  -- `check_break_fd` erases the bridge of `fd'`, and has sent a RESTART by then
  have herase : ∀ {fd' : ℕ} {r' : Slot} {u : Server}, s.bridgeMap[fd']? = some r' →
      u.bridgeMap = s.bridgeMap → s.Tells u fd' r' →
        (u.unbridged fd' r').bridgeMap[fd]? = some r ∨ s.Tells (u.unbridged fd' r') fd r := by
    intro fd' r' u hb' hu hsend
    by_cases hfd : fd' = fd
    · subst hfd
      obtain rfl := Option.some.inj (hb'.symm.trans hb)
      exact .inr hsend
    · left
      show (u.bridgeMap.erase fd')[fd]? = some r
      rw [hu, Std.ExtTreeMap.getElem?_erase, if_neg]
      · exact hb
      · rwa [Std.LawfulEqCmp.compare_eq_iff_eq]
  cases he with
  | breakLost fd' r' hb' =>
    exact herase hb' rfl ⟨_, _, List.suffix_rfl, List.suffix_rfl, hb', rfl, fun _ => rfl⟩
  | breakCut fd' r' c p k hn hp | breakDone fd' r' c p hn hp =>
    subst hp
    exact herase hn.bridge rfl
      ⟨_, _, List.suffix_rfl, List.suffix_rfl, hn.bridge, rfl, fun _ => rfl⟩
  | breakFail fd' r' c p hn hp =>
    subst hp
    exact herase hn.bridge rfl
      ⟨_, _, List.suffix_cons _ _, List.suffix_rfl, hn.bridge, rfl, fun _ => rfl⟩
  | bridge fd' d =>
    left
    show (s.bridgeMap.insertIfNew fd' d)[fd]? = some r
    rw [Std.ExtTreeMap.getElem?_insertIfNew, if_neg]
    · exact hb
    · rintro ⟨heq, hnot⟩
      rw [Std.LawfulEqCmp.compare_eq_iff_eq] at heq
      subst heq
      exact hnot (Std.ExtTreeMap.mem_iff_isSome_getElem?.2 (by simp [hb]))
  | _ => exact .inl hb

/-- An update keeps a bridge, or `check_break_fd` was called for it. -/
theorem Update.bridge_kept (hs : s.Sound) (hu : Update c s t) (hb : s.bridgeMap[fd]? = some r) :
    t.bridgeMap[fd]? = some r ∨ s.Tells t fd r := by
  cases hu with
  | effect he => exact he.bridge_kept hb
  | closing hc =>
    have hb' : ((s.enter (.closed c)).freed c).bridgeMap[fd]? = some r := hb
    apply ((closing_effect hs hc).bridge_kept hb').imp_right
    intro h
    apply h.since
    · exact (List.suffix_cons _ _).trans (List.suffix_cons _ _)
    · exact freed_channel_fd ..
    · exact fun _ => rfl
  | _ => exact .inl hb

/-- Induction on the updates; the first that takes the bridge away tells its raspi. -/
theorem Updates.bridge_kept (hs : s.Sound) (hu : Updates c s t)
    (hb : s.bridgeMap[fd]? = some r) : t.bridgeMap[fd]? = some r ∨ s.Tells t fd r := by
  induction hu with
  | refl => exact .inl hb
  | @tail u v hsu huv ih =>
    have hU := hs.updates hsu
    rcases ih with hu | hsent
    · apply (huv.bridge_kept hU hu).imp_right
      intro h
      exact h.since (Updates.calls_suffix hsu hs) (Updates.fd_eq hsu hs r) (Updates.gen_eq hsu hs)
    · exact .inr (hsent.of_suffix (huv.calls_suffix hU))

/-- A step keeps a bridge, or its raspi was told. -/
theorem step_bridge_kept (hs : s.Sound) {e : Event} (h : s.step e = some t)
    (hb : s.bridgeMap[fd]? = some r) : t.bridgeMap[fd]? = some r ∨ s.Tells t fd r := by
  rcases step_cases hs h with ⟨fd', -, -, rfl⟩ | ⟨c, hu⟩
  · obtain ⟨c, -, heq⟩ | ⟨-, heq⟩ := acceptCb_cases s fd' <;> rw [heq] <;> exact .inl hb
  · exact hu.bridge_kept hs hb

/-- The bridge of a connection that is gone after the callback was dissolved in it. -/
theorem bridge_dissolved (hr : Reachable s) (hG : s.Heeds LeaveSafe) (ht : t.Sound) {e : Event}
    (hst : t.step e = some s) (hb : t.bridgeMap[fd]? = some r) (hgone : s.channelMap[fd]? = none) :
    s.bridgeMap[fd]? = none ∧ t.Tells s fd r := by
  have hnone : s.bridgeMap[fd]? = none := by
    cases hb' : s.bridgeMap[fd]? with
    | none => rfl
    | some r' => exact absurd hgone ((chooser_law.reachable hr hG).entry fd r' hb').1
  refine ⟨hnone, ?_⟩
  rcases step_bridge_kept ht hst hb with hkept | hsent
  · cases hnone.symm.trans hkept
  · exact hsent

/-! ## Viewers that leave -/

/-- The bridge of a connection that leaves goes with it, and `response` is called with a RESTART
for the raspi. -/
def Dissolves (s t : Server) : Prop := ∀ (fd : ℕ) (r : Slot), s.bridgeMap[fd]? = some r →
  s.channelMap[fd]? ≠ none → t.channelMap[fd]? = none →
    t.bridgeMap[fd]? = none ∧ s.Responds t (restartPkg (s.channel r).fd)

/-- Every bridge is that of the live connection which made it, and the last callback dissolved the
bridges of those that left. -/
structure BridgesDissolve (s : Server) : Prop where
  key : ∀ (fd : ℕ) (r : Slot), s.bridgeMap[fd]? = some r →
    s.channelMap[fd]? ≠ none ∧ (s.calls.bridging fd).1 = s.calls.conn fd
  step : ∀ (t : Server) (e : Event), Reachable t → t.step e = some s → t.Dissolves s

/-- In the runs where nobody leaves a bridge behind, a bridge goes with its viewer. -/
theorem bridges_dissolve (hr : Reachable s) (hG : s.Heeds LeaveSafe) : s.BridgesDissolve := by
  refine ⟨(chooser_law.reachable hr hG).entry, fun t e ht hst fd r hb _ hgone => ?_⟩
  exact (bridge_dissolved hr hG ht.sound hst hb hgone).imp_right Tells.responds

def viewerCloses : List Event := viewerJoins ++ [.recv 1 .closed Event.takesAll]

theorem bridges_dissolve_viewerCloses : (after viewerCloses).BridgesDissolve :=
  bridges_dissolve (reachable_after _ (by decide +kernel)) (by decide +kernel)

/-- The connection of the viewer is reset. -/
def viewerReset : List Event := viewerJoins ++ [.recv 1 .error Event.takesAll]

theorem bridge_left_behind : ¬ ∀ s, Reachable s → s.BridgesDissolve := by
  intro h
  have hkey := (h _ (reachable_after viewerReset (by decide +kernel))).key 6 0 (by decide +kernel)
  exact absurd hkey.1 (by decide +kernel)

end Server
end WawaServer
