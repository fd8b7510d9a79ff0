import WawaServer.Reachable

/-!
# What happens to the bridges

An entry of `bridge_map` is made by `handle_choose_server_req` and erased by `check_break_fd`. Of
all that a callback does, five things matter to the entries, to the connections they are about and
to what the history says of them (`BridgeView`).

A `BridgeLaw` is a condition on an entry and the state, together with why it survives each of them.
It then holds of every entry in every state reached (`BridgeLaw.reachable`), and of the entry
that `check_break_fd` finds whenever it is called (`BridgeLaw.parted`).
-/

namespace WawaServer
namespace Server

variable {s t u : Server} {c d : Slot} {p pkg : Pkg}

/-- What the history says of the connection last accepted under `fd` and of its bridge. -/
def told (l : History) (fd : ℕ) : ℕ × (Conn × Conn) × Option Slot × List Conn :=
  (l.gen fd, l.bridging fd, l.lastChoice fd, l.choices fd)

/-- Same connections, and the same said of them. -/
structure SameConns (s t : Server) : Prop where
  fd : ∀ d, (t.channel d).fd = (s.channel d).fd
  told : ∀ fd, told t.calls fd = told s.calls fd

namespace SameConns

/-- No connection was accepted between the two. -/
theorem gen (h : SameConns s t) (fd : ℕ) : t.calls.gen fd = s.calls.gen fd :=
  (Prod.mk.inj (h.told fd)).1

/-- The connections have the same names. -/
theorem conn (h : SameConns s t) (fd : ℕ) : t.calls.conn fd = s.calls.conn fd := by
  rw [History.conn, h.gen fd]
  rfl

/-- Bridges are between the same connections. -/
theorem bridging (h : SameConns s t) (fd : ℕ) : t.calls.bridging fd = s.calls.bridging fd :=
  (Prod.mk.inj (Prod.mk.inj (h.told fd)).2).1

/-- The last choices are the same. -/
theorem lastChoice (h : SameConns s t) (fd : ℕ) : t.calls.lastChoice fd = s.calls.lastChoice fd :=
  (Prod.mk.inj (Prod.mk.inj (Prod.mk.inj (h.told fd)).2).2).1

/-- All choices are the same. -/
theorem choices (h : SameConns s t) (fd : ℕ) : t.calls.choices fd = s.calls.choices fd :=
  (Prod.mk.inj (Prod.mk.inj (Prod.mk.inj (h.told fd)).2).2).2

end SameConns

/-- The bridges are the same too, and no choose request came. -/
structure SameBridges (s t : Server) : Prop extends SameConns s t where
  map : t.channelMap = s.channelMap
  bridge : t.bridgeMap = s.bridgeMap
  choosing : t.calls.choosing = none ∨ t.calls.choosing = s.calls.choosing

/-- `check_break_fd` erases the entry of `fd`, which led to `r`. -/
inductive Unbridges (s : Server) (fd : ℕ) (r : Slot) : Server → Prop
  | done {t : Server} (h : SameConns s t) (hm : t.channelMap = s.channelMap)
      (hb : t.bridgeMap = s.bridgeMap.erase fd) (hc : t.calls.choosing = none) :
      Unbridges s fd r t
  /-- The RESTART was refused by `c`. -/
  | refused (c : Slot) {u : Server} (hu : u.Sound) (hn : s.Notifies fd r c) (h : SameBridges s u)
      (hc : u.calls.choosing = none) (hbr : u.calls.breaking = some fd) :
      Unbridges s fd r ((u.freed c).unbridged fd r)

/-- An effect, as the bridges see it. -/
inductive BridgeView (s : Server) : Server → Prop
  | same {t : Server} (h : SameBridges s t) : BridgeView s t
  | choose (pkg : Pkg) (h : s.calls.sender = s.calls.conn pkg.fd) :
      BridgeView s (s.enter (.handleChooseServerReq pkg))
  | free (c : Slot) (h : s.Freeable c) (hcl : s.calls.closing = false) : BridgeView s (s.freed c)
  | bridge (fd : ℕ) (d : Slot) (h : Chose s.calls fd d) :
      BridgeView s { s with bridgeMap := s.bridgeMap.insertIfNew fd d }
  | unbridge (fd : ℕ) (r : Slot) {t : Server} (hb : s.bridgeMap[fd]? = some r)
      (h : Unbridges s fd r t) : BridgeView s t

section Unbridges
variable {fd : ℕ} {r : Slot}

/-- The raspi is gone, and gets nothing. -/
theorem Unbridges.lost (s : Server) (fd : ℕ) (r : Slot) (p : Pkg) : Unbridges s fd r
    (((s.enter (.checkBreakFd .remote fd)).enter (.response p)).unbridged fd r) :=
  .done ⟨by simp [unbridged], fun _ => rfl⟩ rfl rfl rfl

/-- The raspi gets a part of the RESTART. -/
theorem Unbridges.cut (s : Server) (fd : ℕ) (r c : Slot) (p : Pkg) (k : ℕ) : Unbridges s fd r
    (((((s.notifying fd c p).wrote p.fd p 0 p.total k).setSendLen c k).startSend c).unbridged
      fd r) :=
  .done ⟨by simp [unbridged, notifying], fun _ => rfl⟩ rfl rfl rfl

/-- The raspi gets the RESTART. -/
theorem Unbridges.sent (s : Server) (fd : ℕ) (r c : Slot) (p : Pkg) : Unbridges s fd r
    ((((s.notifying fd c p).wrote p.fd p 0 p.total p.total).startRecv c).unbridged fd r) :=
  .done ⟨by simp [unbridged, notifying], fun _ => rfl⟩ rfl rfl rfl

/-- The raspi refuses the RESTART and is freed. -/
theorem Unbridges.fail {c : Slot} (hs : s.Sound) (hn : s.Notifies fd r c) (p : Pkg) :
    Unbridges s fd r ((((s.notifying fd c p).popped p.fd 0 p.total).freed c).unbridged fd r) :=
  .refused c ((hs.notifying fd c p).popped ..) hn
    ⟨⟨by simp [notifying], fun _ => rfl⟩, rfl, rfl, .inl rfl⟩ rfl rfl

/-- `check_break_fd` erases the bridge that it finds, however `response` ends. -/
theorem checkBreakFd_unbridges (hs : s.Sound) (hb : s.bridgeMap[fd]? = some r) :
    Unbridges s fd r (s.checkBreakFd .remote fd) := by
  rcases hs.checkBreakFd_cases hb with ⟨-, h⟩ | ⟨c, hn, ⟨k, -, h⟩ | ⟨-, h⟩ | ⟨-, h⟩⟩ <;> rw [h]
  · exact .lost ..
  · exact .cut ..
  · exact .sent ..
  · exact .fail hs hn _

end Unbridges

theorem sameBridges_closed (s : Server) (c : Slot) : SameBridges s (s.enter (.closed c)) :=
  ⟨⟨fun _ => rfl, fun _ => rfl⟩, rfl, rfl, .inl rfl⟩

theorem sameBridges_routed (s : Server) (c : Slot) (p : Pkg) :
    SameBridges s (s.enter (.routed c p)) :=
  ⟨⟨fun _ => rfl, fun _ => rfl⟩, rfl, rfl, .inl rfl⟩

/-- Every effect leaves the bridges, makes one, takes one away or frees a channel. -/
theorem Effect.bridgeView (hs : s.Sound) (he : Effect s t) : BridgeView s t := by
  cases he with
  | log k hk =>
    cases k with
    | handleChooseServerReq pkg => exact .choose pkg hk
    | serverRecvCb _ | handle _ | handleRegisterClientReq _ | checkBreakFd _ _ | dispatch _ _ _ =>
      exact .same ⟨⟨fun _ => rfl, fun _ => rfl⟩, rfl, rfl, .inl rfl⟩
    | _ => cases hk
  | free c h hcl => exact .free c h hcl
  | bridge fd d h => exact .bridge fd d h
  | answers | fail =>
    exact .same ⟨⟨fun _ => rfl, fun _ => rfl⟩, rfl, rfl, .inr rfl⟩
  | breakLost fd r hb => exact .unbridge fd r hb (.lost ..)
  | breakCut fd r c p k hn => exact .unbridge fd r hn.bridge (.cut ..)
  | breakDone fd r c p hn => exact .unbridge fd r hn.bridge (.sent ..)
  | breakFail fd r c p hn => exact .unbridge fd r hn.bridge (.fail hs hn p)
  | replyCut c p k | replyDone c p | replyFail c p | startLost c p =>
    exact .same ⟨⟨by simp [replying], fun _ => rfl⟩, rfl, rfl, .inr rfl⟩
  | _ =>
    exact .same ⟨⟨by simp [relaying, pausing, sending, finishing], fun _ => rfl⟩, rfl, rfl,
      .inl rfl⟩

/-! ## Between the effects -/

/-- When `check_break_fd` is done, or finds no entry, its descriptor has none. -/
def Quiet (s : Server) : Prop := ∀ fd, s.calls.breaking = some fd → s.bridgeMap[fd]? = none

/-- While a bridge is broken, nothing is being closed. -/
theorem closing_of_breaking {l : History} {fd : ℕ} (h : l.breaking = some fd) :
    l.closing = false := by
  cases l with
  | nil => rfl
  | cons k l =>
    obtain ⟨k, g⟩ := k
    cases k with
    | closed c => cases h
    | _ => rfl

/-- No bridge is erased while one is made. -/
theorem breaking_of_choosing {l : History} {e : ℕ × Slot} (h : l.choosing = some e) :
    l.breaking = none := by
  induction l with
  | nil => cases h
  | cons k l ih =>
    obtain ⟨k, g⟩ := k
    cases k with
    | response p => exact ih h
    | freeChannel c | handleChooseServerReq pkg => rfl
    | _ => cases h

/-- Between callbacks nothing is being broken. -/
theorem Quiet.of_none (h : s.calls.breaking = none) : s.Quiet := by
  intro fd hfd
  cases h.symm.trans hfd

theorem Quiet.unbridged {fd : ℕ} (hc : s.calls.breaking = some fd) (r : Slot) :
    (s.unbridged fd r).Quiet := by
  intro fd' h
  obtain rfl : fd = fd' := Option.some.inj (hc.symm.trans h)
  simp [Server.unbridged]

/-- An effect ends what it began. -/
theorem Quiet.effect (h : s.Quiet) (he : Effect s t) : t.Quiet := by
  cases he with
  | log k hk =>
    intro fd hfd
    cases k with
    | checkBreakFd type fd' =>
      cases type with
      | raspi => cases hfd
      | remote =>
        obtain rfl := Option.some.inj hfd
        exact hk rfl
    | response p => cases hk
    | _ => cases hfd
  | bridge fd d hch =>
    intro fd' h
    cases (breaking_of_choosing hch.choosing).symm.trans h
  | breakLost | breakCut | breakDone => exact .unbridged rfl _
  | breakFail => exact .of_none rfl
  | replyCut | replyDone | replyFail | startLost | answers | fail => exact h
  | _ => exact .of_none rfl

/-! ## Laws -/

/-- The entry of `fd`, if any, is erased before the callback ends: `check_break_fd` is about to do
it, or comes next in the answer to the close of a viewer. -/
def Dissolving (s : Server) (c : Slot) (fd : ℕ) : Prop :=
  s.calls.breaking = some fd ∨
    s.calls.closing = true ∧ (s.channel c).type = .remote ∧ (s.channel c).fd = fd

/-- `P` holds of every bridge, and of the one that is being made. -/
structure Lawful (P : Server → ℕ → Slot → Prop) (s : Server) : Prop where
  entry : ∀ (fd : ℕ) (r : Slot), s.bridgeMap[fd]? = some r → P s fd r
  made : ∀ fd d, s.calls.choosing = some (fd, d) → s.bridgeMap[fd]? = none → P s fd d

/-- Between callbacks nobody is being answered. -/
theorem Lawful.of_none {P : Server → ℕ → Slot → Prop}
    (h : ∀ (fd : ℕ) (r : Slot), s.bridgeMap[fd]? = some r → P s fd r)
    (hc : s.calls.choosing = none) : s.Lawful P := by
  refine ⟨h, fun fd d hch => ?_⟩
  cases hc.symm.trans hch

/-- What follows from the property of a bridge holds of the bridges. -/
theorem Lawful.mono {P Q : Server → ℕ → Slot → Prop} (h : s.Lawful P)
    (hPQ : ∀ fd r, P s fd r → Q s fd r) : s.Lawful Q where
  entry fd r hb := hPQ fd r (h.entry fd r hb)
  made fd d hch hb := hPQ fd d (h.made fd d hch hb)

/-- Why `P` holds of every bridge in the runs whose calls meet `G`. -/
structure BridgeLaw (G : Call → Globals → History → Prop) (P : Server → ℕ → Slot → Prop) :
    Prop where
  /-- No connection comes or goes, and no bridge is new. -/
  less : ∀ {s t : Server} {fd : ℕ} {r : Slot}, SameConns s t → t.channelMap = s.channelMap →
    (∀ (fd : ℕ) (r : Slot), t.bridgeMap[fd]? = some r → s.bridgeMap[fd]? = some r) →
      P s fd r → P t fd r
  accepting : ∀ {s : Server} {fd fd' : ℕ} {c r : Slot}, s.Sound → s.Lawful P →
    s.channelMap[fd']? = none → s.freeSlot = some c → G (.acceptCb fd') s.toGlobals s.calls →
      s.bridgeMap[fd]? = some r → P (s.accepting fd' c) fd r
  refusing : ∀ {s : Server} {fd fd' : ℕ} {r : Slot}, s.Lawful P →
    s.channelMap[fd']? = none → G (.acceptCb fd') s.toGlobals s.calls →
      s.bridgeMap[fd]? = some r → P (s.refusing fd') fd r
  /-- A choose request that makes no bridge yet. -/
  chosen : ∀ {s : Server} {pkg : Pkg} {fd : ℕ} {r : Slot}, s.Sound → s.Lawful P →
    G (.handleChooseServerReq pkg) s.toGlobals s.calls → s.bridgeMap[fd]? = some r →
      P (s.enter (.handleChooseServerReq pkg)) fd r
  making : ∀ {s : Server} {pkg : Pkg} {d : Slot}, s.Sound → s.Lawful P →
    G (.handleChooseServerReq pkg) s.toGlobals s.calls →
      s.calls.sender = s.calls.conn pkg.fd → s.chosen pkg = some d → s.bridgeMap[pkg.fd]? = none →
        P (s.enter (.handleChooseServerReq pkg)) pkg.fd d
  freed : ∀ {s : Server} {c : Slot} {fd : ℕ} {r : Slot}, s.Sound → s.Freeable c →
    G (.freeChannel c) s.toGlobals s.calls → P s fd r →
      (s.bridgeMap[fd]? = some r ∧ ¬ s.Dissolving c fd ∨ s.calls.choosing = some (fd, r)) →
        P (s.freed c) fd r
  /-- The entry of `fd'` is made. -/
  bridged : ∀ {s : Server} {fd fd' : ℕ} {r d : Slot}, P s fd r → P s fd' d →
    s.bridgeMap[fd']? = none → s.bridgeMap[fd]? = some r ∨ fd = fd' ∧ r = d →
      P { s with bridgeMap := s.bridgeMap.insertIfNew fd' d } fd r

namespace BridgeLaw
variable {G : Call → Globals → History → Prop} {P : Server → ℕ → Slot → Prop}

/-- What leaves the bridges alone keeps the law. -/
theorem same (h : BridgeLaw G P) (hI : s.Lawful P) (ht : SameBridges s t) : t.Lawful P where
  entry fd r hb := by
    rw [ht.bridge] at hb
    exact h.less ht.toSameConns ht.map (by simp [ht.bridge]) (hI.entry fd r hb)
  made fd d hch hb := by
    rw [ht.bridge] at hb
    rcases ht.choosing with hnone | hsame
    · cases hnone.symm.trans hch
    · exact h.less ht.toSameConns ht.map (by simp [ht.bridge])
        (hI.made fd d (hsame ▸ hch) hb)

/-- A choose request begins, for the connection whose frame it is. -/
theorem choose (h : BridgeLaw G P) (hs : s.Sound) (hI : s.Lawful P)
    (hsender : s.calls.sender = s.calls.conn pkg.fd)
    (hG : G (.handleChooseServerReq pkg) s.toGlobals s.calls) :
    (s.enter (.handleChooseServerReq pkg)).Lawful P where
  entry fd r hb := h.chosen hs hI hG hb
  made fd d hch hb := by
    obtain ⟨d', hd', heq⟩ := Option.map_eq_some_iff.1 hch
    cases heq
    exact h.making hs hI hG hsender hd' hb

/-- A channel is freed whose bridge is not about to be erased. -/
theorem free (h : BridgeLaw G P) (hs : s.Sound) (hI : s.Lawful P) (hc : s.Freeable c)
    (hd : ∀ fd, s.bridgeMap[fd]? ≠ none → ¬ s.Dissolving c fd)
    (hG : G (.freeChannel c) s.toGlobals s.calls) : (s.freed c).Lawful P where
  entry fd r hb := by
    refine h.freed hs hc hG (hI.entry fd r hb) (.inl ⟨hb, hd fd ?_⟩)
    rw [show s.bridgeMap[fd]? = some r from hb]
    exact Option.some_ne_none r
  made fd d hch hb := h.freed hs hc hG (hI.made fd d hch hb) (.inr hch)

/-- `insert` does nothing if the key is there. -/
theorem insertIfNew_of_some {m : Std.ExtTreeMap ℕ Slot} {fd : ℕ} {r : Slot}
    (h : m[fd]? = some r) (d : Slot) : m.insertIfNew fd d = m := by
  ext fd' r'
  rw [Std.ExtTreeMap.getElem?_insertIfNew, if_neg]
  rintro ⟨-, hfd⟩
  exact hfd (Std.ExtTreeMap.mem_iff_isSome_getElem?.2 (by simp [h]))

/-- `insert` adds the entry if the key is not there. -/
theorem getElem?_insertIfNew_of_none {m : Std.ExtTreeMap ℕ Slot} {fd : ℕ} (h : m[fd]? = none)
    (d : Slot) (fd' : ℕ) : (m.insertIfNew fd d)[fd']? = if fd' = fd then some d else m[fd']? := by
  have hmem : fd ∉ m := by
    rw [Std.ExtTreeMap.mem_iff_isSome_getElem?, h]
    simp
  simp only [Std.ExtTreeMap.getElem?_insertIfNew, Std.LawfulEqCmp.compare_eq_iff_eq, hmem,
    not_false_eq_true, and_true, eq_comm (b := fd)]

/-- The bridge that a choose request makes is the one it was asked for. -/
theorem bridge (h : BridgeLaw G P) (hI : s.Lawful P) {fd : ℕ} (hch : Chose s.calls fd d) :
    Lawful P { s with bridgeMap := s.bridgeMap.insertIfNew fd d } := by
  cases hb : s.bridgeMap[fd]? with
  | some r =>
    rw [insertIfNew_of_some hb]
    exact hI
  | none =>
    -- lawful since the choose request was entered
    have hnew := hI.made fd d hch.choosing hb
    constructor
    · intro fd' r hr
      show P { s with bridgeMap := s.bridgeMap.insertIfNew fd d } fd' r
      simp only at hr
      rw [getElem?_insertIfNew_of_none hb] at hr
      split at hr
      · obtain rfl := Option.some.inj hr
        subst fd'
        exact h.bridged hnew hnew hb (.inr ⟨rfl, rfl⟩)
      · exact h.bridged (hI.entry fd' r hr) hnew hb (.inl hr)
    · intro fd' d' hch' hnone
      -- the bridge that was being made is there
      obtain ⟨rfl, rfl⟩ := Prod.mk.inj (Option.some.inj (hch.choosing.symm.trans hch'))
      simp only at hnone
      rw [getElem?_insertIfNew_of_none hb, if_pos rfl] at hnone
      cases hnone

/-- `check_break_fd` on a bridge that need not be lawful: it is gone afterwards. -/
theorem unbridge (h : BridgeLaw G P) {fd : ℕ} {r : Slot}
    (hI : ∀ (fd' : ℕ) (r' : Slot), fd' ≠ fd → s.bridgeMap[fd']? = some r' → P s fd' r')
    (ht : Unbridges s fd r t) (hG : t.Heeds G) : t.Lawful P := by
  have hless : ∀ {b : Std.ExtTreeMap ℕ Slot} (fd' : ℕ) (r' : Slot),
      (b.erase fd)[fd']? = some r' → fd' ≠ fd ∧ b[fd']? = some r' := by
    intro b fd' r' hb
    rw [Std.ExtTreeMap.getElem?_erase] at hb
    split at hb
    · cases hb
    · rename_i hne
      rw [Std.LawfulEqCmp.compare_eq_iff_eq] at hne
      exact ⟨Ne.symm hne, hb⟩
  cases ht with
  | done hc hm hb hch =>
    refine ⟨fun fd' r' hr => ?_, fun _ _ hch' => ?_⟩
    · rw [hb] at hr
      refine h.less hc hm (fun fd r hr => ?_) (hI fd' r' (hless fd' r' hr).1 (hless fd' r' hr).2)
      rw [hb] at hr
      exact (hless fd r hr).2
    · cases hch.symm.trans hch'
  | @refused c u hu hn hsame hch hbr =>
    -- `send` failed, and `response` frees the raspi's connection before the bridge is erased
    have hlive : u.Live c := by
      have hmap : u.channelMap[(s.channel r).fd]? = some c := by
        rw [hsame.map]
        exact hn.live
      exact hu.live hmap
    have hfree : u.Freeable c := ⟨hu.used hlive, .inl hlive⟩
    have hGu : G (.freeChannel c) u.toGlobals u.calls := hG _ _ _ List.suffix_rfl
    refine ⟨fun fd' r' hr => ?_, fun _ _ hch' => ?_⟩
    · obtain ⟨hne, hr⟩ := hless fd' r' hr
      have hP : P u fd' r' := by
        rw [freed_bridgeMap, hsame.bridge] at hr
        exact h.less hsame.toSameConns hsame.map (by simp [hsame.bridge]) (hI fd' r' hne hr)
      have hPf : P (u.freed c) fd' r' := by
        refine h.freed hu hfree hGu hP (.inl ⟨hr, ?_⟩)
        -- the only bridge that is being dissolved is that of `fd`
        rintro (hbr' | ⟨hcl, -⟩)
        · exact hne (Option.some.inj (hbr'.symm.trans hbr))
        · cases hcl.symm.trans (closing_of_breaking hbr)
      refine h.less (s := u.freed c) ⟨?_, fun _ => rfl⟩ rfl
        (fun fd r hr => ?_) hPf
      · simp [unbridged]
      · exact (hless fd r hr).2
    · cases hch.symm.trans hch'

/-- Every effect keeps the law. -/
theorem effect (h : BridgeLaw G P) (hs : s.Sound) (hq : s.Quiet) (hI : s.Lawful P)
    (he : Effect s t) (hG : t.Heeds G) : t.Lawful P := by
  cases he.bridgeView hs with
  | same ht => exact h.same hI ht
  | choose pkg hsender => exact h.choose hs hI hsender (hG _ _ _ List.suffix_rfl)
  | free c hc hcl =>
    refine h.free hs hI hc (fun fd hfd => ?_) (hG _ _ _ List.suffix_rfl)
    rintro (hbr | ⟨hcl', -⟩)
    · -- no bridge is being dissolved between two callbacks
      exact hfd (hq fd hbr)
    · cases hcl.symm.trans hcl'
  | bridge fd d hch => exact h.bridge hI hch
  | unbridge fd r hb ht => exact h.unbridge (fun fd' r' _ => hI.entry fd' r') ht hG

/-- In the answer to a close the bridge of the viewer need not be lawful for a moment. -/
theorem closing (h : BridgeLaw G P) (hs : s.Sound) (hI : s.Lawful P) (hc : s.Freeable c)
    (hG : (s.closing c).Heeds G) : (s.closing c).Lawful P := by
  have hX := hs.enter (.closed c)
  have hIX : (s.enter (.closed c)).Lawful P := h.same hI (sameBridges_closed s c)
  have hGX : G (.freeChannel c) (s.enter (.closed c)).toGlobals (s.enter (.closed c)).calls :=
    hG _ _ _ (closing_suffix hs hc)
  have hlaw : ∀ (fd : ℕ) (r : Slot), s.bridgeMap[fd]? = some r →
      ¬ (s.enter (.closed c)).Dissolving c fd → P ((s.enter (.closed c)).freed c) fd r :=
    fun fd r hb hd => h.freed hX hc hGX (hIX.entry fd r hb) (.inl ⟨hb, hd⟩)
  have heff := closing_effect hs hc
  have hfS := hX.freed hc.1
  -- `check_break_fd` erases the bridge of a viewer, and does nothing for a raspi
  by_cases hd : ∃ r, s.bridgeMap[(s.channel c).fd]? = some r ∧ (s.channel c).type = .remote
  · obtain ⟨r, hb, hty⟩ := hd
    have hub : Unbridges ((s.enter (.closed c)).freed c) (s.channel c).fd r (s.closing c) := by
      rw [Server.closing, hty]
      exact checkBreakFd_unbridges hfS hb
    refine h.unbridge (fun fd' r' hne hb' => hlaw fd' r' hb' ?_) hub hG
    rintro (hbr | ⟨-, -, hfd⟩)
    · cases hbr
    · exact hne hfd.symm
  · have hIf : ((s.enter (.closed c)).freed c).Lawful P := by
      refine h.free hX hIX hc (fun fd hfd => ?_) hGX
      rintro (hbr | ⟨-, hty, rfl⟩)
      · cases hbr
      · obtain ⟨r, hb⟩ := Option.ne_none_iff_exists'.1 hfd
        exact hd ⟨r, hb, hty⟩
    exact h.effect hfS (.of_none rfl) hIf heff hG

/-- Every part of a step keeps the law. -/
theorem keeps (h : BridgeLaw G P) : Keeps G fun s => s.Quiet ∧ s.Lawful P where
  boot := ⟨.of_none rfl, .of_none (by simp [boot]) rfl⟩
  accepting {s fd' c} hs hI _ _ hkey hc hG := by
    refine ⟨.of_none rfl, .of_none (fun fd r hb => ?_) rfl⟩
    exact h.accepting hs hI.2 hkey hc (hG _ _ _ List.suffix_rfl) hb
  refusing {s fd'} hs hI hkey hG := by
    refine ⟨.of_none rfl, .of_none (fun fd r hb => ?_) rfl⟩
    exact h.refusing hI.2 hkey (hG _ _ _ List.suffix_rfl) hb
  effect hs hI he hG := ⟨hI.1.effect he, h.effect hs hI.1 hI.2 he hG⟩
  closing {s c} hs hI hc hG := by
    have hq : ((s.enter (.closed c)).freed c).Quiet := .of_none rfl
    exact ⟨hq.effect (closing_effect hs hc), h.closing hs hI.2 hc hG⟩
  routed c p hs hI := ⟨.of_none rfl, h.same hI.2 (sameBridges_routed _ c p)⟩
  recvPkg c p hI :=
    ⟨hI.1, h.same hI.2 ⟨⟨by simp, fun _ => rfl⟩, rfl, rfl, .inr rfl⟩⟩
  recvLen c n hI :=
    ⟨hI.1, h.same hI.2 ⟨⟨by simp, fun _ => rfl⟩, rfl, rfl, .inr rfl⟩⟩

/-- The law holds of every entry of `bridge_map`. -/
theorem reachable (h : BridgeLaw G P) (hr : Reachable s) (hG : s.Heeds G) : s.Lawful P :=
  (h.keeps.reachable hr hG).2

end BridgeLaw

/-! ## Connections that leave -/

/-- `Q` held of the bridge of every viewer that left, when `check_break_fd` was called for it. -/
def Parted (Q : Server → ℕ → Slot → Prop) (s : Server) : Prop :=
  ∀ fd g l, (.checkBreakFd .remote fd, g) :: l <:+ s.calls → ∀ r : Slot,
    g.bridgeMap[fd]? = some r → Q ⟨g, l⟩ fd r

/-- Between the effects `free_channel` has not been called in answer to a close. -/
theorem Effect.parting_eq (he : Effect s t) (h : s.calls.parting = false) :
    t.calls.parting = false := by
  cases he with
  | log k hk =>
    cases k with
    | freeChannel c => cases hk
    | _ => rfl
  | free c hc hcl => exact hcl
  | bridge | answers | fail => exact h
  | _ => rfl

/-- After `check_break_fd` nobody is parting. -/
theorem checkBreakFd_parting (s : Server) (type : ClientType) (fd : ℕ) :
    (s.checkBreakFd type fd).calls.parting = false := by
  rcases s.checkBreakFd_cases type fd with ⟨-, h⟩ | ⟨r, -, -, h⟩ <;> rw [h]
  · rfl
  · obtain hcalls | ⟨c, g, hcalls⟩ := response_calls (s.enter (.checkBreakFd .remote fd))
      (restartPkg (s.channel r).fd)
    · show History.parting (Server.response _ _).1.calls = false
      rw [hcalls]
      rfl
    · show History.parting (Server.response _ _).1.calls = false
      rw [hcalls]
      rfl

variable {G : Call → Globals → History → Prop} {P Q : Server → ℕ → Slot → Prop}

/-- A call of another function is no parting. -/
theorem Parted.enter {k : Call} (h : s.Parted Q) (hc : t.calls = (k, s.toGlobals) :: s.calls)
    (hk : ∀ fd, k ≠ .checkBreakFd .remote fd) : t.Parted Q := by
  intro fd g l hl r hb
  rw [hc] at hl
  rcases suffix_cons_cases hl with ⟨heq, -, -⟩ | hl
  · exact absurd heq.symm (hk fd)
  · exact h fd g l hl r hb

/-- What is so of a lawful bridge when `check_break_fd` is called first, and what is left of the law
after `free_channel` when it is called in answer to a close. -/
theorem BridgeLaw.parted (h : BridgeLaw G P)
    (hentry : ∀ {s : Server} {fd : ℕ} {r : Slot}, s.calls.parting = false →
      G (.checkBreakFd .remote fd) s.toGlobals s.calls → s.bridgeMap[fd]? = some r → P s fd r →
        Q s fd r)
    (hclosed : ∀ {s : Server} {c r : Slot}, s.Sound → s.Freeable c → s.calls.closing = true →
      G (.freeChannel c) s.toGlobals s.calls → (s.channel c).type = .remote →
        s.bridgeMap[(s.channel c).fd]? = some r → P s (s.channel c).fd r →
          Q (s.freed c) (s.channel c).fd r) :
    Keeps G fun s => ((s.Quiet ∧ s.Lawful P) ∧ s.calls.parting = false) ∧ s.Parted Q where
  boot := ⟨⟨h.keeps.boot, rfl⟩, by simp [Parted, Server.boot]⟩
  accepting hs hI h0 hop hkey hc hG := by
    refine ⟨⟨h.keeps.accepting hs hI.1.1 h0 hop hkey hc hG, rfl⟩, hI.2.enter rfl ?_⟩
    exact fun _ heq => Call.noConfusion heq
  refusing hs hI hkey hG := by
    refine ⟨⟨h.keeps.refusing hs hI.1.1 hkey hG, rfl⟩, hI.2.enter rfl ?_⟩
    exact fun _ heq => Call.noConfusion heq
  effect {s t} hs hI he hG := by
    refine ⟨⟨h.keeps.effect hs hI.1.1 he hG, he.parting_eq hI.1.2⟩, fun fd g l hl r hb => ?_⟩
    have hGk := hG _ g l hl
    rcases he.outer hl trivial with hl | ⟨rfl, rfl⟩
    · exact hI.2 fd g l hl r hb
    · exact hentry hI.1.2 hGk hb (hI.1.1.2.entry fd r hb)
  closing {s c} hs hI hc hG := by
    refine ⟨⟨h.keeps.closing hs hI.1.1 hc hG, checkBreakFd_parting ..⟩, fun fd g l hl r hb => ?_⟩
    have hGX : G (.freeChannel c) (s.enter (.closed c)).toGlobals (s.enter (.closed c)).calls :=
      hG _ _ _ (closing_suffix hs hc)
    rcases (closing_effect hs hc).outer hl trivial with hl' | ⟨rfl, rfl⟩
    · -- a call before the close
      rcases suffix_cons_cases (suffix_of_cons hl' trivial id) with ⟨heq, -, -⟩ | hl'
      · cases heq
      · exact hI.2 fd g l hl' r hb
    · -- the call of `check_break_fd` for the closed connection
      have hown := checkBreakFd_suffix ((s.enter (.closed c)).freed c) (s.channel c).type
        (s.channel c).fd
      have heq := (List.suffix_of_suffix_length_le hl hown le_rfl).eq_of_length rfl
      obtain ⟨hty, hfd⟩ := Call.checkBreakFd.inj (Prod.mk.inj (List.cons.inj heq).1).1
      subst fd
      exact hclosed (hs.enter (.closed c)) hc rfl hGX hty.symm hb
        ((h.same hI.1.1.2 (sameBridges_closed s c)).entry _ r hb)
  routed c p hs hI := by
    refine ⟨⟨h.keeps.routed c p hs hI.1.1, rfl⟩, hI.2.enter rfl ?_⟩
    exact fun _ heq => Call.noConfusion heq
  recvPkg c p hI := ⟨⟨h.keeps.recvPkg c p hI.1.1, hI.1.2⟩, hI.2⟩
  recvLen c n hI := ⟨⟨h.keeps.recvLen c n hI.1.1, hI.1.2⟩, hI.2⟩

/-- A raspi and a viewer connect, and the viewer chooses the raspi. -/
def viewerJoins : List Event :=
  [.accept 5, .accept 6] ++ Event.register 1 .remote Event.takesAll ++
    Event.choose 1 5 Event.takesAll

end Server
end WawaServer
