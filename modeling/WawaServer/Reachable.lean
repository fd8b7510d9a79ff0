import WawaServer.Decomposition
import Mathlib.Data.List.Infix

/-!
# Reachable states

A callback is a sequence of updates: effects, and writes of `server_recv_cb` to the receive
buffer of its channel. `Keeps` is what an invariant of the server has to be checked on, and
`Keeps.reachable` the induction over runs. The invariant may lean on a condition that every
call of the run meets at its entry.
-/

namespace WawaServer
namespace Server

variable {s t : Server} {c d : Slot} {p : Pkg}

/-- The states the event loop can be in, between callbacks. -/
def Reachable (s : Server) : Prop := Runs.Reaches step boot s

/-- Every call so far met the condition `G` on the globals it was made on, in view of the
calls before it. -/
def Heeds (s : Server) (G : Call → Globals → History → Prop) : Prop :=
  ∀ k g l, (k, g) :: l <:+ s.calls → G k g l

section Guards
variable {G : Call → Globals → History → Prop}

/-- What holds of all calls holds of those made so far. -/
theorem Heeds.of_suffix (h : t.Heeds G) (hs : s.calls <:+ t.calls) : s.Heeds G :=
  fun k g l hl => h k g l (hl.trans hs)

/-- `Heeds`, call by call. -/
def heedsList (G : Call → Globals → History → Prop) : History → Prop
  | [] => True
  | k :: l => G k.1 k.2 l ∧ heedsList G l

/-- The condition is checked call by call. -/
theorem heedsList_iff {l : History} :
    heedsList G l ↔ ∀ k g l', (k, g) :: l' <:+ l → G k g l' := by
  induction l with
  | nil => simp [heedsList]
  | cons k l ih =>
    simp only [heedsList, ih, List.suffix_cons_iff, List.cons.injEq]
    constructor
    · rintro ⟨hk, hl⟩ k' g l' (⟨rfl, rfl⟩ | h)
      · exact hk
      · exact hl k' g l' h
    · intro h
      exact ⟨h k.1 k.2 l (.inl ⟨rfl, rfl⟩), fun k' g l' hl => h k' g l' (.inr hl)⟩

instance [∀ k g l, Decidable (G k g l)] : ∀ l : History, Decidable (heedsList G l)
  | [] => inferInstanceAs (Decidable True)
  | k :: l =>
    have := instDecidableHeedsList l
    inferInstanceAs (Decidable (G k.1 k.2 l ∧ heedsList G l))

instance [∀ k g l, Decidable (G k g l)] : Decidable (s.Heeds G) :=
  decidable_of_iff (heedsList G s.calls) heedsList_iff

end Guards

/-! ## Callbacks as updates -/

/-- `server_recv_cb` after the peer of `c` has closed. -/
def closing (s : Server) (c : Slot) : Server :=
  ((s.enter (.closed c)).freed c).checkBreakFd (s.channel c).type (s.channel c).fd

/-- What the callbacks of `c` are made of: effects and, in `server_recv_cb`, the answer to a
close, writes to the receive buffer, and the hand-over of a packet. -/
inductive Update (c : Slot) (s : Server) : Server → Prop
  | effect {t : Server} (h : Effect s t) : Update c s t
  | closing (h : s.Freeable c) : Update c s (s.closing c)
  | routed (p : Pkg) : Update c s (s.enter (.routed c p))
  | recvPkg (p : Pkg) : Update c s (s.setRecvPkg c p)
  | recvLen (n : ℕ) : Update c s (s.setRecvLen c n)

/-- The updates of one callback, in their order. -/
abbrev Updates (c : Slot) : Server → Server → Prop := Relation.ReflTransGen (Update c)

/-- Freeing and breaking the bridge, after the record that a connection was closed. -/
theorem closing_effect (hs : s.Sound) (h : s.Freeable c) :
    Effect ((s.enter (.closed c)).freed c) (s.closing c) :=
  checkBreakFd_effect ((hs.enter _).freed h.1) _ _

/-- What `server_recv_cb` does with a closed connection is in the record. -/
theorem closing_suffix (hs : s.Sound) (h : s.Freeable c) :
    (.freeChannel c, s.toGlobals) :: (.closed c, s.toGlobals) :: s.calls <:+ (s.closing c).calls :=
  (closing_effect hs h).calls_suffix

/-- A part of a callback is sound. -/
theorem Sound.update (hs : s.Sound) (h : Update c s t) : t.Sound := by
  cases h with
  | effect h => exact hs.effect h
  | closing h => exact ((hs.enter _).freed h.1).effect (closing_effect hs h)
  | routed p => exact hs.enter _
  | recvPkg p => exact hs.setRecvPkg c p
  | recvLen n => exact hs.setRecvLen c n

theorem Sound.updates (hs : s.Sound) (h : Updates c s t) : t.Sound := by
  induction h with
  | refl => exact hs
  | tail _ h ih => exact ih.update h

/-- No call is taken out of the record. -/
theorem Update.calls_suffix (h : Update c s t) (hs : s.Sound) : s.calls <:+ t.calls := by
  cases h with
  | effect h => exact h.calls_suffix
  | closing h =>
    refine List.IsSuffix.trans ?_ (closing_effect hs h).calls_suffix
    simp [List.suffix_cons_iff]
  | routed p => exact List.suffix_cons _ _
  | _ => exact List.suffix_rfl

/-- Induction on the updates. -/
theorem Updates.calls_suffix (h : Updates c s t) (hs : s.Sound) : s.calls <:+ t.calls := by
  induction h with
  | refl => exact List.suffix_rfl
  | tail h' h ih => exact ih.trans (h.calls_suffix (hs.updates h'))

/-- Inside a callback no slot gets another descriptor. -/
theorem Update.fd_eq (h : Update c s t) (hs : s.Sound) (d : Slot) :
    (t.channel d).fd = (s.channel d).fd := by
  cases h with
  | effect h => exact h.fd_eq d
  | closing h => exact ((closing_effect hs h).fd_eq d).trans (freed_channel_fd ..)
  | routed p => rfl
  | _ => simp

/-- Induction on the updates of a callback. -/
theorem Updates.fd_eq (h : Updates c s t) (hs : s.Sound) (d : Slot) :
    (t.channel d).fd = (s.channel d).fd := by
  induction h with
  | refl => rfl
  | tail h' h ih => rw [h.fd_eq (hs.updates h'), ih]

theorem Effect.gen_eq (h : Effect s t) (fd : ℕ) : t.calls.gen fd = s.calls.gen fd := by
  cases h with
  | log k hk => cases k <;> first | rfl | cases hk
  | _ => rfl

/-- Inside a callback nobody is accepted. -/
theorem Update.gen_eq (h : Update c s t) (hs : s.Sound) (fd : ℕ) :
    t.calls.gen fd = s.calls.gen fd := by
  cases h with
  | effect h => exact h.gen_eq fd
  | closing h => exact (closing_effect hs h).gen_eq fd
  | _ => rfl

theorem Updates.gen_eq (h : Updates c s t) (hs : s.Sound) (fd : ℕ) :
    t.calls.gen fd = s.calls.gen fd := by
  induction h with
  | refl => rfl
  | tail h' h ih => exact (h.gen_eq (hs.updates h') fd).trans ih

/-- Effects are updates. -/
theorem Effects.updates (h : Effects s t) (c : Slot) : Updates c s t := by
  induction h with
  | refl => exact .refl
  | tail _ h ih => exact ih.tail (.effect h)

/-- The channel that stores keeps its watchers. -/
theorem store_recvCtx (s : Server) (c : Slot) (bs : List UInt8) :
    ((s.store c bs).channel c).recvCtx = { (s.channel c).recvCtx with
      pkg := Buffer.write (s.channel c).recvCtx.pkg (s.channel c).recvCtx.len bs
      len := (s.channel c).recvCtx.len + bs.length } := by
  unfold store
  simp only
  split <;> simp

/-- Bytes that arrive are no call. -/
@[simp] theorem store_calls (s : Server) (c : Slot) (bs : List UInt8) :
    (s.store c bs).calls = s.calls := by
  unfold store
  simp only
  split <;> rfl

/-- Bytes that arrive are not in a send buffer. -/
theorem store_sendCtx (s : Server) (c d : Slot) (bs : List UInt8) :
    ((s.store c bs).channel d).sendCtx = (s.channel d).sendCtx := by
  unfold store
  simp only
  split <;> simp

/-- Bytes that arrive change no descriptor. -/
theorem store_fd (s : Server) (c d : Slot) (bs : List UInt8) :
    ((s.store c bs).channel d).fd = (s.channel d).fd := by
  unfold store
  simp only
  split <;> simp

/-- Bytes that arrive change neither the map nor anything of the kernel's. -/
theorem store_globals (s : Server) (c : Slot) (bs : List UInt8) :
    (s.store c bs).channelMap = s.channelMap ∧ (s.store c bs).opened = s.opened ∧
      (s.store c bs).sent = s.sent ∧ (s.store c bs).results = s.results := by
  unfold store
  simp only
  split <;> exact ⟨rfl, rfl, rfl, rfl⟩

/-- Who owns its descriptor owns it when bytes arrive. -/
theorem store_live (s : Server) (c : Slot) (bs : List UInt8) :
    (s.store c bs).Live d ↔ s.Live d := by
  unfold store
  simp only
  split <;> simp [Globals.Live]

theorem store_updates (s : Server) (c : Slot) (bs : List UInt8) : Updates c s (s.store c bs) := by
  have hpkg := Update.recvPkg (c := c) (s := s)
    (Buffer.write (s.channel c).recvCtx.pkg (s.channel c).recvCtx.len bs)
  have hlen := Update.recvLen (c := c) (s := s.setRecvPkg c
    (Buffer.write (s.channel c).recvCtx.pkg (s.channel c).recvCtx.len bs))
    ((s.channel c).recvCtx.len + bs.length)
  unfold store
  simp only
  split
  · exact .head hpkg (.head hlen (.single (.effect (.fail _))))
  · exact .head hpkg (.single hlen)

/-- A request is handled for the connection it came from. -/
theorem Sound.sender_request (hs : s.Sound) (c : Slot) (q : Pkg) :
    let u := s.setRecvPkg c (q.setFd (s.channel c).recvCtx.io.fd)
    let v := u.enter (.routed c (u.channel c).recvCtx.pkg)
    v.calls.sender = v.calls.conn (v.channel c).recvCtx.pkg.fd := by
  have hlt : (s.channel c).recvCtx.io.fd < 4294967296 := by
    rw [(hs.slot c).recvFd]
    exact (hs.slot c).fd_lt.trans (by decide)
  simp [History.sender, History.conn, History.gen, Pkg.fd_setFd hlt]

/-- A whole packet is recorded and then handled or relayed. -/
theorem route_updates (hs : s.Sound) (c : Slot) : Updates c s (s.route c) := by
  unfold route
  simp only
  split
  · have hpkg := Update.recvPkg (c := c) (s := s)
      ((s.channel c).recvCtx.pkg.setFd (s.channel c).recvCtx.io.fd)
    have hS := hs.update hpkg
    exact .head hpkg (.head (.routed _)
      ((handle_effects (hS.enter _) (hs.sender_request c _)).updates c))
  · refine .head (.routed (s.channel c).recvCtx.pkg) ?_
    exact (dispatch_effects (hs.enter _) rfl).updates c

/-- The ways through `server_recv_cb`. -/
theorem serverRecvCb_cases (hs : s.Sound) (h : (s.channel c).recvCtx.io.active = true)
    (r : RecvResult) :
    (r = .closed ∧ s.serverRecvCb c r = (s.enter (.serverRecvCb c)).closing c) ∨
    (r = .again ∧ s.serverRecvCb c r = s.enter (.serverRecvCb c)) ∨
    (r = .error ∧ s.serverRecvCb c r = (s.enter (.serverRecvCb c)).freeChannel c) ∨
    ∃ bs, r = .data bs ∧
      (s.serverRecvCb c r = (s.enter (.serverRecvCb c)).store c bs ∨
      s.serverRecvCb c r = ((s.enter (.serverRecvCb c)).store c bs).freeChannel c ∨
      s.serverRecvCb c r = ((((s.enter (.serverRecvCb c)).store c bs).route c).setRecvLen
        c 0).setRecvPkg c Pkg.construct) := by
  have hE := hs.enter (.serverRecvCb c)
  have hact : ((s.enter (.serverRecvCb c)).channel c).recvCtx.io.active = true := h
  unfold serverRecvCb
  simp only
  generalize s.enter (.serverRecvCb c) = u at *
  cases r with
  | closed =>
    -- the freed channel has its descriptor and its type still
    have hfd : (((u.enter (.closed c)).freed c).channel c).recvCtx.io.fd = (u.channel c).fd := by
      rw [freed_channel, if_pos rfl]
      exact (hE.slot c).recvFd
    have hty : (((u.enter (.closed c)).freed c).channel c).type = (u.channel c).type := by
      rw [freed_channel, if_pos rfl]
      rfl
    refine .inl ⟨rfl, ?_⟩
    simp only [closing]
    rw [(hE.enter (.closed c)).freeChannel_eq ((hE.slot c).recvUsed hact), hfd, hty]
  | again => exact .inr (.inl ⟨rfl, startRecv_of_active hact⟩)
  | error => exact .inr (.inr (.inl ⟨rfl, rfl⟩))
  | data bs =>
    have hact' : ((u.store c bs).channel c).recvCtx.io.active = true := by
      rw [store_recvCtx]; exact hact
    refine .inr (.inr (.inr ⟨bs, rfl, ?_⟩))
    simp only
    split
    · exact .inl rfl
    · split
      · exact .inr (.inl rfl)
      · split
        · exact .inl (startRecv_of_active hact')
        · exact .inr (.inr rfl)

theorem serverRecvCb_updates_enter (hs : s.Sound) (h : (s.channel c).recvCtx.io.active = true)
    (r : RecvResult) : Updates c (s.enter (.serverRecvCb c)) (s.serverRecvCb c r) := by
  have hE := hs.enter (.serverRecvCb c)
  have hact : ((s.enter (.serverRecvCb c)).channel c).recvCtx.io.active = true := h
  have hcl : (s.enter (.serverRecvCb c)).calls.closing = false := rfl
  have hcases := serverRecvCb_cases hs h r
  generalize s.enter (.serverRecvCb c) = u at *
  have hfree : u.Freeable c := ⟨(hE.slot c).recvUsed hact, .inr (.inr (.inl hact))⟩
  rcases hcases with ⟨-, h⟩ | ⟨-, h⟩ | ⟨-, h⟩ | ⟨bs, -, hdata⟩
  · rw [h]
    exact .single (.closing hfree)
  · rw [h]
  · rw [h, hE.freeChannel_eq hfree.1]
    exact .single (.effect (.free c hfree hcl))
  · have hst := store_updates u c bs
    have hS := hE.updates hst
    have hact' : ((u.store c bs).channel c).recvCtx.io.active = true := by
      rw [store_recvCtx]; exact hact
    have hcl' : (u.store c bs).calls.closing = false := by rw [store_calls]; exact hcl
    rcases hdata with h | h | h <;> rw [h]
    · exact hst
    · have hu := (hS.slot c).recvUsed hact'
      rw [hS.freeChannel_eq hu]
      exact hst.tail (.effect (.free c ⟨hu, .inr (.inr (.inl hact'))⟩ hcl'))
    · exact ((hst.trans (route_updates hS c)).tail (.recvLen 0)).tail (.recvPkg _)

/-- `server_recv_cb` is recorded and then stores, frees or routes. -/
theorem serverRecvCb_updates (hs : s.Sound) (h : (s.channel c).recvCtx.io.active = true)
    (r : RecvResult) : Updates c s (s.serverRecvCb c r) :=
  .head (.effect (.log (.serverRecvCb c) trivial)) (serverRecvCb_updates_enter hs h r)

/-! ## Steps -/

/-- A step needs a state without fault and an event that can happen. -/
theorem step_eq_some {e : Event} :
    s.step e = some t ↔ s.fault = none ∧ s.Enabled e ∧ s.exec e = t := by
  unfold step
  split
  · rename_i h
    simp [h]
  · rename_i h
    simp only [reduceCtorEq, false_iff]
    exact fun ⟨hf, hen, _⟩ => h ⟨hf, hen⟩

/-- An event that happens is an `accept`, or a sequence of updates of the slot it is about. -/
theorem step_updates (hs : s.Sound) {e : Event} (h : s.step e = some t) :
    (∃ fd, e = .accept fd ∧ s.Enabled (.accept fd) ∧ t = s.acceptCb fd) ∨
      ∀ c, (∀ d ∈ e.recvSlot, d = c) → Updates c s t := by
  obtain ⟨-, hen, rfl⟩ := step_eq_some.1 h
  have hq : ∀ q c, Updates c s { s with results := q } :=
    fun q _ => .single (.effect (.answers q))
  cases e with
  | accept fd => exact .inl ⟨fd, rfl, hen, rfl⟩
  | acceptError => exact .inr fun _ _ => .refl
  | recv c r q =>
    have hS : ({ s with results := q } : Server).Sound := hs.congr rfl rfl rfl
    refine .inr fun d hd => ?_
    -- the callback updates the slot of its event only
    obtain rfl := hd c rfl
    exact (hq q c).trans (serverRecvCb_updates hS hen.1 r)
  | send c q =>
    have hS : ({ s with results := q } : Server).Sound := hs.congr rfl rfl rfl
    exact .inr fun d _ => (hq q d).trans ((serverSendCb_effects hS hen).updates d)

/-- An event that happens is an `accept`, or a sequence of updates. -/
theorem step_cases (hs : s.Sound) {e : Event} (h : s.step e = some t) :
    (∃ fd, e = .accept fd ∧ s.Enabled (.accept fd) ∧ t = s.acceptCb fd) ∨ ∃ c, Updates c s t := by
  refine (step_updates hs h).imp_right fun hu => ⟨e.recvSlot.getD 0, hu _ fun d hd => ?_⟩
  rw [Option.mem_def.1 hd, Option.getD_some]

/-- The slot is free, so that no entry leads there. -/
theorem Sound.accepting (hs : s.Sound) {fd : ℕ} (h0 : 0 < fd) (hlt : fd < 2 ^ 31)
    (hop : s.opened fd = false) (hc : s.freeSlot = some c) : (s.accepting fd c).Sound := by
  have hfree := freeSlot_some hc
  -- descriptors in `channel_map` are open, and `accept` returns one that is not
  have hkey : s.channelMap[fd]? = none := by
    cases hm : s.channelMap[fd]? with
    | none => rfl
    | some d => exact absurd ((hs.map fd d hm).2.2.2) (by simp [hop])
  refine ⟨fun d => ?_, fun fd' d hm => ?_, fun d a ha => ?_⟩
  · rw [accepting_channel]
    split
    · subst d
      exact {
        idx := fun _ => rfl
        fd_lt := hlt
        recvFd := rfl
        sendFd := rfl
        recvUsed := fun _ => Nat.pos_iff_ne_zero.1 h0
        sendUsed := nofun
        len_le := by simp [freshChannel]
        pkgFd := by simp [freshChannel] }
    · exact hs.slot d
  · rw [accepting_channelMap hkey] at hm
    split at hm
    · obtain rfl := Option.some.inj hm
      subst fd'
      rw [accepting_channel, if_pos rfl]
      exact ⟨rfl, Nat.pos_iff_ne_zero.1 h0, rfl, by simp [Server.accepting]⟩
    · rename_i hne
      obtain ⟨h1, h2, h3, h4⟩ := hs.map fd' d hm
      -- the slot of another entry is active, and was not free
      have hdc : d ≠ c := by rintro rfl; rw [hfree] at h3; cases h3
      rw [accepting_channel, if_neg hdc]
      exact ⟨h1, h2, h3, by simpa [Server.accepting, hne] using h4⟩
  · have hd : (s.channel a).fd ≠ 0 := by
      rw [accepting_channel] at ha
      split at ha
      · exact hs.src c a ha
      · exact hs.src d a ha
    rw [accepting_channel]
    split
    · exact Nat.pos_iff_ne_zero.1 h0
    · exact hd

/-- The new descriptor is open, and nobody's. -/
theorem Sound.refusing (hs : s.Sound) (fd : ℕ) : (s.refusing fd).Sound where
  slot := hs.slot
  map fd' c hm := by
    obtain ⟨h1, h2, h3, h4⟩ := hs.map fd' c hm
    refine ⟨h1, h2, h3, ?_⟩
    by_cases hfd : fd' = fd
    · simp [Server.refusing, hfd]
    · simpa [Server.refusing, hfd] using h4
  src := hs.src

/-- `accept_cb` finds a free slot, or faults. -/
theorem acceptCb_cases (s : Server) (fd : ℕ) :
    (∃ c, s.freeSlot = some c ∧ s.acceptCb fd = s.accepting fd c) ∨
      s.freeSlot = none ∧ s.acceptCb fd = s.refusing fd := by
  cases hc : s.freeSlot with
  | none => exact .inr ⟨rfl, acceptCb_of_none hc⟩
  | some c => exact .inl ⟨c, rfl, acceptCb_of_some hc⟩

/-- `accept_cb` calls no function that is recorded. -/
theorem acceptCb_calls (s : Server) (fd : ℕ) :
    (s.acceptCb fd).calls = (.acceptCb fd, s.toGlobals) :: s.calls := by
  obtain ⟨c, -, h⟩ | ⟨-, h⟩ := acceptCb_cases s fd <;> rw [h] <;> rfl

/-- Every step is sound. -/
theorem Sound.step (hs : s.Sound) {e : Event} (h : s.step e = some t) : t.Sound := by
  rcases step_cases hs h with ⟨fd, -, ⟨h0, hlt, hop⟩, rfl⟩ | ⟨c, hu⟩
  · rcases acceptCb_cases s fd with ⟨c, hc, heq⟩ | ⟨-, heq⟩
    · rw [heq]; exact hs.accepting h0 hlt hop hc
    · rw [heq]; exact hs.refusing fd
  · exact hs.updates hu

/-- Every step adds to the record. -/
theorem step_calls_suffix (hs : s.Sound) {e : Event} (h : s.step e = some t) :
    s.calls <:+ t.calls := by
  rcases step_cases hs h with ⟨fd, -, -, rfl⟩ | ⟨c, hu⟩
  · rcases acceptCb_cases s fd with ⟨c, -, heq⟩ | ⟨-, heq⟩ <;> rw [heq] <;>
      exact List.suffix_cons _ _
  · exact hu.calls_suffix hs

/-- Every reachable state is sound. -/
theorem Reachable.sound (h : Reachable s) : s.Sound := by
  obtain ⟨es, hes⟩ := h
  exact Runs.run_invariant step (fun _ _ _ hs hstep => hs.step hstep) hes Sound.boot

/-! ## Invariants -/

/-- What has to be checked of an invariant `I` in runs whose calls meet `G`. -/
structure Keeps (G : Call → Globals → History → Prop) (I : Server → Prop) : Prop where
  boot : I boot
  accepting : ∀ {s : Server} {fd : ℕ} {c : Slot}, s.Sound → I s → 0 < fd → s.opened fd = false →
    s.channelMap[fd]? = none → s.freeSlot = some c → (s.accepting fd c).Heeds G →
      I (s.accepting fd c)
  refusing : ∀ {s : Server} {fd : ℕ}, s.Sound → I s → s.channelMap[fd]? = none →
    (s.refusing fd).Heeds G → I (s.refusing fd)
  effect : ∀ {s t : Server}, s.Sound → I s → Effect s t → t.Heeds G → I t
  closing : ∀ {s : Server} {c : Slot}, s.Sound → I s → s.Freeable c → (s.closing c).Heeds G →
    I (s.closing c)
  routed : ∀ {s : Server} (c : Slot) (p : Pkg), s.Sound → I s → I (s.enter (.routed c p))
  recvPkg : ∀ {s : Server} (c : Slot) (p : Pkg), I s → I (s.setRecvPkg c p)
  recvLen : ∀ {s : Server} (c : Slot) (n : ℕ), I s → I (s.setRecvLen c n)

/-- A descriptor that is closed is nobody's. -/
theorem Sound.key_none (hs : s.Sound) {fd : ℕ} (h : s.opened fd = false) :
    s.channelMap[fd]? = none := by
  cases hm : s.channelMap[fd]? with
  | none => rfl
  | some d => exact absurd ((hs.map fd d hm).2.2.2) (by simp [h])

namespace Keeps

variable {G : Call → Globals → History → Prop} {I : Server → Prop}

/-- What every update keeps, a callback keeps. -/
theorem updates (h : Keeps G I) (hs : s.Sound) (hu : Updates c s t) (hG : t.Heeds G) (hI : I s) :
    I t := by
  induction hu with
  | refl => exact hI
  | @tail u v hsu huv ih =>
    have hS := hs.updates hsu
    have hu := ih (hG.of_suffix (huv.calls_suffix hS))
    cases huv with
    | effect he => exact h.effect hS hu he hG
    | closing hc => exact h.closing hS hu hc hG
    | routed p => exact h.routed c p hS hu
    | recvPkg p => exact h.recvPkg c p hu
    | recvLen n => exact h.recvLen c n hu

/-- What every callback keeps, a step keeps. -/
theorem step (h : Keeps G I) (hs : s.Sound) {e : Event} (hst : s.step e = some t)
    (hG : t.Heeds G) (hI : I s) : I t := by
  rcases step_cases hs hst with ⟨fd, -, ⟨h0, -, hop⟩, rfl⟩ | ⟨c, hu⟩
  · rcases acceptCb_cases s fd with ⟨c, hc, heq⟩ | ⟨-, heq⟩
    · rw [heq] at hG ⊢; exact h.accepting hs hI h0 hop (hs.key_none hop) hc hG
    · rw [heq] at hG ⊢; exact h.refusing hs hI (hs.key_none hop) hG
  · exact h.updates hs hu hG hI

/-- The invariant holds in every state of a run whose calls meet the condition. -/
theorem reachable (h : Keeps G I) (hr : Reachable s) (hG : s.Heeds G) : I s := by
  refine Runs.Reaches.induction Server.step (P := fun s => s.Heeds G → I s)
    (fun _ => h.boot) (fun t e u ht ih hst hG => ?_) hr hG
  have hS : t.Sound := Reachable.sound ht
  exact h.step hS hst hG (ih (hG.of_suffix (step_calls_suffix hS hst)))

end Keeps

/-! ## Runs on given events -/

/-- The state after a list of events. -/
def after (es : List Event) : Server := (Runs.run step boot es).getD boot

/-- A run that goes through reaches its end. -/
theorem reachable_after (es : List Event) (h : (Runs.run step boot es).isSome = true) :
    Reachable (after es) := by
  obtain ⟨s, hs⟩ := Option.isSome_iff_exists.1 h
  exact ⟨es, by rw [after, hs]; rfl⟩

/-- A run goes on from where another one ended. -/
theorem run_after (es fs : List Event) (h : (Runs.run step boot (es ++ fs)).isSome = true) :
    Runs.run step (after es) fs = some (after (es ++ fs)) := by
  obtain ⟨s, hs⟩ := Option.isSome_iff_exists.1 h
  obtain ⟨u, hu, hus⟩ := (Runs.run_append_eq_some step).1 hs
  rw [after, after, hu, hs]
  exact hus

/-- A step goes on from where a run ended. -/
theorem step_after (es : List Event) (e : Event)
    (h : (Runs.run step boot (es ++ [e])).isSome = true) :
    (after es).step e = some (after (es ++ [e])) := by
  obtain ⟨u, hu, hend⟩ := (Runs.run_cons_eq_some step).1 (run_after es [e] h)
  exact hu.trans hend

end Server

namespace Event

/-- The kernel takes all that is sent. -/
def takesAll : ℕ → List SendResult := fun _ => List.replicate 4 (.sent sizeofPkg)

/-- A frame arrives on `c`, the head before the body. -/
def frame (c : Slot) (bytes : List UInt8) (results : ℕ → List SendResult) : List Event :=
  .recv c (.data (bytes.take sizeofHead)) results ::
    if bytes.drop sizeofHead = [] then []
    else [.recv c (.data (bytes.drop sizeofHead)) results]

def register (c : Slot) (t : ClientType) (results : ℕ → List SendResult) : List Event :=
  frame c (Pkg.encode .registerClientReq 0 (Buffer.wordBytes t.code)) results

def choose (c : Slot) (raspifd : ℕ) (results : ℕ → List SendResult) : List Event :=
  frame c (Pkg.encode .chooseServerReq 0 (Buffer.wordBytes raspifd)) results

def stream (c : Slot) (fd : ℕ) (body : List UInt8) (results : ℕ → List SendResult) : List Event :=
  frame c (Pkg.encode .streamDataNtf fd body) results

end Event
end WawaServer
