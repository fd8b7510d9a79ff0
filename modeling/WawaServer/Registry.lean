import WawaServer.Descriptors

/-!
# The registry

`type` is set by `handle_register_client_req` and by nobody else: a connection that has not
registered has the type that was declared last on its slot, which for a slot nobody registered on is
`CTYPE_RASPI`. So the type tells a raspi exactly where no connection is left with the type of an
earlier one (`registry_truthful`).
-/

namespace WawaServer

namespace Pkg

/-- `stRegisterClientRes.fd` -/
def raspiFds (p : Pkg) : List ℕ := (List.range 8).map p.raspiFd

variable {p : Pkg} {fds : List ℕ} {i j : ℕ}

/-- The list in the response has eight places. -/
@[simp] theorem length_raspiFds (p : Pkg) : p.raspiFds.length = 8 := by
  rw [raspiFds, List.length_map, List.length_range]

/-- They are the words of the body after the result. -/
theorem getElem_raspiFds (p : Pkg) (h : i < p.raspiFds.length) :
    p.raspiFds[i] = p.raspiFd i := by
  simp [raspiFds]

/-- The places before the list stay as they are. -/
theorem raspiFd_setRaspiFds_of_lt (p : Pkg) (fds : List ℕ) (h : j < i) :
    (p.setRaspiFds i fds).raspiFd j = p.raspiFd j := by
  induction fds generalizing p i with
  | nil => rfl
  | cons fd fds ih =>
    rw [setRaspiFds, ih _ (h.trans (Nat.lt_succ_self i))]
    exact Buffer.word_setWord_of_outside _ _ _ (.inl (by omega))

/-- The list is read back from its places, and the ones after it stay as they are. -/
theorem raspiFd_setRaspiFds (p : Pkg) (hfds : ∀ x ∈ fds, x < 4294967296) (hi : i + fds.length ≤ 8)
    (hij : i ≤ j) : (p.setRaspiFds i fds).raspiFd j = (fds[j - i]?).getD (p.raspiFd j) := by
  induction fds generalizing p i with
  | nil => rfl
  | cons fd fds ih =>
    rw [List.length_cons] at hi
    rw [setRaspiFds]
    rcases hij.eq_or_lt with rfl | hlt
    · -- the entry that is written first
      rw [raspiFd_setRaspiFds_of_lt _ _ (Nat.lt_succ_self i), Nat.sub_self]
      exact Buffer.word_setWord_self _ _ _ (by simp only [sizeofPkg]; omega)
        (hfds fd List.mem_cons_self)
    · have hold : (p.setRaspiFd i fd).raspiFd j = p.raspiFd j :=
        Buffer.word_setWord_of_outside _ _ _ (.inr (by omega))
      rw [ih _ (fun x hx => hfds x (List.mem_cons_of_mem fd hx)) (by omega) (by omega), hold,
        show j - i = j - (i + 1) + 1 by omega, List.getElem?_cons_succ]

/-- The entries that are not written stay. -/
theorem raspiFds_setRaspiFds (p : Pkg) (hfds : ∀ x ∈ fds, x < 4294967296) (hlen : fds.length ≤ 8) :
    (p.setRaspiFds 0 fds).raspiFds = fds ++ p.raspiFds.drop fds.length := by
  apply List.ext_getElem
  · simp only [length_raspiFds, List.length_append, List.length_drop]
    omega
  · intro j hj hj'
    rw [getElem_raspiFds, raspiFd_setRaspiFds p hfds (by omega) (Nat.zero_le j), Nat.sub_zero]
    by_cases hlt : j < fds.length
    · rw [List.getElem_append_left hlt, List.getElem?_eq_getElem hlt]
      rfl
    · rw [List.getElem_append_right (not_lt.1 hlt), List.getElem_drop, getElem_raspiFds,
        List.getElem?_eq_none (not_lt.1 hlt), Option.getD_none]
      congr 1
      omega

end Pkg

namespace Server

variable {s t : Server} {c d : Slot} {p pkg : Pkg} {fd x : ℕ} {ty : ClientType}

/-- A client type that the source knows is registered. -/
theorem registers_of_code (h : pkg.clientType = ty.code) : pkg.registers = some ty := by
  unfold Pkg.registers
  rw [h]
  cases ty <;> rfl

/-- What the types say. -/
structure Typed (s : Server) : Prop where
  /-- A type is the one that was declared last on the slot. -/
  slot : ∀ c, (s.channel c).type = s.calls.slotType c
  /-- A connection that has registered has the type it declared. -/
  own : ∀ c ty, s.Live c → s.calls.registered (s.channel c).fd = some ty →
    (s.channel c).type = ty

/-- `Typed` reads the types and what was registered on the slots and by the connections. -/
theorem Typed.congr (h : s.Typed) (hty : ∀ d, (t.channel d).type = (s.channel d).type)
    (hslot : ∀ d, t.calls.slotType d = s.calls.slotType d)
    (hown : ∀ d, t.Live d → s.Live d ∧ (t.channel d).fd = (s.channel d).fd ∧
      t.calls.registered (s.channel d).fd = s.calls.registered (s.channel d).fd) : t.Typed := by
  refine ⟨fun d => ?_, fun d ty hd hreg => ?_⟩
  · rw [hty, hslot]
    exact h.slot d
  · obtain ⟨hl, hfd, hr⟩ := hown d hd
    rw [hfd, hr] at hreg
    rw [hty]
    exact h.own d ty hl hreg

/-- A connection registers. -/
theorem Typed.register (h : s.Typed) (hs : s.Sound) (hm : s.channelMap[pkg.fd]? = some c)
    (hreg : pkg.registers = some ty)
    (hc : t.calls = (.handleRegisterClientReq pkg, s.toGlobals) :: s.calls)
    (hmap : t.channelMap = s.channelMap) (hfd : ∀ d, (t.channel d).fd = (s.channel d).fd)
    (hty : ∀ d, (t.channel d).type = if d = c then ty else (s.channel d).type) : t.Typed := by
  refine ⟨fun d => ?_, fun d ty' hd hr => ?_⟩
  · rw [hty, hc, History.slotType, hm]
    by_cases hdc : d = c
    · rw [if_pos hdc, if_pos (congrArg some hdc.symm), hreg]
      rfl
    · rw [if_neg hdc, if_neg fun heq => hdc (Option.some.inj heq).symm]
      exact h.slot d
  · have hl : s.Live d := by
      rw [Globals.Live, hmap, hfd] at hd
      exact hd
    rw [hc, hfd, History.registered, hreg] at hr
    rw [hty]
    by_cases hdc : d = c
    · -- the requester: its slot and its descriptor declare the same type
      rw [if_pos (by rw [hdc, hs.fd_eq hm])] at hr
      rw [if_pos hdc]
      exact Option.some.inj hr
    · -- another connection has another descriptor
      have hne : pkg.fd ≠ (s.channel d).fd := Ne.symm (fd_ne_of_live hl hm hdc)
      rw [if_neg hne] at hr
      rw [if_neg hdc]
      exact h.own d ty' hl hr

/-- A request that is for nobody, or has no valid type, declares nothing. -/
theorem Typed.log (h : s.Typed) (hno : s.channelMap[pkg.fd]? = none ∨ pkg.registers = none) :
    (s.enter (.handleRegisterClientReq pkg)).Typed := by
  refine h.congr (fun _ => rfl) (fun d => ?_) fun d hd => ⟨hd, rfl, ?_⟩
  · -- the types of the slots, and then those that the descriptors declared
    show History.slotType d ((.handleRegisterClientReq pkg, s.toGlobals) :: s.calls) = _
    rw [History.slotType]
    split
    · rename_i hm
      rcases hno with hno | hno
      · cases hno.symm.trans hm
      · rw [hno]
        rfl
    · rfl
  · show History.registered (s.channel d).fd
      ((.handleRegisterClientReq pkg, s.toGlobals) :: s.calls) = _
    rw [History.registered]
    split
    · rename_i hfd
      rcases hno with hno | hno
      · rw [hfd] at hno
        cases hno.symm.trans hd
      · rw [hno]
        rfl
    · rfl

/-- `free_channel` keeps the type. -/
theorem freed_type (s : Server) (c d : Slot) :
    ((s.freed c).channel d).type = (s.channel d).type := by
  rw [freed_channel]
  split
  · rename_i hdc
    rw [hdc]
  · rfl

/-- The type is that of one slot. -/
theorem setType_type (s : Server) (c d : Slot) (ty : ClientType) :
    ((s.setType c ty).channel d).type = if d = c then ty else (s.channel d).type := by
  rw [setType, modify_channel]
  split <;> rfl

/-- Only a registration changes a type, to what it declares. -/
theorem Typed.effect (h : s.Typed) (hs : s.Sound) (he : Effect s t) : t.Typed := by
  have hown : ∀ d, t.Live d → s.Live d ∧ (t.channel d).fd = (s.channel d).fd :=
    fun d hd => ⟨he.live_of hd, he.fd_eq d⟩
  cases he with
  | log k hk =>
    cases k with
    | handleRegisterClientReq pkg => exact h.log hk
    | serverRecvCb _ | handle _ | handleChooseServerReq _ | checkBreakFd _ _ | dispatch _ _ _ =>
      exact h.congr (fun _ => rfl) (fun _ => rfl) fun d hd => ⟨hd, rfl, rfl⟩
    | _ => cases hk
  | register pkg c ty hm hty =>
    exact h.register hs hm (registers_of_code hty) rfl rfl (by simp) fun d => setType_type _ c d ty
  | listFull pkg c p hm hty =>
    refine h.register hs hm (registers_of_code hty) rfl rfl (by simp) fun d => ?_
    simpa using setType_type (s.enter _) c d .remote
  | free c =>
    exact h.congr (freed_type s c) (fun _ => rfl) fun d hd => ⟨(hown d hd).1, (hown d hd).2, rfl⟩
  | breakFail fd r c =>
    refine h.congr (fun d => ?_) (fun _ => rfl) fun d hd => ⟨(hown d hd).1, (hown d hd).2, rfl⟩
    simp [unbridged, freed_type, notifying]
  | _ =>
    refine h.congr ?_ (fun _ => rfl) fun d hd => ⟨(hown d hd).1, (hown d hd).2, rfl⟩
    simp [replying, relaying, sending, finishing, notifying, unbridged, pausing]

/-- A closed connection keeps the type of its slot. -/
theorem Typed.closed (h : s.Typed) (c : Slot) : ((s.enter (.closed c)).freed c).Typed := by
  refine h.congr (freed_type _ c) (fun _ => rfl) fun d hd => ⟨(freed_live.1 hd).2, ?_, rfl⟩
  exact freed_channel_fd ..

/-- Every part of a step keeps what the types say. -/
theorem typed_keeps : Keeps (fun _ _ _ => True) Typed where
  boot := ⟨fun _ => rfl, fun c ty hl => by simp [Globals.Live, boot] at hl⟩
  accepting {s fd c} _ h _ _ hkey _ _ := by
    refine ⟨fun d => ?_, fun d ty hl hreg => ?_⟩
    · rw [accepting_channel]
      split
      · rename_i hdc
        rw [hdc]
        exact h.slot c
      · exact h.slot d
    · -- a new connection has declared nothing; the type of its slot is left from the one before
      have hreg : History.registered ((s.accepting fd c).channel d).fd
          ((.acceptCb fd, s.toGlobals) :: s.calls) = some ty := hreg
      rw [History.registered] at hreg
      split at hreg
      · cases hreg
      · rename_i hne
        have hdc : d ≠ c := by
          rintro rfl
          rw [accepting_channel, if_pos rfl] at hne
          exact hne rfl
        have hold : s.Live d := ((accepting_live hkey).1 hl).resolve_left hdc
        rw [accepting_channel, if_neg hdc] at hreg ⊢
        exact h.own d ty hold hreg
  refusing {s fd} _ h hkey _ := by
    refine h.congr (fun _ => rfl) (fun _ => rfl) fun d hd => ⟨hd, rfl, ?_⟩
    -- the refused descriptor belongs to no connection
    have hne : fd ≠ (s.channel d).fd := (fd_ne_of_none hd hkey).symm
    show History.registered (s.channel d).fd ((.acceptCb fd, s.toGlobals) :: s.calls) = _
    rw [History.registered, if_neg hne]
  effect hs h he _ := h.effect hs he
  closing {s c} hs h hc _ := (h.closed c).effect ((hs.enter _).freed hc.1) (closing_effect hs hc)
  routed _ _ _ h := h.congr (fun _ => rfl) (fun _ => rfl) fun _ hd => ⟨hd, rfl, rfl⟩
  recvPkg c p h := by
    refine h.congr (by simp) (fun _ => rfl) fun d hd => ⟨?_, by simp, rfl⟩
    simpa [Globals.Live] using hd
  recvLen c n h := by
    refine h.congr (by simp) (fun _ => rfl) fun d hd => ⟨?_, by simp, rfl⟩
    simpa [Globals.Live] using hd

/-! ## Lists of raspis -/

/-- What the types said when a register request came. -/
def TypedCalls (s : Server) : Prop :=
  ∀ pkg g l, (.handleRegisterClientReq pkg, g) :: l <:+ s.calls → Typed ⟨g, l⟩

/-- A call of another function. -/
theorem TypedCalls.enter {k : Call} (h : s.TypedCalls) (hc : t.calls = (k, s.toGlobals) :: s.calls)
    (hk : ∀ pkg, k ≠ .handleRegisterClientReq pkg) : t.TypedCalls := by
  intro pkg g l hl
  rw [hc] at hl
  rcases suffix_cons_cases hl with ⟨heq, -, -⟩ | hl
  · exact absurd heq.symm (hk pkg)
  · exact h pkg g l hl

/-- A register request comes with the types as they were before it. -/
theorem TypedCalls.effect (h : s.TypedCalls) (ht : s.Typed) (he : Effect s t) : t.TypedCalls := by
  intro pkg g l hl
  rcases he.outer hl trivial with hl | ⟨rfl, rfl⟩
  · exact h pkg g l hl
  · exact ht

/-- So the types say the same in every call of a run. -/
theorem typedCalls_keeps : Keeps (fun _ _ _ => True) fun s => s.Typed ∧ s.TypedCalls where
  boot := ⟨typed_keeps.boot, fun k g l h => by simp [boot] at h⟩
  accepting hs h h0 hop hkey hc hG :=
    ⟨typed_keeps.accepting hs h.1 h0 hop hkey hc hG, h.2.enter rfl fun _ => Call.noConfusion⟩
  refusing hs h hkey hG :=
    ⟨typed_keeps.refusing hs h.1 hkey hG, h.2.enter rfl fun _ => Call.noConfusion⟩
  effect hs h he _ := ⟨h.1.effect hs he, h.2.effect h.1 he⟩
  closing {s c} hs h hc hG := by
    have hX : ((s.enter (.closed c)).freed c).TypedCalls :=
      (h.2.enter (t := s.enter (.closed c)) rfl fun _ => Call.noConfusion).enter rfl
        fun _ => Call.noConfusion
    have hT : ((s.enter (.closed c)).freed c).Typed := h.1.closed c
    exact ⟨typed_keeps.closing hs h.1 hc hG, hX.effect hT (closing_effect hs hc)⟩
  routed c p hs h :=
    ⟨typed_keeps.routed c p hs h.1, h.2.enter rfl fun _ => Call.noConfusion⟩
  recvPkg c p h := ⟨typed_keeps.recvPkg c p h.1, h.2⟩
  recvLen c n h := ⟨typed_keeps.recvLen c n h.1, h.2⟩

/-! ## Truthful types -/

/-- The type of a live channel is `CTYPE_RASPI` exactly if its connection declared that last. -/
def TypesTruthful (s : Server) : Prop := ∀ c, s.Live c →
  ((s.channel c).type = .raspi ↔ s.calls.registered (s.channel c).fd = some .raspi)

/-- A live channel whose connection has not registered is on a slot where a remote was the last to
register. -/
def NoneMistaken (s : Server) (c : Slot) : Prop := s.Live c →
  s.calls.registered (s.channel c).fd = none → s.calls.slotType c = .remote

instance (s : Server) (c : Slot) : Decidable (s.NoneMistaken c) :=
  inferInstanceAs (Decidable (_ → _ → _))

/-- The type of one connection is right exactly if it is not taken for a raspi by mistake. -/
theorem Typed.raspi_iff (h : s.Typed) (hl : s.Live c) :
    ((s.channel c).type = .raspi ↔ s.calls.registered (s.channel c).fd = some .raspi) ↔
      s.NoneMistaken c := by
  cases hreg : s.calls.registered (s.channel c).fd with
  | some ty =>
    have hty := h.own c ty hl hreg
    constructor
    · intro _ _ hnone
      cases hreg.symm.trans hnone
    · intro _
      rw [hty, Option.some_inj]
  | none =>
    have hslot := h.slot c
    constructor
    · intro hiff _ _
      rw [← hslot]
      cases hty : (s.channel c).type with
      | raspi => cases hiff.1 hty
      | remote => rfl
    · intro hno
      rw [hslot, hno hl hreg]
      constructor <;> intro heq <;> cases heq

/-- All types are right exactly if nobody is taken for a raspi by mistake. -/
theorem typesTruthful_iff (h : s.Typed) : s.TypesTruthful ↔ ∀ c, s.NoneMistaken c := by
  constructor
  · intro ht c hl hreg
    exact (h.raspi_iff hl).1 (ht c hl) hl hreg
  · intro hno c hl
    exact (h.raspi_iff hl).2 (hno c)

/-- The raspis listed for `c` are the live channels of that type, its own apart. -/
theorem mem_raspisFor (hs : s.Sound) {e : ℕ × Slot} :
    e ∈ s.raspisFor c ↔ s.channelMap[e.1]? = some e.2 ∧ (s.channel e.2).type = .raspi ∧ e.2 ≠ c := by
  simp only [Globals.raspisFor, List.mem_filter, decide_eq_true_eq, ne_eq]
  rw [show e = (e.1, e.2) from rfl, Std.ExtTreeMap.mem_toList_iff_getElem?_eq_some]
  constructor
  · rintro ⟨hm, -, h⟩
    exact ⟨hm, h⟩
  · rintro ⟨hm, h⟩
    exact ⟨hm, (hs.map _ _ hm).2.2.1, h⟩

/-- No more raspis are listed than there is room for. -/
theorem length_listed_le (s : Server) (c : Slot) (ty : ClientType) : (s.listed c ty).length ≤ 8 := by
  cases ty with
  | raspi => exact Nat.zero_le 8
  | remote => exact List.length_take_le ..

/-- What is listed are descriptors of connections. -/
theorem listed_lt (hs : s.Sound) (c : Slot) (ty : ClientType) :
    ∀ x ∈ s.listed c ty, 0 < x ∧ x < 4294967296 := by
  cases ty with
  | raspi => exact fun x hx => absurd hx (List.not_mem_nil)
  | remote =>
    intro x hx
    obtain ⟨e, he, rfl⟩ := List.mem_map.1 (List.mem_of_mem_take hx)
    obtain ⟨hm, -, -⟩ := (mem_raspisFor hs).1 he
    exact ⟨Nat.pos_iff_ne_zero.2 (hs.used hm), (hs.slot e.2).fd_lt.trans (by decide)⟩

/-- Those on a list have declared nothing but `CTYPE_RASPI`, and all have if nobody is mistaken. -/
theorem list_truthful (hs : s.Sound) (h : s.Typed) (hno : ∀ d, d ≠ c → s.NoneMistaken d) :
    ∀ fd ∈ s.listed c .remote, s.calls.registered fd = some .raspi := by
  intro fd hfd
  obtain ⟨e, he, rfl⟩ := List.mem_map.1 (List.mem_of_mem_take hfd)
  obtain ⟨hm, hty, hec⟩ := (mem_raspisFor hs).1 he
  exact ((h.raspi_iff (hs.live hm)).2 (hno e.2 hec)).1 hty

/-- A list with room left names everybody whose type is `CTYPE_RASPI`. -/
theorem noneMistaken_of_list (hs : s.Sound) (h : s.Typed) (hlen : (s.raspisFor c).length < 8)
    (hlist : ∀ fd ∈ s.listed c .remote, s.calls.registered fd = some .raspi) {d : Slot}
    (hdc : d ≠ c) : s.NoneMistaken d := by
  intro hl hreg
  rw [← h.slot d]
  cases hty : (s.channel d).type with
  | remote => rfl
  | raspi =>
    have hmem : (s.channel d).fd ∈ s.listed c .remote := by
      show (s.channel d).fd ∈ ((s.raspisFor c).map fun e => (s.channel e.2).fd).take 8
      rw [List.take_of_length_le (by rw [List.length_map]; omega)]
      exact List.mem_map.2 ⟨((s.channel d).fd, d), (mem_raspisFor hs).2 ⟨hl, hty, hdc⟩, rfl⟩
    cases hreg.symm.trans (hlist _ hmem)

/-- The head and the result are before the list. -/
theorem raspiFds_registerRes (p : Pkg) (fd : ℕ) : (registerRes p fd).raspiFds = p.raspiFds := by
  apply List.map_congr_left
  intro i _
  have hset : ∀ (q : Pkg) (off v : ℕ), off + 4 ≤ 16 →
      Pkg.raspiFd (Buffer.setWord q off v) i = q.raspiFd i := fun q off v h =>
    Buffer.word_setWord_of_outside q off v (.inr (by omega))
  simp only [registerRes, Pkg.setResult, Pkg.setLen, Pkg.setFd, Pkg.setCmd, hset, Nat.reduceAdd,
    Nat.reduceLeDiff]

/-- A remote is sent the list that was made for it, over what was in its buffer. -/
theorem reply_lists (hs : s.Sound) (hc : s.lookup pkg.fd = some c)
    (hty : pkg.clientType = ClientType.remote.code) (hfew : (s.raspisFor c).length < 8) :
    ∃ u p, s.handleRegisterClientReq pkg = ((response u p).1, 0) ∧ p.fd = pkg.fd ∧
      p.raspiFds = s.listed c .remote ++
        (s.channel c).sendCtx.pkg.raspiFds.drop (s.listed c .remote).length := by
  rcases s.handleRegisterClientReq_cases pkg with
    ⟨-, hno⟩ | ⟨c', ty, hc', hty', ⟨h, -⟩ | ⟨-, hfull, -⟩⟩
  · rw [hc, registers_of_code hty] at hno
    rcases hno with hno | hno <;> cases hno
  · obtain rfl := Option.some.inj (hc.symm.trans hc')
    obtain rfl := Option.some.inj ((registers_of_code hty').symm.trans (registers_of_code hty))
    refine ⟨_, s.registration pkg c .remote, h, fd_registration .., ?_⟩
    rw [registration, Pkg.raspiFds_setRaspiFds _ (fun x hx => (listed_lt hs c _ x hx).2)
      (length_listed_le s c _), raspiFds_registerRes]
  · obtain rfl := Option.some.inj (hc.symm.trans hc')
    omega

/-- The types are truthful exactly if nobody is mistaken, and so is every list of raspis that was
sent. A list that was given up is too, if nobody is mistaken. In the packet that is sent the list is
written from the first place on, and the other places are as they were in the buffer. -/
theorem registry_truthful (hr : Reachable s) :
    (s.TypesTruthful ↔ ∀ c, s.NoneMistaken c) ∧
    ∀ pkg g l c, (.handleRegisterClientReq pkg, g) :: l <:+ s.calls → g.lookup pkg.fd = some c →
      ((∀ d, d ≠ c → NoneMistaken ⟨g, l⟩ d) →
        ∀ fd ∈ g.listed c .remote, History.registered fd l = some .raspi) ∧
      ((g.raspisFor c).length < 8 →
        (∀ fd ∈ g.listed c .remote, History.registered fd l = some .raspi) →
          ∀ d, d ≠ c → NoneMistaken ⟨g, l⟩ d) ∧
      (pkg.clientType = ClientType.remote.code → (g.raspisFor c).length < 8 →
        ∃ u p, handleRegisterClientReq ⟨g, l⟩ pkg = ((response u p).1, 0) ∧ p.fd = pkg.fd ∧
          p.raspiFds = g.listed c .remote ++
            (g.channel c).sendCtx.pkg.raspiFds.drop (g.listed c .remote).length) := by
  obtain ⟨ht, hcalls⟩ := typedCalls_keeps.reachable hr fun _ _ _ _ => trivial
  refine ⟨typesTruthful_iff ht, fun pkg g l c hl hc => ?_⟩
  have hS : Sound ⟨g, l⟩ := hr.soundCalls _ g l hl
  have hT := hcalls pkg g l hl
  exact ⟨fun hno => list_truthful hS hT hno,
    fun hlen hlist d hdc => noneMistaken_of_list hS hT hlen hlist hdc,
    fun hty hfew => reply_lists hS hc hty hfew⟩

/-- A raspi registers and then a remote. -/
def allRegister : List Event :=
  [.accept 5] ++ Event.register 0 .raspi Event.takesAll ++ [.accept 6] ++
    Event.register 1 .remote Event.takesAll

/-- Whoever is listed in this run has registered. -/
theorem registry_truthful_allRegister : (after allRegister).TypesTruthful :=
  (registry_truthful (reachable_after _ (by decide +kernel))).1.2 (by decide +kernel)

/-- A remote registers while another client has only connected. -/
def registersEarly : List Event :=
  [.accept 5, .accept 6] ++ Event.register 1 .remote Event.takesAll

/-- A connection that has not registered has the type of static storage, `CTYPE_RASPI`. -/
theorem raspi_by_default : ¬ ∀ s, Reachable s → s.TypesTruthful := by
  intro h
  have htype := h _ (reachable_after registersEarly (by decide +kernel)) 0 (by decide +kernel)
  exact absurd (htype.1 (by decide +kernel)) (by decide +kernel)

end Server
end WawaServer
