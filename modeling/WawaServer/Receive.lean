import WawaServer.Reachable
import WawaServer.Lib.Frames

/-!
# Reassembly of the input

`server_recv_cb` collects a frame over any number of calls of `recv`. Between two calls the
receive buffer of a connection holds the bytes of the frame that have arrived and zeros after
them (`Assembling`), so a length field of which only some bytes are there reads as a smaller
number and no call asks for more than the rest of the frame.

That is so for every stream (`input_assembled`). It follows that the packets handed to `handle` and
`dispatch` are the frames sent (`input_framed`). When a call asks for more than it may is the matter
of `RecvBounds.lean`, for every slot.
-/

namespace WawaServer

namespace Pkg

/-- The packet whose first bytes are `bs`, the others zero. -/
def filled (bs : List UInt8) : Pkg := Buffer.write construct 0 bs

/-- What is handed over for a packet that arrives on `fd`: its body is padded with zeros, and
`stHead.fd` is replaced when it is 0. -/
def received (fd : ℕ) (p : Pkg) : Pkg :=
  if p.fd = 0 then (filled p.frame).setFd fd else filled p.frame

/-- The frames that fit a `Pkg`. -/
def IsFrame (f : List UInt8) : Prop := ∃ p : Pkg, p.len ≤ bufSize ∧ p.frame = f

/-- The beginning of a frame: the head is not complete, or it fits and the body is not
complete. -/
def Unfinished (bs : List UInt8) : Prop :=
  bs.length < sizeofHead ∨ (filled bs).len ≤ bufSize ∧ bs.length < (filled bs).total

/-! ## Filled packets -/

variable {bs cs : List UInt8} {p q : Pkg}

@[simp] theorem filled_nil : filled [] = construct := Buffer.write_nil _ _

/-- The bytes that follow go on where the others end. -/
theorem write_filled (bs cs : List UInt8) :
    Buffer.write (filled bs) bs.length cs = filled (bs ++ cs) := by
  rw [filled, filled, ← Buffer.write_append, zero_add]

theorem get_filled (bs : List UInt8) {i : ℕ} (hi : i < sizeofPkg) :
    Buffer.get (filled bs) i = bs.getD i 0 := by
  rw [filled, Buffer.get_write _ _ _ _ hi]
  by_cases h : i < bs.length
  · rw [if_pos (by omega), Nat.sub_zero]
  · rw [if_neg (by omega), construct, Buffer.get_zero, List.getD_eq_default _ _ (by omega)]

/-- The bytes that are there decide the number when all its bytes are there. -/
theorem len_filled_append (h : 8 ≤ bs.length) : (filled (bs ++ cs)).len = (filled bs).len := by
  apply Buffer.word_congr _ _ _ _
  intro k hk
  rw [get_filled _ (by simp only [sizeofPkg]; omega), get_filled _ (by simp only [sizeofPkg]; omega),
    List.getD_append _ _ _ _ (by omega)]

/-- A length field grows with its bytes. -/
theorem len_filled_le (bs cs : List UInt8) : (filled bs).len ≤ (filled (bs ++ cs)).len := by
  apply Buffer.word_mono _ _ _
  intro k hk
  rw [get_filled _ (by simp only [sizeofPkg]; omega), get_filled _ (by simp only [sizeofPkg]; omega)]
  by_cases h : 4 + k < bs.length
  · exact .inl (by rw [List.getD_append _ _ _ _ h])
  · exact .inr (List.getD_eq_default _ _ (by omega))

theorem total_filled_le (bs cs : List UInt8) :
    (filled bs).total ≤ (filled (bs ++ cs)).total :=
  Nat.add_le_add_right (len_filled_le bs cs) _

theorem len_filled_frame (hp : p.len ≤ bufSize) : (filled p.frame).len = p.len :=
  len_copyFrame construct hp

theorem total_filled_frame (hp : p.len ≤ bufSize) : (filled p.frame).total = p.total :=
  total_copyFrame construct hp

theorem fd_filled_frame (hp : p.len ≤ bufSize) : (filled p.frame).fd = p.fd :=
  fd_copyFrame construct hp

/-- The head announces the body. -/
theorem len_filled_head (hp : p.len ≤ bufSize) : (filled (p.frame.take sizeofHead)).len = p.len := by
  have hlen : (p.frame.take sizeofHead).length = sizeofHead := by
    rw [List.length_take, length_frame]
    exact Nat.min_eq_left p.twelve_le_total
  have happ := @len_filled_append (p.frame.take sizeofHead) (p.frame.drop sizeofHead)
    (by rw [hlen]; decide)
  rw [← happ, List.take_append_drop, len_filled_frame hp]

/-- Bytes that are as many as their head announces are a frame. -/
theorem frame_filled (hlen : (filled bs).len ≤ bufSize) (h : bs.length = (filled bs).total) :
    (filled bs).frame = bs := by
  have ht := total_le hlen
  have hself := Buffer.slice_write_self construct 0 bs (by omega)
  rwa [h] at hself

/-! ## Frames can be told apart -/

/-- The head of a frame is in its beginning. -/
theorem len_eq_of_prefix {l : List UInt8} (hp : p.frame <+: l) (hq : q.frame <+: l) :
    p.len = q.len := by
  apply Buffer.word_congr _ _ _ _
  intro k hk
  have hpt := p.twelve_le_total
  have hqt := q.twelve_le_total
  have hget : ∀ r : Pkg, 12 ≤ r.total → r.frame <+: l → Buffer.get r (4 + k) = l.getD (4 + k) 0 := by
    intro r hr hpre
    obtain ⟨x, rfl⟩ := hpre
    rw [List.getD_append _ _ _ _ (by rw [length_frame]; omega), frame,
      Buffer.getD_slice _ _ _ (by omega), zero_add]
  rw [hget p hpt hp, hget q hqt hq]

theorem isFrame_prefixFree : Frames.PrefixFree IsFrame where
  eq f g hf hg hfg := by
    obtain ⟨p, -, rfl⟩ := hf
    obtain ⟨q, -, rfl⟩ := hg
    apply hfg.eq_of_length
    rw [length_frame, length_frame, total, total, len_eq_of_prefix hfg List.prefix_rfl]
  ne_nil h := by
    obtain ⟨p, -, hnil⟩ := h
    have hlen := congrArg List.length hnil
    have ht := p.total_pos
    rw [length_frame, List.length_nil] at hlen
    omega

/-- The beginning of a frame holds no whole frame. -/
theorem Unfinished.not_prefix (h : Unfinished bs) (hp : p.len ≤ bufSize) : ¬ p.frame <+: bs := by
  rintro ⟨cs, rfl⟩
  have ht := p.twelve_le_total
  have hlen : (filled (p.frame ++ cs)).len = p.len := by
    rw [len_filled_append (by rw [length_frame]; omega), len_filled_frame hp]
  have htot : (filled (p.frame ++ cs)).total = p.total := by rw [total, hlen, total]
  rcases h with h | ⟨-, h⟩
  · rw [List.length_append, length_frame] at h
    simp only [sizeofHead] at h
    omega
  · rw [List.length_append, length_frame, htot] at h
    omega

theorem unfinished_nil : Unfinished [] := .inl (by decide)

theorem Unfinished.length_le (h : Unfinished bs) : bs.length ≤ (filled bs).total := by
  have ht := (filled bs).twelve_le_total
  rcases h with h | ⟨-, h⟩
  · simp only [sizeofHead] at h
    omega
  · exact h.le

end Pkg

/-- The head is not there, or it fits and the body is not there. -/
def RecvCtx.Incomplete (ctx : RecvCtx) : Prop :=
  ctx.len < sizeofHead ∨ ctx.pkg.len ≤ bufSize ∧ ctx.len < ctx.pkg.total

theorem RecvCtx.Incomplete.len_le {ctx : RecvCtx} (h : ctx.Incomplete) : ctx.len ≤ ctx.pkg.total := by
  have ht := ctx.pkg.twelve_le_total
  rcases h with h | ⟨-, h⟩
  · simp only [sizeofHead] at h
    omega
  · exact h.le

/-- The bytes `bs` of a frame are in the receive buffer of `c`, and nothing else is. -/
structure Globals.Assembling (s : Globals) (c : Slot) (bs : List UInt8) : Prop where
  pkg : (s.channel c).recvCtx.pkg = Pkg.filled bs
  len : (s.channel c).recvCtx.len = bs.length

/-- The packets of `c` that were handed to `handle` or `dispatch`, the first one first. -/
def History.routed (c : Slot) : History → List Pkg
  | [] => []
  | (.routed d p, _) :: l => routed c l ++ if d = c then [p] else []
  | _ :: l => routed c l

/-- The bytes that an event brings to `c`. -/
def Event.input (c : Slot) : Event → List UInt8
  | .recv d (.data bs) _ => if d = c then bs else []
  | _ => []

theorem Event.input_eq_nil {c : Slot} {e : Event} (h : e.recvSlot ≠ some c) : e.input c = [] := by
  cases e with
  | recv d r q =>
    have hdc : d ≠ c := fun hdc => h (by rw [recvSlot, hdc])
    cases r <;> simp [input, hdc]
  | _ => rfl

/-- An event that receives nothing on `c` is about another slot, or about any. -/
theorem Event.exists_other {c : Slot} {e : Event} (h : e.recvSlot ≠ some c) :
    ∃ d, c ≠ d ∧ ∀ b ∈ e.recvSlot, b = d := by
  cases hr : e.recvSlot with
  | none => exact ⟨if c = 0 then 1 else 0, by split <;> simp_all, by simp⟩
  | some b => exact ⟨b, fun hcb => h (by rw [hr, hcb]), by simp⟩

/-- The bytes that arrive on `c`. -/
def Event.inputs (c : Slot) (es : List Event) : List UInt8 := es.flatMap (Event.input c)

theorem Event.inputs_concat (c : Slot) (es : List Event) (e : Event) :
    Event.inputs c (es ++ [e]) = Event.inputs c es ++ e.input c := by
  simp [Event.inputs]

namespace Server

open Pkg

variable {s t : Server} {b c d : Slot} {p : Pkg} {pre bs : List UInt8}

/-! ## What a request asks for -/

/-- The count, when the buffer holds no more than its length field says. -/
theorem recvCount_of_le (hle : (s.channel c).recvCtx.len ≤ (s.channel c).recvCtx.pkg.total) :
    s.recvCount c = (s.channel c).recvCtx.pkg.total - (s.channel c).recvCtx.len := by
  have hlt := Buffer.word_lt (s.channel c).recvCtx.pkg 4
  have hlen : (s.channel c).recvCtx.pkg.len = Buffer.word (s.channel c).recvCtx.pkg 4 := rfl
  simp only [Globals.recvCount, total_eq]
  rw [total, hlen] at hle ⊢
  simp only [sizeofHead] at *
  omega

theorem recvCount_eq (h : s.Assembling c pre) (hle : pre.length ≤ (filled pre).total) :
    s.recvCount c = (filled pre).total - pre.length := by
  rw [← h.pkg, ← h.len] at hle ⊢
  exact recvCount_of_le hle

/-- A request ends where the length field says, whatever that is made of. -/
theorem request_end_of_incomplete (h : (s.channel c).recvCtx.Incomplete) :
    (s.channel c).recvCtx.len + s.recvCount c = (s.channel c).recvCtx.pkg.total := by
  have hle := h.len_le
  rw [recvCount_of_le hle]
  omega

/-- A request ends where the announced frame ends. -/
theorem request_end (h : s.Assembling c pre) (hu : Unfinished pre) :
    (s.channel c).recvCtx.len + s.recvCount c = (filled pre).total := by
  have hin : (s.channel c).recvCtx.Incomplete := by
    rw [RecvCtx.Incomplete, h.pkg, h.len]
    exact hu
  rw [request_end_of_incomplete hin, h.pkg]

/-! ## Input of the other connections -/

theorem ne_of_freed (hc : (s.freed d).Live c) : c ≠ d :=
  fun h => (freed_live.1 hc).1 (by rw [h])

/-- From `s` to `t` the receive buffer of `c` was left alone, but perhaps `free_channel` has set its
count to 0. -/
structure LeavesInput (s t : Server) (c : Slot) : Prop where
  pkg : (t.channel c).recvCtx.pkg = (s.channel c).recvCtx.pkg
  len : (t.channel c).recvCtx.len = (s.channel c).recvCtx.len ∨
    (t.channel c).recvCtx.len = 0 ∧ ¬ t.Live c
  live : t.Live c → s.Live c

theorem LeavesInput.refl (s : Server) (c : Slot) : LeavesInput s s c := ⟨rfl, .inl rfl, id⟩

theorem LeavesInput.trans {u : Server} (h : LeavesInput s t c) (h' : LeavesInput t u c) :
    LeavesInput s u c := by
  refine ⟨h'.pkg.trans h.pkg, ?_, fun hc => h.live (h'.live hc)⟩
  rcases h'.len with hlen | hzero
  · rcases h.len with hlen' | ⟨hzero, hdead⟩
    · exact .inl (hlen.trans hlen')
    · exact .inr ⟨hlen.trans hzero, fun hc => hdead (h'.live hc)⟩
  · exact .inr hzero

theorem LeavesInput.assembling (h : LeavesInput s t c) (hc : t.Live c) (ha : s.Assembling c pre) :
    t.Assembling c pre :=
  ⟨h.pkg.trans ha.pkg, (h.len.resolve_right fun hdead => hdead.2 hc).trans ha.len⟩

theorem freed_leavesInput (s : Server) (c d : Slot) : LeavesInput s (s.freed d) c := by
  refine ⟨?_, ?_, fun hc => (freed_live.1 hc).2⟩
  · rw [freed_channel]
    split
    · rename_i hcd
      rw [hcd]
    · rfl
  · by_cases hcd : c = d
    · refine .inr ⟨?_, fun hc => ne_of_freed hc hcd⟩
      rw [freed_channel, if_pos hcd]
    · exact .inl (by rw [freed_channel, if_neg hcd])

/-- Effects leave the receive buffers alone. -/
theorem Effect.leavesInput (h : Effect s t) (c : Slot) : LeavesInput s t c := by
  have hlive : t.Live c → s.Live c := h.live_of
  cases h with
  | free d => exact freed_leavesInput s c d
  | breakFail fd r d p =>
    have hfree := freed_leavesInput ((s.notifying fd d p).popped p.fd 0 p.total) c d
    refine ⟨?_, ?_, hlive⟩
    · simp [unbridged, notifying]
    · rw [unbridged_live]
      simpa [unbridged, notifying] using hfree.len
  | _ =>
    refine ⟨?_, .inl ?_, hlive⟩ <;>
      simp [replying, notifying, unbridged, relaying, pausing, sending, finishing]

theorem Effect.routed (h : Effect s t) (c : Slot) : t.calls.routed c = s.calls.routed c := by
  cases h with
  | log k hk => cases k <;> first | rfl | cases hk
  | _ => rfl

theorem Effects.live_of (h : Effects s t) (hc : t.Live c) : s.Live c := by
  induction h with
  | refl => exact hc
  | tail _ h ih => exact ih (h.live_of hc)

theorem Effects.routed (h : Effects s t) (c : Slot) : t.calls.routed c = s.calls.routed c := by
  induction h with
  | refl => rfl
  | tail _ h ih => rw [h.routed, ih]

theorem Update.live_of (h : Update d s t) (hs : s.Sound) (hc : t.Live c) :
    s.Live c ∧ (t.channel c).fd = (s.channel c).fd := by
  cases h with
  | effect h => exact ⟨h.live_of hc, h.fd_eq c⟩
  | closing h =>
    have he := closing_effect hs h
    exact ⟨(freed_live.1 (he.live_of hc)).2, (he.fd_eq c).trans (freed_channel_fd ..)⟩
  | routed p => exact ⟨hc, rfl⟩
  | _ => exact ⟨by simpa [Globals.Live] using hc, by simp⟩

theorem Updates.live_of (h : Updates d s t) (hs : s.Sound) (hc : t.Live c) :
    s.Live c ∧ (t.channel c).fd = (s.channel c).fd := by
  induction h with
  | refl => exact ⟨hc, rfl⟩
  | tail h' h ih =>
    obtain ⟨hl, hfd⟩ := h.live_of (hs.updates h') hc
    exact ⟨(ih hl).1, hfd.trans (ih hl).2⟩

/-- So do the callbacks of the other channels. -/
theorem Update.leavesInput (h : Update d s t) (hs : s.Sound) (hcd : c ≠ d) : LeavesInput s t c := by
  have hlive : t.Live c → s.Live c := fun hc => (h.live_of hs hc).1
  cases h with
  | effect h => exact h.leavesInput c
  | closing h =>
    have hfree := freed_leavesInput (s.enter (.closed d)) c d
    exact LeavesInput.trans ⟨hfree.pkg, hfree.len, hfree.live⟩ ((closing_effect hs h).leavesInput c)
  | routed p => exact ⟨rfl, .inl rfl, hlive⟩
  | recvPkg p => exact ⟨by simp [modify_channel_of_ne hcd], .inl (by simp), hlive⟩
  | recvLen n => exact ⟨by simp, .inl (by simp [modify_channel_of_ne hcd]), hlive⟩

theorem Updates.leavesInput (h : Updates d s t) (hs : s.Sound) (hcd : c ≠ d) :
    LeavesInput s t c := by
  induction h with
  | refl => exact .refl s c
  | tail h' h ih => exact ih.trans (h.leavesInput (hs.updates h') hcd)

theorem Update.routed_others (h : Update d s t) (hs : s.Sound) (hcd : c ≠ d) :
    t.calls.routed c = s.calls.routed c := by
  cases h with
  | effect h => exact h.routed c
  | closing h => exact (closing_effect hs h).routed c
  | routed p => simp [History.routed, hcd.symm]
  | _ => rfl

theorem Updates.others (h : Updates d s t) (hs : s.Sound) (hcd : c ≠ d) (hc : t.Live c)
    (ha : s.Assembling c pre) : t.Assembling c pre ∧ t.calls.routed c = s.calls.routed c := by
  refine ⟨(h.leavesInput hs hcd).assembling hc ha, ?_⟩
  induction h with
  | refl => rfl
  | tail h' h ih =>
    have hS := hs.updates h'
    rw [h.routed_others hS hcd, ih (h.live_of hS hc).1]

/-! ## A call of `server_recv_cb` with data -/

theorem store_assembling (h : s.Assembling c pre) : (s.store c bs).Assembling c (pre ++ bs) := by
  constructor
  · rw [store_recvCtx, h.pkg, h.len, write_filled]
  · rw [store_recvCtx, h.len, List.length_append]

/-- The packet of a whole frame is handed over as `received` says. -/
theorem route_routed (hs : s.Sound) (ha : s.Assembling c p.frame) (hp : p.len ≤ bufSize) :
    (s.route c).calls.routed c = s.calls.routed c ++ [received (s.channel c).fd p] := by
  have hfd : (filled p.frame).fd = p.fd := fd_filled_frame hp
  unfold route
  simp only [ha.pkg, hfd, (hs.slot c).recvFd, received]
  split
  · have hS := (hs.setRecvPkg c ((filled p.frame).setFd (s.channel c).fd)).enter (.routed c
      ((s.setRecvPkg c ((filled p.frame).setFd (s.channel c).fd)).channel c).recvCtx.pkg)
    -- a request is stamped with the descriptor it came on
    have hsender := hs.sender_request c (filled p.frame)
    simp only [(hs.slot c).recvFd] at hsender
    rw [(handle_effects hS hsender).routed]
    simp [History.routed]
  · rw [(dispatch_effects (hs.enter _) hfd).routed]
    simp [History.routed]

/-- What a call of `server_recv_cb` that gets data does, by what the buffer then holds. -/
theorem serverRecvCb_stored (bs : List UInt8) (hs : s.Sound)
    (hact : (s.channel c).recvCtx.io.active = true) {v : Server}
    (hv : (s.enter (.serverRecvCb c)).store c bs = v) :
    ((v.channel c).recvCtx.Incomplete ∧ s.serverRecvCb c (.data bs) = v) ∨
    (sizeofHead ≤ (v.channel c).recvCtx.len ∧ bufSize < (v.channel c).recvCtx.pkg.len ∧
      s.serverRecvCb c (.data bs) = v.freed c) ∨
    ((v.channel c).recvCtx.pkg.len ≤ bufSize ∧
      (v.channel c).recvCtx.pkg.total ≤ (v.channel c).recvCtx.len ∧
      s.serverRecvCb c (.data bs) =
        ((v.route c).setRecvLen c 0).setRecvPkg c Pkg.construct) := by
  have hS : v.Sound := hv ▸ (hs.enter _).updates (store_updates (s.enter (.serverRecvCb c)) c bs)
  have hact' : (v.channel c).recvCtx.io.active = true := by
    rw [← hv, store_recvCtx]
    exact hact
  unfold serverRecvCb
  simp only [hv, total_eq]
  split
  · rename_i hlt
    -- the head is not whole
    exact .inl ⟨.inl hlt, rfl⟩
  · rename_i hge
    split
    · -- the length in the head is too large, and the channel is freed
      rename_i hbad
      exact .inr (.inl ⟨not_lt.1 hge, hbad, hS.freeChannel_eq ((hS.slot c).recvUsed hact')⟩)
    · rename_i hgood
      split
      · rename_i hlt
        rw [startRecv_of_active hact']
        exact .inl ⟨.inr ⟨not_lt.1 hgood, hlt⟩, rfl⟩
      · rename_i hle
        exact .inr (.inr ⟨not_lt.1 hgood, not_lt.1 hle, rfl⟩)

/-- What a call of `server_recv_cb` that gets `bs` does to the frame in reception. -/
theorem serverRecvCb_data (hs : s.Sound) (hact : (s.channel c).recvCtx.io.active = true)
    (ha : s.Assembling c pre) (hu : Unfinished pre) (hbs : bs.length ≤ s.recvCount c) :
    (Unfinished (pre ++ bs) ∧ s.serverRecvCb c (.data bs) = (s.enter (.serverRecvCb c)).store c bs) ∨
    (sizeofHead ≤ (pre ++ bs).length ∧ bufSize < (filled (pre ++ bs)).len ∧
      s.serverRecvCb c (.data bs) = ((s.enter (.serverRecvCb c)).store c bs).freed c) ∨
    ((filled (pre ++ bs)).len ≤ bufSize ∧ (filled (pre ++ bs)).frame = pre ++ bs ∧
      s.serverRecvCb c (.data bs) = ((((s.enter (.serverRecvCb c)).store c bs).route c).setRecvLen
        c 0).setRecvPkg c Pkg.construct) := by
  have hst : ((s.enter (.serverRecvCb c)).store c bs).Assembling c (pre ++ bs) :=
    store_assembling (s := s.enter (.serverRecvCb c)) ⟨ha.pkg, ha.len⟩
  -- `recv` is never asked for more than what is missing of the frame
  have hend := request_end ha hu
  rw [ha.len] at hend
  have hmono := total_filled_le pre bs
  have hcases := serverRecvCb_stored bs hs hact rfl
  simp only [RecvCtx.Incomplete, hst.pkg, hst.len] at hcases
  refine hcases.imp_right (Or.imp_right ?_)
  rintro ⟨hgood, hle, heq⟩
  -- enough has arrived, and not more than the frame
  have hlen : (pre ++ bs).length = (filled (pre ++ bs)).total := by
    refine le_antisymm ?_ hle
    rw [List.length_append]
    omega
  exact ⟨hgood, frame_filled hgood hlen, heq⟩

/-! ## Steps and runs -/

/-- `recv` has put `bs` into the receive buffer of `c`, and `send` will answer `q`. -/
def stored (s : Server) (c : Slot) (bs : List UInt8) (q : ℕ → List SendResult) : Server :=
  (({ s with results := q } : Server).enter (.serverRecvCb c)).store c bs

theorem stored_calls (s : Server) (c : Slot) (bs : List UInt8) (q : ℕ → List SendResult) :
    (s.stored c bs q).calls = (.serverRecvCb c, { s.toGlobals with results := q }) :: s.calls :=
  store_calls _ c bs

/-- What an event that brings `bs` does to the frame in reception. -/
theorem step_data {q : ℕ → List SendResult} (hs : s.Sound)
    (h : s.step (.recv c (.data bs) q) = some t) (ha : s.Assembling c pre) (hu : Unfinished pre) :
    (s.stored c bs q).Sound ∧ (s.stored c bs q).Assembling c (pre ++ bs) ∧
    ((Unfinished (pre ++ bs) ∧ t = s.stored c bs q) ∨
    (sizeofHead ≤ (pre ++ bs).length ∧ bufSize < (filled (pre ++ bs)).len ∧
      t = (s.stored c bs q).freed c) ∨
    ((filled (pre ++ bs)).len ≤ bufSize ∧ (filled (pre ++ bs)).frame = pre ++ bs ∧
      t = (((s.stored c bs q).route c).setRecvLen c 0).setRecvPkg c Pkg.construct)) := by
  obtain ⟨-, hen, rfl⟩ := step_eq_some.1 h
  have hS : ({ s with results := q } : Server).Sound := hs.congr rfl rfl rfl
  have haE : (({ s with results := q } : Server).enter (.serverRecvCb c)).Assembling c pre :=
    ⟨ha.pkg, ha.len⟩
  exact ⟨(hS.enter _).updates (store_updates _ c bs), store_assembling haE,
    serverRecvCb_data hS hen.1 ⟨ha.pkg, ha.len⟩ hu hen.2.2.2⟩

/-- What an event that brings the last bytes of a frame does. -/
theorem step_whole {q : ℕ → List SendResult} (hs : s.Sound)
    (h : s.step (.recv c (.data bs) q) = some t) (ha : s.Assembling c pre) (hu : Unfinished pre)
    (hp : p.len ≤ bufSize) (hf : p.frame = pre ++ bs) :
    (s.stored c bs q).Sound ∧ (s.stored c bs q).Assembling c p.frame ∧
      t = (((s.stored c bs q).route c).setRecvLen c 0).setRecvPkg c Pkg.construct := by
  obtain ⟨hS, hst, hcases⟩ := step_data hs h ha hu
  rw [← hf] at hst hcases
  rcases hcases with ⟨hun, -⟩ | ⟨-, hbad, -⟩ | ⟨-, -, heq⟩
  · exact absurd List.prefix_rfl (hun.not_prefix hp)
  · rw [len_filled_frame hp] at hbad
    omega
  · exact ⟨hS, hst, heq⟩

/-- What a step of the server does to the frame in reception on `c`: its bytes are added, and
perhaps complete it. -/
inductive Receives (s t : Server) (c : Slot) (pre bs : List UInt8) : Prop
  | more (hu : Unfinished (pre ++ bs)) (ha : t.Assembling c (pre ++ bs))
      (hr : t.calls.routed c = s.calls.routed c)
  | done (p : Pkg) (hp : p.len ≤ bufSize) (hf : p.frame = pre ++ bs) (ha : t.Assembling c [])
      (hr : t.calls.routed c = s.calls.routed c ++ [received (s.channel c).fd p])

theorem acceptCb_others (fd : ℕ) (hs : s.Sound) (hc : s.Live c) (ha : s.Assembling c pre) :
    (s.acceptCb fd).Assembling c pre ∧ (s.acceptCb fd).calls.routed c = s.calls.routed c ∧
      ((s.acceptCb fd).channel c).fd = (s.channel c).fd := by
  rcases acceptCb_cases s fd with ⟨d, hd, heq⟩ | ⟨-, heq⟩
  · have hcd : c ≠ d := by
      rintro rfl
      have hact := (hs.map _ c hc).2.2.1
      rw [freeSlot_some hd] at hact
      cases hact
    rw [heq, accepting_channel, if_neg hcd]
    refine ⟨?_, rfl, rfl⟩
    constructor <;> rw [accepting_channel, if_neg hcd]
    · exact ha.pkg
    · exact ha.len
  · rw [heq]
    exact ⟨⟨ha.pkg, ha.len⟩, rfl, rfl⟩

/-- A connection does not outlive a call of `recv` that returns 0 or an error. -/
theorem serverRecvCb_torn (hs : s.Sound) (hact : (s.channel c).recvCtx.io.active = true)
    {r : RecvResult} (hr : r = .closed ∨ r = .error) : ¬ (s.serverRecvCb c r).Live c := by
  intro ht
  have hu := (hs.slot c).recvUsed hact
  rcases hr with rfl | rfl
  · have hE := (hs.enter (.serverRecvCb c)).enter (.closed c)
    simp only [serverRecvCb, hE.freeChannel_eq hu] at ht
    exact ne_of_freed ((checkBreakFd_effect (hE.freed hu) _ _).live_of ht) rfl
  · simp only [serverRecvCb, (hs.enter (.serverRecvCb c)).freeChannel_eq hu] at ht
    exact ne_of_freed ht rfl

/-- `server_recv_cb` on `c` itself. -/
theorem serverRecvCb_receives (hs : s.Sound) (hact : (s.channel c).recvCtx.io.active = true)
    {r : RecvResult} (hok : s.RecvOk c r) (q : ℕ → List SendResult) (ht : (s.serverRecvCb c r).Live c)
    (ha : s.Assembling c pre) (hu : Unfinished pre) :
    s.Receives (s.serverRecvCb c r) c pre ((Event.recv c r q).input c) := by
  cases r with
  | closed => exact absurd ht (serverRecvCb_torn hs hact (.inl rfl))
  | error => exact absurd ht (serverRecvCb_torn hs hact (.inr rfl))
  | again =>
    have hsame : s.serverRecvCb c .again = s.enter (.serverRecvCb c) := startRecv_of_active hact
    rw [hsame]
    exact .more (by simpa [Event.input] using hu) ⟨by simpa [Event.input] using ha.pkg,
      by simpa [Event.input] using ha.len⟩ rfl
  | data bs =>
    have hE := hs.enter (.serverRecvCb c)
    have haE : (s.enter (.serverRecvCb c)).Assembling c pre := ⟨ha.pkg, ha.len⟩
    have hst : ((s.enter (.serverRecvCb c)).store c bs).Assembling c (pre ++ bs) :=
      store_assembling haE
    have hS := hE.updates (store_updates (s.enter (.serverRecvCb c)) c bs)
    have hcalls : ((s.enter (.serverRecvCb c)).store c bs).calls.routed c = s.calls.routed c := by
      rw [store_calls]
      rfl
    have hin : (Event.recv c (.data bs) q).input c = bs := if_pos rfl
    rw [hin]
    rcases serverRecvCb_data hs hact ha hu hok.2.2 with ⟨hun, heq⟩ | ⟨-, -, heq⟩ | ⟨hp, hf, heq⟩
    · rw [heq]
      exact .more hun hst hcalls
    · rw [heq] at ht
      exact absurd rfl (ne_of_freed ht)
    · rw [heq]
      rw [← hf] at hst
      have hroute := route_routed hS hst hp
      have hfd : (((s.enter (.serverRecvCb c)).store c bs).channel c).fd = (s.channel c).fd := by
        unfold store
        simp only
        split <;> simp
      rw [hcalls, hfd] at hroute
      exact .done _ hp hf ⟨by simp, by simp⟩ hroute

theorem step_receives (hs : s.Sound) {e : Event} (h : s.step e = some t) (hc : s.Live c)
    (ht : t.Live c) (ha : s.Assembling c pre) (hu : Unfinished pre) :
    s.Receives t c pre (e.input c) ∧ (t.channel c).fd = (s.channel c).fd := by
  rcases step_updates hs h with ⟨fd, rfl, -, rfl⟩ | hup
  · obtain ⟨ha', hr, hfd⟩ := acceptCb_others fd hs hc ha
    exact ⟨.more (by simpa [Event.input] using hu) (by simpa [Event.input] using ha') hr, hfd⟩
  · by_cases hrec : e.recvSlot = some c
    · refine ⟨?_, ((hup c (by simp [hrec])).live_of hs ht).2⟩
      obtain ⟨-, hen, rfl⟩ := step_eq_some.1 h
      cases e with
      | recv d r q =>
        obtain rfl := Option.some.inj hrec
        have hS : ({ s with results := q } : Server).Sound := hs.congr rfl rfl rfl
        have hrc := serverRecvCb_receives hS hen.1 (r := r) hen.2 q ht ⟨ha.pkg, ha.len⟩ hu
        cases hrc with
        | more hu ha hr => exact .more hu ha hr
        | done p hp hf ha hr => exact .done p hp hf ha hr
      | _ => cases hrec
    · obtain ⟨d, hcd, hd⟩ := Event.exists_other hrec
      obtain ⟨ha', hr⟩ := (hup d hd).others hs hcd ht ha
      rw [Event.input_eq_nil hrec]
      exact ⟨.more (by simpa using hu) (by simpa using ha') hr, ((hup d hd).live_of hs ht).2⟩

/-- A connection begins with an empty receive buffer. -/
theorem acceptCb_assembling {fd : ℕ} (hkey : s.channelMap[fd]? = none)
    (hc : (s.acceptCb fd).Live c) (hnew : ¬ s.Live c) : (s.acceptCb fd).Assembling c [] := by
  rcases acceptCb_cases s fd with ⟨d, hd, heq⟩ | ⟨-, heq⟩
  · rw [heq] at hc ⊢
    rcases (accepting_live hkey).1 hc with hcd | hl
    · constructor <;> simp [accepting_channel, hcd, freshChannel]
    · exact absurd hl hnew
  · rw [heq] at hc
    exact absurd hc hnew

theorem assembling_of_reachable (hr : Reachable s) (hc : s.Live c) :
    ∃ pre, Unfinished pre ∧ s.Assembling c pre := by
  refine Runs.Reaches.induction step
    (P := fun s => s.Live c → ∃ pre, Unfinished pre ∧ s.Assembling c pre)
    (fun h => ?_) (fun t e u ht ih h hu => ?_) hr hc
  · simp [Globals.Live, Server.boot] at h
  · have hs : t.Sound := Reachable.sound ht
    by_cases hl : t.Live c
    · obtain ⟨pre, hpre, ha⟩ := ih hl
      cases (step_receives hs h hl hu ha hpre).1 with
      | more hun ha => exact ⟨_, hun, ha⟩
      | done _ _ _ ha => exact ⟨[], unfinished_nil, ha⟩
    · rcases step_updates hs h with ⟨fd, rfl, hen, rfl⟩ | hup
      · exact ⟨[], unfinished_nil, acceptCb_assembling (hs.key_none hen.2.2) hu hl⟩
      · exact absurd ((hup (e.recvSlot.getD 0) fun d hd => by simp_all).live_of hs hu).1 hl

/-- A live connection between two frames has an empty receive buffer. -/
theorem assembling_nil (hr : Reachable s) (hc : s.Live c) (h0 : (s.channel c).recvCtx.len = 0) :
    s.Assembling c [] := by
  obtain ⟨pre, -, ha⟩ := assembling_of_reachable hr hc
  obtain rfl : pre = [] := List.eq_nil_of_length_eq_zero (ha.len.symm.trans h0)
  exact ha

/-- From `s` to `t` the frames `fs` and the beginning `pre` of one more have arrived on `c`. -/
structure Collected (s t : Server) (c : Slot) (input : List UInt8) (fs : List Pkg)
    (pre : List UInt8) : Prop where
  fits : ∀ p ∈ fs, p.len ≤ bufSize
  unfinished : Unfinished pre
  input_eq : input = (fs.map frame).flatten ++ pre
  assembling : t.Assembling c pre
  routed : t.calls.routed c = s.calls.routed c ++ fs.map (received (s.channel c).fd)

section Collected
variable {u : Server} {input : List UInt8} {fs : List Pkg}

theorem Collected.more (h : s.Collected t c input fs pre) (hun : Unfinished (pre ++ bs))
    (ha : u.Assembling c (pre ++ bs)) (hr : u.calls.routed c = t.calls.routed c) :
    s.Collected u c (input ++ bs) fs (pre ++ bs) where
  fits := h.fits
  unfinished := hun
  input_eq := by rw [h.input_eq, List.append_assoc]
  assembling := ha
  routed := hr.trans h.routed

theorem Collected.done (h : s.Collected t c input fs pre)
    (hfd : (t.channel c).fd = (s.channel c).fd) (hp : p.len ≤ bufSize) (hf : p.frame = pre ++ bs)
    (ha : u.Assembling c [])
    (hr : u.calls.routed c = t.calls.routed c ++ [received (t.channel c).fd p]) :
    s.Collected u c (input ++ bs) (fs ++ [p]) [] where
  fits := by simpa [or_imp, forall_and] using ⟨h.fits, hp⟩
  unfinished := unfinished_nil
  input_eq := by simp [h.input_eq, hf]
  assembling := ha
  routed := by rw [hr, h.routed, hfd, List.map_append, List.append_assoc]; rfl

theorem Collected.receives (h : s.Collected t c input fs pre)
    (hfd : (t.channel c).fd = (s.channel c).fd) (hu : t.Receives u c pre bs) :
    ∃ fs' pre', s.Collected u c (input ++ bs) fs' pre' := by
  cases hu with
  | more hun ha hr => exact ⟨fs, _, h.more hun ha hr⟩
  | done p hp hf ha hr => exact ⟨_, [], h.done hfd hp hf ha hr⟩

end Collected

/-- Whatever arrives on a connection, it is frames that were handed over in their order, and
the beginning of one more in the receive buffer. -/
theorem input_assembled {es : List Event} (hs : s.Sound) (hc : s.Live c) (ha : s.Assembling c [])
    (hrun : Runs.run step s es = some t)
    (hal : Runs.Along step (fun _ _ u => u.Live c) s es) :
    t.Sound ∧ t.Live c ∧ (t.channel c).fd = (s.channel c).fd ∧
      ∃ fs pre, s.Collected t c (Event.inputs c es) fs pre := by
  refine Runs.along_induction step (P := fun es t => t.Sound ∧ t.Live c ∧
    (t.channel c).fd = (s.channel c).fd ∧ ∃ fs pre, s.Collected t c (Event.inputs c es) fs pre)
    ⟨hs, hc, rfl, [], [], ?_⟩ ?_ hrun hal
  · exact ⟨by simp, unfinished_nil, rfl, ha, by simp⟩
  · intro es u e v _ ih hstep hv
    obtain ⟨hS, hl, hfd, fs, pre, h⟩ := ih
    obtain ⟨hrec, hfd'⟩ := step_receives hS hstep hl hv h.assembling h.unfinished
    obtain ⟨fs', pre', h'⟩ := h.receives hfd hrec
    exact ⟨hS.step hstep, hv, hfd'.trans hfd, fs', pre', Event.inputs_concat c es e ▸ h'⟩

end Server

end WawaServer
