import WawaServer.Demultiplexing

/-!
# The relay goes on

While the server relays from `a` to the connections in `D` it is never stuck: either `a` is read, or
exactly one destination has a frame in hand and is written to. A callback that moves bytes cannot
happen more often than there are bytes, so the stream is through after as many of them
(`demultiplexer_live`).
-/

namespace WawaServer

/-- Bytes arrive on `a`. -/
def Event.Brings (a : Slot) : Event → Prop
  | .recv c (.data _) _ => c = a
  | _ => False

/-- `send` takes bytes for `d`, which has the descriptor `fd`. -/
def Event.Takes (d : Slot) (fd : ℕ) : Event → Prop
  | .send c r => c = d ∧ ∃ k, (r fd).head? = some (.sent k)
  | _ => False

instance (a : Slot) : ∀ e : Event, Decidable (e.Brings a)
  | .recv _ (.data _) _ => inferInstanceAs (Decidable (_ = _))
  | .recv _ .closed _ | .recv _ .again _ | .recv _ .error _ => inferInstanceAs (Decidable False)
  | .accept _ | .acceptError | .send _ _ => inferInstanceAs (Decidable False)

instance (o : Option SendResult) : Decidable (∃ k, o = some (.sent k)) :=
  match o with
  | some (.sent k) => .isTrue ⟨k, rfl⟩
  | some .again | some .error | none => .isFalse nofun

instance (d : Slot) (fd : ℕ) : ∀ e : Event, Decidable (e.Takes d fd)
  | .send _ _ => inferInstanceAs (Decidable (_ ∧ _))
  | .accept _ | .acceptError | .recv _ _ _ => inferInstanceAs (Decidable False)

namespace Server

open Pkg

variable {s t u : Server} {a c d : Slot} {D : Slot → Prop} {p : Pkg} {gs : List Pkg} {fd : ℕ}

/-! ## What was sent stays sent -/

theorem prefix_update (f : ℕ → List UInt8) (fd fd' : ℕ) (bs : List UInt8) :
    f fd <+: Function.update f fd' (f fd' ++ bs) fd := by
  by_cases h : fd = fd'
  · subst h
    simp
  · simp [h]

/-- Effects add to the output of a connection. -/
theorem Effect.sent_grows (h : Effect s t) (fd : ℕ) : s.sent fd <+: t.sent fd := by
  cases h <;> simp [replying, notifying, unbridged, relaying, pausing, sending, finishing,
    prefix_update]

theorem Update.sent_grows (h : Update c s t) (hs : s.Sound) (fd : ℕ) :
    s.sent fd <+: t.sent fd := by
  cases h with
  | effect h => exact h.sent_grows fd
  | closing h => exact (closing_effect hs h).sent_grows fd
  | _ => exact List.prefix_rfl

theorem Updates.sent_grows (h : Updates c s t) (hs : s.Sound) (fd : ℕ) :
    s.sent fd <+: t.sent fd := by
  induction h with
  | refl => exact List.prefix_rfl
  | tail h' h ih => exact ih.trans (h.sent_grows (hs.updates h') fd)

/-- Only `accept` starts the output of a descriptor again. -/
theorem step_sent_grows {e : Event} (hs : s.Sound) (hst : s.step e = some t)
    (hop : s.opened fd = true) : s.sent fd <+: t.sent fd := by
  rcases step_cases hs hst with ⟨fd', rfl, ⟨-, -, hno⟩, rfl⟩ | ⟨c, hu⟩
  · have hne : fd ≠ fd' := by
      rintro rfl
      rw [hop] at hno
      cases hno
    rcases acceptCb_cases s fd' with ⟨c, -, heq⟩ | ⟨-, heq⟩
    · simp [heq, accepting, hne]
    · simp [heq, refusing, hne]
  · exact hu.sent_grows hs fd

variable {q : Demux Slot UInt8} {e : Event} {es : List Event}

/-- A call of `send` that takes bytes of a frame in hand. -/
theorem Demuxes.takes (hs : t.Sound) (h : s.Demuxes t a D q) (hd : D d)
    (hst : t.step e = some u) (he : e.Takes d (t.channel d).fd) :
    (t.sent (t.channel d).fd).length < (u.sent (t.channel d).fd).length := by
  obtain ⟨-, hen, rfl⟩ := step_eq_some.1 hst
  cases e with
  | send c r =>
    obtain ⟨rfl, k, hk⟩ := he
    have hout := h.output c hd
    obtain ⟨hlen, -⟩ := hout.pending hen
    have hcount := sendCount_eq (s := { t with results := r }) hlen
      (total_le (hs.slot c).len_le)
    have hop : t.opened (t.channel c).fd = true := (hs.map _ c hout.live).2.2.2
    obtain ⟨rs, hrs⟩ : ∃ rs, r (t.channel c).fd = .sent k :: rs := List.head?_eq_some_iff.1 hk
    have ho : ({ t with results := r } : Server).outcome (t.channel c).fd
        (Globals.sendCount { t with results := r } c) =
          .sent (Globals.accepted k (Globals.sendCount { t with results := r } c)) := by
      simp only [Globals.outcome, hop, hrs, if_true]
    have hpos : 0 < Globals.accepted k (Globals.sendCount { t with results := r } c) := by
      unfold Globals.accepted
      split
      · rename_i h0
        simp only at hcount
        omega
      · exact Nat.lt_of_lt_of_le Nat.zero_lt_one (Nat.le_max_left ..)
    have hsend := serverSendCb_of_sent ho
    show _ < ((({ t with results := r } : Server).serverSendCb c).sent (t.channel c).fd).length
    rw [hsend]
    split
    · simp [sending, hpos]
    · split <;> simp [finishing, sending, hpos]
  | _ => exact he.elim

/-- The calls of `send` that took bytes for `d` are no more than the bytes that `d` was sent. -/
theorem Idle.countP_takes (hr : Reachable s) (h : s.Idle a D)
    (hrun : Runs.run step s es = some t) (hal : Runs.Along step (DemuxStep a D gs) s es)
    (hgs : s.Carries D gs) (hin : Event.inputs a es <+: (gs.map frame).flatten) (hd : D d) :
    (s.sent (s.channel d).fd).length + es.countP (Event.Takes d (s.channel d).fd ·) ≤
      (t.sent (s.channel d).fd).length := by
  have hcount : t.Sound ∧ (t.channel a).fd = (s.channel a).fd ∧
      s.Demultiplexed t a D gs (Event.inputs a es) ∧
      (s.sent (s.channel d).fd).length + es.countP (Event.Takes d (s.channel d).fd ·) ≤
        (t.sent (s.channel d).fd).length := by
    refine Runs.along_induction step (P := fun es t =>
      Event.inputs a es <+: (gs.map frame).flatten → t.Sound ∧
        (t.channel a).fd = (s.channel a).fd ∧ s.Demultiplexed t a D gs (Event.inputs a es) ∧
          (s.sent (s.channel d).fd).length + es.countP (Event.Takes d (s.channel d).fd ·) ≤
            (t.sent (s.channel d).fd).length)
      (fun _ => ⟨hr.sound, rfl, h.demultiplexed hr, le_rfl⟩) ?_ hrun hal hin
    intro es u e v _ ih hst hR hpre
    rw [Event.inputs_concat] at hpre ⊢
    obtain ⟨hS, hfda, hdem, hle⟩ := ih ((List.prefix_append _ _).trans hpre)
    obtain ⟨hdem', hfda'⟩ := hdem.step hr.sound hS hfda hst hR hgs hpre
    refine ⟨hS.step hst, hfda', hdem', ?_⟩
    obtain ⟨-, -, q, -, hq, -, -⟩ := hdem
    have hout := hq.output d hd
    rw [List.countP_append, List.countP_singleton]
    split
    · rename_i htakes
      have hlt := hq.takes hS hd hst (by rw [hout.fd]; exact of_decide_eq_true htakes)
      rw [hout.fd] at hlt
      omega
    · have hop : u.opened (s.channel d).fd = true := by
        rw [← hout.fd]
        exact (hS.map _ d hout.live).2.2.2
      have hmono := (step_sent_grows hS hst hop).length_le
      omega
  exact hcount.2.2.2

/-- Every call that brings bytes brings at least one. -/
theorem countP_brings_le (hrun : Runs.run step s es = some t) :
    es.countP (Event.Brings a ·) ≤ (Event.inputs a es).length := by
  induction es generalizing s with
  | nil => exact le_rfl
  | cons e es ih =>
    obtain ⟨u, hst, hrest⟩ := (Runs.run_cons_eq_some step).1 hrun
    have hle := ih hrest
    have hinputs : Event.inputs a (e :: es) = e.input a ++ Event.inputs a es := by
      simp [Event.inputs]
    rw [List.countP_cons, hinputs, List.length_append]
    split
    · rename_i hbrings
      have hpos : 0 < (e.input a).length := by
        obtain ⟨-, hen, -⟩ := step_eq_some.1 hst
        cases e with
        | recv c r q =>
          cases r with
          | data bs =>
            obtain rfl : c = a := of_decide_eq_true hbrings
            show 0 < (if c = c then bs else []).length
            rw [if_pos rfl]
            exact hen.2.2.1
          | _ => exact absurd (of_decide_eq_true hbrings) id
        | _ => exact absurd (of_decide_eq_true hbrings) id
      omega
    · omega

/-- The relay of `gs` from `a` to `D`, in the state `t` after the events `es`: it is not stuck, and
what was done is bounded by the bytes there are. -/
structure GoesOn (s t : Server) (a : Slot) (D : Slot → Prop) (gs : List Pkg) (es : List Event) :
    Prop where
  /-- `a` can be read, or exactly one destination can be written to. -/
  step : t.fault = none →
    ((∀ d, D d → t.unsent d = []) ∧ 0 < t.recvCount a ∧ ∀ bs r, 0 < bs.length →
      bs.length ≤ t.recvCount a → (t.step (.recv a (.data bs) r)).isSome = true) ∨
    ∃ d, D d ∧ t.unsent d ≠ [] ∧ (∀ e, D e → t.unsent e ≠ [] → e = d) ∧
      ∀ r, (t.step (.send d r)).isSome = true
  brings : es.countP (Event.Brings a ·) ≤ (gs.map frame).flatten.length
  takes : ∀ d, D d → es.countP (Event.Takes d (s.channel d).fd ·) ≤
    ((packetsFor s.toGlobals d gs).map frame).flatten.length

/-- A packet that is being received asks for more bytes. -/
theorem recvCount_pos {pre : List UInt8} (h : t.Assembling a pre) (hun : Unfinished pre) :
    0 < t.recvCount a := by
  rw [recvCount_eq h hun.length_le]
  have ht := (filled pre).twelve_le_total
  rcases hun with hun | ⟨-, hun⟩
  · simp only [sizeofHead] at hun
    omega
  · omega

/-- The packets for `d` among the first ones are no more than those among all. -/
theorem packetsFor_take_le (v : Globals) (d : Slot) (gs : List Pkg) (n : ℕ) :
    ((packetsFor v d (gs.take n)).map frame).flatten.length ≤
      ((packetsFor v d gs).map frame).flatten.length := by
  have hsplit : packetsFor v d gs = packetsFor v d (gs.take n) ++ packetsFor v d (gs.drop n) := by
    rw [packetsFor, packetsFor, packetsFor, ← List.filter_append, List.take_append_drop]
  rw [hsplit, List.map_append, List.flatten_append, List.length_append]
  exact Nat.le_add_right _ _

/-- The relay is never stuck, and done after as many callbacks as there are bytes. -/
theorem demultiplexer_live (hr : Reachable s) (h : s.Idle a D)
    (hrun : Runs.run step s es = some t) (hal : Runs.Along step (DemuxStep a D gs) s es)
    (hgs : s.Carries D gs) (hin : Event.inputs a es <+: (gs.map frame).flatten) :
    s.GoesOn t a D gs es := by
  obtain ⟨hS, -, fs, pre, q, hc, hq, hlog, -⟩ := h.run hr hrun hal hgs hin
  have hfits : ∀ p ∈ gs, p.len ≤ bufSize := fun p hp => (hgs p hp).1
  have hrest : ∀ d, D d → (t.unsent d ≠ [] ↔ q.rest d ≠ []) := fun d hd => by
    rw [(hq.output d hd).unsent]
  refine ⟨fun hfault => ?_, ?_, fun d hd => ?_⟩
  · by_cases hrecv : (t.channel a).recvCtx.io.active = true
    · -- nothing is in hand, and `recv` is asked for the rest of a frame
      refine .inl ⟨fun d hd => ?_, recvCount_pos hc.assembling hc.unfinished, ?_⟩
      · rw [(hq.output d hd).unsent]
        exact hq.rest_eq_nil hrecv d
      · intro bs r hpos hle
        have hop : t.opened (t.channel a).recvCtx.io.fd = true := by
          rw [(hS.slot a).recvFd]
          exact (hS.map _ a hq.srcLive).2.2.2
        have hen : t.Enabled (.recv a (.data bs) r) := ⟨hrecv, hop, hpos, hle⟩
        rw [step_eq_some.2 ⟨hfault, hen, rfl⟩]
        rfl
    · -- somebody has a frame in hand, and nobody else does
      rw [hq.handshake] at hrecv
      push Not at hrecv
      obtain ⟨d, hd, hon⟩ := hrecv
      have hne := (hq.output d hd).active_iff.1 hon
      refine .inr ⟨d, hd, (hrest d hd).2 hne, fun e he hne' => ?_, fun r => ?_⟩
      · exact q.eq_of_rest_ne_nil ((hrest e he).1 hne') hne
      · have hen : t.Enabled (.send d r) := hon
        rw [step_eq_some.2 ⟨hfault, hen, rfl⟩]
        rfl
  · exact (countP_brings_le hrun).trans hin.length_le
  · have hle := h.countP_takes hr hrun hal hgs hin hd
    have hout := hq.output d hd
    have hflat := congrArg List.length (q.flatten_framesOf d)
    have hfs : fs.map frame = (gs.take fs.length).map frame := by
      rw [List.map_take]
      exact (hc.eq_take hfits hin).1
    rw [hlog, destinations_congr hfs, framesOf_destinations, List.length_append] at hflat
    have hmono := packetsFor_take_le s.toGlobals d gs fs.length
    rw [hout.sent, List.length_append] at hle
    omega

theorem demultiplexer_live_switched :
    (after [.accept 5, .accept 6, .accept 7]).GoesOn
      (after ([.accept 5, .accept 6, .accept 7] ++ switched)) 0 (fun d => d = 1 ∨ d = 2)
      switchedPkgs switched :=
  demultiplexer_live (reachable_after _ (by decide +kernel)) switched_idle
    (run_after _ _ (by decide +kernel)) (switched_demux _) switched_carries (by decide +kernel)

end Server
end WawaServer
