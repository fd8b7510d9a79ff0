import WawaServer.Demultiplexing

/-!
# Relaying to one

A stream of frames from the connection in slot `a` to the one in slot `d`, while nobody else
touches the two: the demultiplexer with one destination (`RelayStep.demux`). What `d` was sent is
the beginning of what was relayed, and only the end of the last frame is missing (`relay_fifo`).
-/

namespace WawaServer

namespace Server

open Pkg

variable {s t u : Server} {a d : Slot} {e : Event} {es : List Event} {gs fs : List Pkg}

/-- The step leaves the channels in `a` and `d` and the output of `d` alone. -/
structure Untouched (s t : Server) (a d : Slot) : Prop where
  src : t.channel a = s.channel a
  dst : t.channel d = s.channel d
  srcLive : t.Live a
  dstLive : t.Live d
  sent : t.sent (s.channel d).fd = s.sent (s.channel d).fd

/-- A step of a run that relays from `a` to `d`, which has the descriptor `fd`: data or
`EAGAIN` for `a`, a `server_send_cb` of `d`, or a step of others. No `send` on `fd` fails. -/
inductive RelayStep (a d : Slot) (fd : ℕ) (s : Server) : Event → Server → Prop
  | data (bs : List UInt8) (q : ℕ → List SendResult) (t : Server) (hq : .error ∉ q fd) :
      RelayStep a d fd s (.recv a (.data bs) q) t
  | again (q : ℕ → List SendResult) (t : Server) : RelayStep a d fd s (.recv a .again q) t
  | send (q : ℕ → List SendResult) (t : Server) (hq : .error ∉ q fd) :
      RelayStep a d fd s (.send d q) t
  | other (e : Event) (t : Server) (he : e.recvSlot ≠ some a) (h : s.Untouched t a d) :
      RelayStep a d fd s e t

theorem Untouched.apart (h : s.Untouched t a d) : s.Apart t a (· = d) where
  src := h.src
  srcLive := h.srcLive
  dst e he := by
    subst he
    exact ⟨h.dst, h.dstLive, h.sent⟩

/-- A descriptor that is open is not given away. -/
theorem ne_accept_of_live {fd : ℕ} (hs : t.Sound) (hd : t.Live d) (hfd : (t.channel d).fd = fd)
    (he : t.step e = some u) : e ≠ .accept fd := by
  intro hacc
  subst hacc hfd
  obtain ⟨-, hen, -⟩ := step_eq_some.1 he
  have hopen : t.opened (t.channel d).fd = true := (hs.map _ d hd).2.2.2
  have hclosed := hen.2.2
  rw [hopen] at hclosed
  cases hclosed

/-- While `d` keeps its descriptor, the relay to it is a demultiplexer. -/
theorem RelayStep.demux {fd : ℕ} (hs : t.Sound) (hd : t.Live d) (hfd : (t.channel d).fd = fd)
    (hgs : ∀ p ∈ gs, p.fd = fd) (he : t.step e = some u) (h : RelayStep a d fd t e u) :
    DemuxStep a (· = d) gs t e u := by
  cases h with
  | data bs q _ hq =>
    apply DemuxStep.data
    intro d' hd'
    rw [hd', hfd]
    exact hq
  | again q _ => exact .again q _
  | send q _ hq => exact .send d q _ rfl (hfd ▸ hq)
  | other _ _ hrecv hun =>
    apply DemuxStep.other _ _ hrecv hun.apart
    intro p hp
    rw [hgs p hp]
    exact ne_accept_of_live hs hd hfd he

/-- `d` has been sent the frames `fs`, but for the end of the one in hand. -/
structure FifoRelayed (s t : Server) (a d : Slot) (fs : List Pkg) : Prop where
  out : ∃ out, t.sent (s.channel d).fd = s.sent (s.channel d).fd ++ out ∧
    (fs.map frame).flatten = out ++ t.unsent d
  last : t.unsent d ≠ [] → ∃ p ∈ fs.getLast?, t.unsent d <:+ p.frame
  drained : (t.channel d).sendCtx.io.active = false → t.unsent d = []
  handshake : (t.channel a).recvCtx.io.active = true ↔ (t.channel d).sendCtx.io.active = false

/-- All packets of a stream for `d` are for `d`. -/
theorem packetsFor_eq_self {v : Globals} (h : ∀ p ∈ gs, v.channelMap[p.fd]? = some d) :
    packetsFor v d gs = gs := by
  rw [packetsFor, List.filter_eq_self]
  intro p hp
  exact decide_eq_true (h p hp)

theorem PassedOn.fifoRelayed (h : s.PassedOn t a (· = d) fs)
    (hfs : ∀ p ∈ fs, s.channelMap[p.fd]? = some d)
    (hact : (t.channel d).sendCtx.io.active = true ↔ t.unsent d ≠ []) :
    s.FifoRelayed t a d fs where
  out := by
    have hout := h.out d rfl
    rwa [packetsFor_eq_self hfs] at hout
  last hne := by
    obtain ⟨f, hf, hsuf⟩ := h.last d rfl hne
    have hall : fs.filterMap (destination s.toGlobals) = fs.map fun p => (d, p.frame) := by
      rw [← List.filterMap_eq_map]
      apply List.filterMap_congr
      intro p hp
      rw [destination, hfs p hp]
      rfl
    rw [hall, List.getLast?_map] at hf
    obtain ⟨p, hp, heq⟩ := Option.map_eq_some_iff.1 hf
    cases heq
    exact ⟨p, hp, hsuf⟩
  drained hoff := by simp [Globals.unsent, hoff]
  handshake := by
    rw [h.handshake, ← Bool.not_eq_true, hact, not_not]
    exact ⟨fun hnil => hnil d rfl, fun hnil e he => he ▸ hnil⟩

/-- Whatever the pieces in which `recv` and `send` cut it, the stream from `a` reaches `d`. The
stream is what the callbacks of `a` itself get: what another slot reads on the same descriptor is
none of it. -/
theorem relay_fifo (hr : Reachable s) (ha : s.Live a) (hd : s.Live d)
    (hact : (s.channel a).recvCtx.io.active = true) (h0 : (s.channel a).recvCtx.len = 0)
    (hoff : (s.channel d).sendCtx.io.active = false) (hrun : Runs.run step s es = some t)
    (hal : Runs.Along step (RelayStep a d (s.channel d).fd) s es)
    (hgs : ∀ p ∈ gs, p.len ≤ bufSize ∧ p.fd = (s.channel d).fd)
    (hin : Event.inputs a es <+: (gs.map frame).flatten) :
    ∃ n, s.FramesRead t a (Event.inputs a es) gs n ∧ s.FifoRelayed t a d (gs.take n) := by
  have hidle : s.Idle a (· = d) := ⟨ha, hact, h0, fun e he => he ▸ ⟨hd, hoff⟩⟩
  have hmap : ∀ p ∈ gs, s.channelMap[p.fd]? = some d := fun p hp => (hgs p hp).2 ▸ hd
  have hcarries : s.Carries (· = d) gs := fun p hp =>
    ⟨(hgs p hp).1, .inr ⟨d, rfl, hmap p hp⟩⟩
  have hdem : t.Sound ∧ (t.channel a).fd = (s.channel a).fd ∧
      s.Demultiplexed t a (· = d) gs (Event.inputs a es) := by
    -- the steps are those of the demultiplexer because `d` has its descriptor all along
    refine Runs.along_induction step (P := fun es t => Event.inputs a es <+: (gs.map frame).flatten →
      t.Sound ∧ (t.channel a).fd = (s.channel a).fd ∧
        s.Demultiplexed t a (· = d) gs (Event.inputs a es))
      (fun _ => ⟨hr.sound, rfl, hidle.demultiplexed hr⟩) ?_ hrun hal hin
    intro es u e v _ ih hstep hR hpre
    rw [Event.inputs_concat] at hpre ⊢
    obtain ⟨hS, hfda, hrel⟩ := ih ((List.prefix_append _ _).trans hpre)
    obtain ⟨_, _, _, _, hq, -, -⟩ := id hrel
    have hout := hq.output d rfl
    have hR' := hR.demux hS hout.live hout.fd (fun p hp => (hgs p hp).2) hstep
    obtain ⟨hrel', hfda'⟩ := hrel.step hr.sound hS hfda hstep hR' hcarries hpre
    exact ⟨hS.step hstep, hfda', hrel'⟩
  obtain ⟨-, -, hdem⟩ := hdem
  obtain ⟨n, hread, hpassed⟩ := hdem.passedOn hcarries hin
  obtain ⟨_, _, _, _, hq, -, -⟩ := hdem
  have hout := hq.output d rfl
  refine ⟨n, hread, hpassed.fifoRelayed (fun p hp => hmap p (List.mem_of_mem_take hp)) ?_⟩
  rw [hout.active_iff, hout.unsent]

/-- A frame for `6` is sent in three pieces. -/
def relayed : List Event :=
  let frame := encode .streamDataNtf 6 [77]
  [.recv 0 (.data (frame.take 12)) Event.takesAll, .recv 0 .again Event.takesAll,
    .recv 0 (.data (frame.drop 12)) (fun _ => [.sent 3]), .send 1 (fun _ => [.again]),
    .send 1 (fun _ => [.sent 4]), .send 1 Event.takesAll]

theorem relay_fifo_relayed : ∃ n,
    (after [.accept 5, .accept 6]).FramesRead (after ([.accept 5, .accept 6] ++ relayed)) 0
      (Event.inputs 0 relayed) [filled (encode .streamDataNtf 6 [77])] n ∧
    (after [.accept 5, .accept 6]).FifoRelayed (after ([.accept 5, .accept 6] ++ relayed)) 0 1
      ([filled (encode .streamDataNtf 6 [77])].take n) := by
  refine relay_fifo (reachable_after _ (by decide +kernel)) (by decide +kernel)
    (by decide +kernel) (by decide +kernel) (by decide +kernel) (by decide +kernel)
    (run_after _ _ (by decide +kernel)) (Runs.along_of_forall step ?_ _) (by decide +kernel)
    (by decide +kernel)
  intro e he s t
  simp only [relayed, List.mem_cons, List.not_mem_nil, or_false] at he
  rcases he with rfl | rfl | rfl | rfl | rfl | rfl
  · exact .data _ _ _ (by decide +kernel)
  · exact .again _ _
  · exact .data _ _ _ (by decide +kernel)
  · exact .send _ _ (by decide +kernel)
  · exact .send _ _ (by decide +kernel)
  · exact .send _ _ (by decide +kernel)

end Server

end WawaServer
