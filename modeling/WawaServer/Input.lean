import WawaServer.Receive

/-!
# What the clients' bytes become

The frames of a connection reach `handle` and `dispatch` as they were sent, however `recv` cuts
them (`input_framed`). The input of a connection is what the callback of its own slot gets: bytes
that a released slot with the same descriptor takes away are not in it.
-/

namespace WawaServer

namespace Server

open Pkg

variable {s t : Server} {c : Slot} {p : Pkg} {pre : List UInt8} {es : List Event} {gs : List Pkg}

/-- Of the frames `gs` whose bytes arrive on `c`, the first `n` are complete. -/
structure FramesRead (s t : Server) (c : Slot) (input : List UInt8) (gs : List Pkg) (n : ℕ) :
    Prop where
  le : n ≤ gs.length
  /-- They were handed over, in their order. -/
  routed : t.calls.routed c = s.calls.routed c ++ (gs.take n).map (received (s.channel c).fd)
  /-- The other bytes that arrived are in the receive buffer. -/
  rest : ∃ pre, input = ((gs.take n).map frame).flatten ++ pre ∧ t.Assembling c pre
  /-- No request reaches past the end of the current frame. -/
  request : ∀ p, gs[n]? = some p → (t.channel c).recvCtx.len + t.recvCount c ≤ p.total
  /-- After a frame the receive buffer is empty. -/
  whole : ∀ m ≤ gs.length, input = ((gs.take m).map frame).flatten →
    n = m ∧ (t.channel c).recvCtx.len = 0 ∧ (t.channel c).recvCtx.pkg = construct

/-- Frames with the same bytes are handed over alike. -/
theorem map_received_eq {fs gs : List Pkg} (h : fs.map frame = gs.map frame)
    (hfs : ∀ p ∈ fs, p.len ≤ bufSize) (hgs : ∀ p ∈ gs, p.len ≤ bufSize) (fd : ℕ) :
    fs.map (received fd) = gs.map (received fd) := by
  induction fs generalizing gs with
  | nil =>
    cases gs with
    | nil => rfl
    | cons g gs => cases h
  | cons f fs ih =>
    cases gs with
    | nil => cases h
    | cons g gs =>
      simp only [List.map_cons, List.cons.injEq] at h ⊢
      refine ⟨?_, ih h.2 (fun p hp => hfs p (List.mem_cons_of_mem _ hp))
        fun p hp => hgs p (List.mem_cons_of_mem _ hp)⟩
      rw [received, received, h.1, fd_eq_of_frame_eq h.1]

/-- What was read of the frames `gs` is the first of them, and the beginning of one more. -/
theorem Collected.eq_take {input : List UInt8} {fs : List Pkg}
    (h : s.Collected t c input fs pre) (hgs : ∀ p ∈ gs, p.len ≤ bufSize)
    (hin : input <+: (gs.map frame).flatten) :
    fs.map frame = (gs.map frame).take fs.length ∧ pre <+: ((gs.map frame).drop fs.length).flatten := by
  rw [h.input_eq] at hin
  have hisFrame : ∀ l : List Pkg, (∀ p ∈ l, p.len ≤ bufSize) → ∀ f ∈ l.map frame, IsFrame f := by
    intro l hl f hf
    obtain ⟨p, hp, rfl⟩ := List.mem_map.1 hf
    exact ⟨p, hl p hp, rfl⟩
  have heq := isFrame_prefixFree.eq_take (hisFrame fs h.fits) (hisFrame gs hgs) hin
  rwa [List.length_map] at heq

theorem Collected.not_prefix {input : List UInt8} {fs : List Pkg}
    (h : s.Collected t c input fs pre) (hgs : ∀ p ∈ gs, p.len ≤ bufSize) :
    ∀ g ∈ gs.map frame, ¬ g <+: pre := by
  intro g hg
  obtain ⟨p, hp, rfl⟩ := List.mem_map.1 hg
  exact h.unfinished.not_prefix (hgs p hp)

theorem Collected.length_le {input : List UInt8} {fs : List Pkg}
    (h : s.Collected t c input fs pre) (hgs : ∀ p ∈ gs, p.len ≤ bufSize)
    (hin : input <+: (gs.map frame).flatten) : fs.length ≤ gs.length := by
  have hlen := congrArg List.length (h.eq_take hgs hin).1
  simp only [List.length_map, List.length_take] at hlen
  omega

/-- Nothing is left over when the input ends with a frame. -/
theorem Collected.eq_of_whole {fs : List Pkg}
    (h : s.Collected t c (gs.map frame).flatten fs pre) (hgs : ∀ p ∈ gs, p.len ≤ bufSize) :
    fs.length = gs.length ∧ pre = [] := by
  obtain ⟨htake, hrest⟩ := h.eq_take hgs List.prefix_rfl
  have hle := h.length_le hgs List.prefix_rfl
  rcases Frames.prefix_head hrest fun g hg => h.not_prefix hgs g (List.mem_of_mem_drop hg) with
    ⟨hnil, hpre⟩ | ⟨g, gs', hg, -⟩
  · have hge := List.drop_eq_nil_iff.1 hnil
    rw [List.length_map] at hge
    exact ⟨le_antisymm hle hge, hpre⟩
  · have hsplit := List.take_append_drop fs.length (gs.map frame)
    have hin := h.input_eq
    rw [← hsplit, List.flatten_append, ← htake, List.append_cancel_left_eq, hg,
      List.flatten_cons] at hin
    have hmem : g ∈ gs.map frame := List.mem_of_mem_drop (hg ▸ List.mem_cons_self)
    exact absurd (hin ▸ List.prefix_append g _) (h.not_prefix hgs g hmem)

theorem drop_frames {n : ℕ} (hp : gs[n]? = some p) :
    (gs.map frame).drop n = p.frame :: (gs.map frame).drop (n + 1) := by
  rw [List.drop_eq_getElem?_toList_append, List.getElem?_map, hp]
  rfl

/-- The bytes of the current frame that arrived are a beginning of it. -/
theorem Collected.prefix_current {input : List UInt8} {fs : List Pkg}
    (h : s.Collected t c input fs pre) (hgs : ∀ p ∈ gs, p.len ≤ bufSize)
    (hin : input <+: (gs.map frame).flatten) (hp : gs[fs.length]? = some p) : pre <+: p.frame := by
  have hrest := (h.eq_take hgs hin).2
  have hdrop := drop_frames hp
  rcases Frames.prefix_head hrest fun g hg => h.not_prefix hgs g (List.mem_of_mem_drop hg) with
    ⟨hnil, -⟩ | ⟨g, gs', hg, hpre⟩
  · cases hdrop.symm.trans hnil
  · rwa [(List.cons.inj (hdrop.symm.trans hg)).1]

/-- What arrives of the current frame belongs to it. -/
theorem Collected.next_prefix {input bs : List UInt8} {fs : List Pkg}
    (h : s.Collected t c input fs pre) (hgs : ∀ p ∈ gs, p.len ≤ bufSize)
    (hin : input ++ bs <+: (gs.map frame).flatten) (hpos : 0 < bs.length)
    (hle : bs.length ≤ t.recvCount c) : ∃ p ∈ gs, pre ++ bs <+: p.frame := by
  have hin' : input <+: (gs.map frame).flatten := (List.prefix_append _ _).trans hin
  obtain ⟨htake, -⟩ := h.eq_take hgs hin'
  have hrest : pre ++ bs <+: ((gs.map frame).drop fs.length).flatten := by
    rw [h.input_eq, htake, List.append_assoc] at hin
    rwa [← List.take_append_drop fs.length (gs.map frame), List.flatten_append,
      List.take_append_drop, List.prefix_append_right_inj] at hin
  cases hp : gs[fs.length]? with
  -- all frames have arrived, and no byte can follow them
  | none =>
    have hnil : (gs.map frame).drop fs.length = [] := by
      rw [List.drop_eq_nil_iff, List.length_map]
      exact List.getElem?_eq_none_iff.1 hp
    rw [hnil, List.flatten_nil, List.prefix_nil] at hrest
    have hlen := congrArg List.length hrest
    rw [List.length_append, List.length_nil] at hlen
    omega
  | some p =>
    have hmem := List.mem_of_getElem? hp
    refine ⟨p, hmem, ?_⟩
    rw [drop_frames hp, List.flatten_cons] at hrest
    apply List.prefix_of_prefix_length_le hrest (List.prefix_append _ _)
    -- a request ends where the frame does
    have hend := request_end h.assembling h.unfinished
    rw [h.assembling.len] at hend
    obtain ⟨x, hx⟩ := h.prefix_current hgs hin' hp
    have hmono := total_filled_le pre x
    rw [hx, total_filled_frame (hgs p hmem)] at hmono
    rw [List.length_append, length_frame]
    omega

theorem Collected.framesRead {input : List UInt8} {fs : List Pkg}
    (h : s.Collected t c input fs pre) (hgs : ∀ p ∈ gs, p.len ≤ bufSize)
    (hin : input <+: (gs.map frame).flatten) : s.FramesRead t c input gs fs.length := by
  have htake := (h.eq_take hgs hin).1
  refine ⟨h.length_le hgs hin, ?_, ⟨pre, ?_, h.assembling⟩, fun p hp => ?_, fun m hm hmin => ?_⟩
  · rw [h.routed, map_received_eq (htake.trans List.map_take.symm) h.fits
      fun p hp => hgs p (List.mem_of_mem_take hp)]
  · rw [List.map_take, ← htake]
    exact h.input_eq
  · obtain ⟨x, hx⟩ := h.prefix_current hgs hin hp
    have hmono := total_filled_le pre x
    rw [hx, total_filled_frame (hgs p (List.mem_of_getElem? hp))] at hmono
    rwa [request_end h.assembling h.unfinished]
  · rw [hmin] at h
    obtain ⟨hlen, rfl⟩ := h.eq_of_whole fun p hp => hgs p (List.mem_of_mem_take hp)
    rw [List.length_take, min_eq_left hm] at hlen
    exact ⟨hlen, h.assembling.len, h.assembling.pkg.trans filled_nil⟩

/-- However the bytes of frames that the callback of `c` gets are cut by `recv`, and whatever else
happens, the frames are handed over. -/
theorem input_framed (hr : Reachable s) (hc : s.Live c) (h0 : (s.channel c).recvCtx.len = 0)
    (hrun : Runs.run step s es = some t) (hal : Runs.Along step (fun _ _ u => u.Live c) s es)
    (hgs : ∀ p ∈ gs, p.len ≤ bufSize) (hin : Event.inputs c es <+: (gs.map frame).flatten) :
    ∃ n, s.FramesRead t c (Event.inputs c es) gs n := by
  obtain ⟨-, -, -, fs, pre, h⟩ := input_assembled hr.sound hc (assembling_nil hr hc h0) hrun hal
  exact ⟨fs.length, h.framesRead hgs hin⟩

/-- A frame of 13 bytes arrives in four pieces; the length field is cut in two. -/
def inPieces : List Event :=
  let frame := encode .streamDataNtf 6 [77]
  [.recv 0 (.data (frame.take 3)) Event.takesAll, .recv 0 .again Event.takesAll,
    .recv 0 (.data ((frame.drop 3).take 2)) Event.takesAll, .accept 6,
    .recv 0 (.data ((frame.drop 5).take 7)) Event.takesAll,
    .recv 0 (.data (frame.drop 12)) Event.takesAll]

theorem input_framed_inPieces : ∃ n, (after [.accept 5]).FramesRead (after ([.accept 5] ++ inPieces))
    0 (Event.inputs 0 inPieces) [filled (encode .streamDataNtf 6 [77])] n :=
  input_framed (reachable_after _ (by decide +kernel)) (by decide +kernel) (by decide +kernel)
    (run_after _ _ (by decide +kernel)) (by decide +kernel) (by decide +kernel) (by decide +kernel)

end Server

end WawaServer
