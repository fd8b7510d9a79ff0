import WawaServer.Messages
import WawaServer.Demultiplexing

/-!
# Frames that come to nothing

A frame that names no destination is for the server, and one whose command has no handler is read
and forgotten. A run goes the same way without the frames of that kind that a connection sends
(`unheard`).
-/

namespace WawaServer

/-- The packet is for the server, which has no handler for it. -/
structure Pkg.Inert (p : Pkg) : Prop where
  fd : p.fd = 0
  handler : ¬ p.HasHandler
  len : p.len ≤ bufSize

instance (p : Pkg) : Decidable p.Inert :=
  decidable_of_iff (p.fd = 0 ∧ ¬ p.HasHandler ∧ p.len ≤ bufSize)
    ⟨fun h => ⟨h.1, h.2.1, h.2.2⟩, fun h => ⟨h.fd, h.handler, h.len⟩⟩

/-- The message is not a frame on `c`. -/
def Message.notOn (c : Slot) : Message → Bool
  | .frame d _ _ => decide (d ≠ c)
  | _ => true

/-- The message is not a frame that comes to nothing. -/
def Message.heard : Message → Bool
  | .frame _ bytes _ => decide (¬ (Pkg.filled bytes).Inert)
  | _ => true

/-- It is so for what the server receives of it. -/
theorem Pkg.Inert.filled {p : Pkg} (h : p.Inert) : (Pkg.filled p.frame).Inert where
  fd := (Pkg.fd_filled_frame h.len).trans h.fd
  handler := mt (Pkg.hasHandler_filled_frame h.len).1 h.handler
  len := (Pkg.len_filled_frame h.len).trans_le h.len

namespace Server

open Pkg

variable {s t : Server} {c : Slot} {p : Pkg} {bytes : List UInt8} {m : Message} {ms : List Message}
  {gs : List Pkg}

/-- Such a packet changes nothing. -/
theorem alike_route (h0 : (s.channel c).recvCtx.pkg.fd = 0)
    (hno : ¬ (s.channel c).recvCtx.pkg.HasHandler) : Alike s (s.route c) := by
  rw [HasHandler, not_or] at hno
  rw [route_of_request h0]
  simp only [handle, cmd_setFd, if_neg hno.1, if_neg hno.2]
  exact { (Alike.refl s).recvPkg c _ with }

/-- The server has nothing in its receive buffers, and no history. -/
def Settled (s : Server) : Prop := s.settled = s

theorem settled_settled (s : Server) : s.settled.Settled := rfl

theorem messageStep_settled (h : s.messageStep m = some t) : t.Settled := by
  obtain ⟨-, -, rfl⟩ := messageStep_eq_some.1 h
  exact settled_settled _

theorem messageStep_inert {q : ℕ → List SendResult} (hs : s.Settled) (hp : (filled bytes).Inert)
    (h : s.messageStep (.frame c bytes q) = some t) : t = s := by
  obtain ⟨-, -, rfl⟩ := messageStep_eq_some.1 h
  have hset : Alike { s with results := q }
      (({ s with results := q } : Server).setRecvPkg c (filled bytes)) :=
    (Alike.refl _).recvPkg c _
  have hroute := alike_route (c := c)
    (s := ({ s with results := q } : Server).setRecvPkg c (filled bytes))
    (by simpa using hp.fd) (by simpa using hp.handler)
  have hsame := (hset.trans hroute).settled_eq
  exact hsame.symm.trans hs

/-- Messages of that kind can be left out. -/
theorem run_filter_inert {keep : Message → Bool} (hrun : Runs.run messageStep s.settled ms = some t)
    (h : ∀ m ∈ ms, keep m = false → ∃ d bytes q, m = .frame d bytes q ∧ (filled bytes).Inert) :
    Runs.run messageStep s.settled (ms.filter keep) = some t := by
  refine Runs.run_filter (I := Settled) (fun _ h => messageStep_settled h) ?_ (settled_settled s)
    hrun
  intro m hm hkeep s' t' hs' hst
  obtain ⟨d, bytes, q, rfl, hp⟩ := h m hm hkeep
  exact messageStep_inert hs' hp hst

/-- The server that is told of no such frame comes to the same state. -/
theorem inert_unheard {es : List Event} (hr : Reachable s) (hrun : Runs.run step s es = some t)
    (hown : Runs.Along step ReadsOwn s es) :
    Runs.run messageStep s.settled ((Runs.trace step messages s es).filter Message.heard) =
      some t.settled := by
  apply run_filter_inert (simulates_messages.run hr hrun hown).1
  intro m _ hm
  cases m with
  | frame d bytes q => exact ⟨d, bytes, q, rfl, by simpa [Message.heard] using hm⟩
  | _ => cases hm

/-! ## Streams of such frames -/

theorem mem_framesOn : bytes ∈ framesOn c ms ↔ ∃ q, .frame c bytes q ∈ ms := by
  induction ms with
  | nil => simp [framesOn]
  | cons m ms ih =>
    cases m with
    | frame d bs q =>
      by_cases hd : d = c
      · subst hd
        simp only [framesOn, if_true, List.singleton_append, List.mem_cons, ih,
          Message.frame.injEq, true_and]
        constructor
        · rintro (rfl | ⟨q', h⟩)
          · exact ⟨q, .inl ⟨rfl, rfl⟩⟩
          · exact ⟨q', .inr h⟩
        · rintro ⟨q', ⟨rfl, -⟩ | h⟩
          · exact .inl rfl
          · exact .inr ⟨q', h⟩
      · simp [framesOn, hd, ih, Ne.symm hd]
    | _ => simp [framesOn, ih]

/-- The server is told of whole frames. -/
theorem isFrame_of_run {q : ℕ → List SendResult} (h : Runs.run messageStep s ms = some t)
    (hm : .frame c bytes q ∈ ms) : IsFrame bytes := by
  induction ms generalizing s with
  | nil => cases hm
  | cons m ms ih =>
    obtain ⟨u, hu, ht⟩ := (Runs.run_cons_eq_some messageStep).1 h
    rcases List.mem_cons.1 hm with rfl | hm
    · obtain ⟨-, ⟨-, hlen, htotal⟩, -⟩ := messageStep_eq_some.1 hu
      exact ⟨filled bytes, hlen, frame_filled hlen htotal⟩
    · exact ih ht hm

/-- While all that arrives on `c` is such frames, the others might as well be alone: the server that
is told of everything but the frames on `c` comes to the same state. -/
theorem unheard {es : List Event} (hr : Reachable s) (hc : s.Live c)
    (h0 : (s.channel c).recvCtx.len = 0) (hrun : Runs.run step s es = some t)
    (hown : Runs.Along step ReadsOwn s es) (hal : Runs.Along step (fun _ _ u => u.Live c) s es)
    (hgs : ∀ p ∈ gs, p.Inert) (hin : Event.inputs c es <+: (gs.map frame).flatten) :
    Runs.run messageStep s.settled ((Runs.trace step messages s es).filter (·.notOn c)) =
      some t.settled := by
  have hfollow := (simulates_messages.run hr hrun hown).1
  obtain ⟨-, -, pre, -, -, hbytes⟩ := run_frames hr hc (assembling_nil hr hc h0) hrun hal
  rw [hbytes] at hin
  have hframes : ∀ f ∈ gs.map frame, IsFrame f := by
    intro f hf
    obtain ⟨p, hp, rfl⟩ := List.mem_map.1 hf
    exact ⟨p, (hgs p hp).len, rfl⟩
  have htake := (isFrame_prefixFree.eq_take (fun f hf => by
    obtain ⟨q, hm⟩ := mem_framesOn.1 hf
    exact isFrame_of_run hfollow hm) hframes hin).1
  apply run_filter_inert hfollow
  intro m hm hon
  cases m with
  | frame d bytes q =>
    obtain rfl : d = c := by simpa [Message.notOn] using hon
    have hmem : bytes ∈ gs.map frame :=
      List.mem_of_mem_take (htake ▸ mem_framesOn.2 ⟨q, hm⟩)
    obtain ⟨p, hp, rfl⟩ := List.mem_map.1 hmem
    exact ⟨d, p.frame, q, rfl, (hgs p hp).filled⟩
  | _ => cases hon

theorem framesOn_filter_heard (c : Slot) (ms : List Message) :
    framesOn c (ms.filter Message.heard) =
      (framesOn c ms).filter fun bytes => ¬ (filled bytes).Inert := by
  induction ms with
  | nil => rfl
  | cons m ms ih =>
    cases m with
    | frame d bytes q =>
      by_cases hp : (filled bytes).Inert <;> by_cases hd : d = c <;>
        simp [framesOn, Message.heard, hp, hd, ih]
    | _ =>
      rw [List.filter_cons_of_pos rfl]
      exact ih

end Server
end WawaServer
