import WawaServer.Clients.Threads
import WawaServer.Delivery
import WawaServer.Answers

/-!
# Where the frames of a camera thread go

`server_recv_cb` looks at `stHead.fd` of a packet: 0 goes to `handle`, anything else to `dispatch`.
A camera thread sends the packets of a picture with the `remotefd` that it read before the first of
them. The loop for the headers sets no descriptor, so that the server hands those packets to
`handle`, which has no handler for them.
-/

namespace WawaServer
namespace Server

variable {s t u : Server} {c : Slot} {p : Pkg} {R : ℕ}

/-! ## The server -/

/-- From `s` to `t` the last bytes of the frame of `p` arrive on the connection of `c`. -/
structure Arrives (s t : Server) (c : Slot) (p : Pkg) : Prop where
  reachable : Reachable s
  live : s.Live c
  step : ∃ bs q, s.step (.recv c (.data bs) q) = some t ∧ p.frame = s.arrived c ++ bs
  len : p.len ≤ bufSize

/-- From `s` to `t` the packet `p` was passed to `dispatch` with the destination `R`, and nothing to
`handle`. -/
structure RoutedTo (s t : Server) (p : Pkg) (R : ℕ) : Prop where
  relays : t.calls.relays = (Pkg.filled p.frame, R) :: s.calls.relays
  handled : t.calls.handled = s.calls.handled

theorem relays_of_inner (k : Call) (g : Globals) (l : History) (h : Inner (fun _ => True) k) :
    History.relays ((k, g) :: l) = l.relays := by
  cases k <;> first | rfl | cases h

theorem dispatch_relays (s : Server) (pkg : Pkg) (srcfd dstfd : ℕ) :
    (s.dispatch pkg srcfd dstfd).1.calls.relays = (pkg, dstfd) :: s.calls.relays :=
  dispatch_inner relays_of_inner (fun _ => trivial) s pkg srcfd dstfd

/-- A whole packet is routed by its descriptor. -/
theorem route_routedTo (ha : s.Assembling c p.frame) (hp : p.len ≤ bufSize) :
    RoutedTo s (s.route c) p R ↔ p.fd = R ∧ R ≠ 0 := by
  have hfd : (Pkg.filled p.frame).fd = p.fd := Pkg.fd_filled_frame hp
  by_cases h0 : p.fd = 0
  · -- for the server
    refine ⟨fun h => ?_, fun h => absurd (h.1.symm.trans h0) h.2⟩
    have hhandled := h.handled
    rw [route_of_request (by rw [ha.pkg, hfd, h0])] at hhandled
    have hlen := congrArg List.length ((handle_handled _ _).symm.trans hhandled)
    simp [History.handled] at hlen
  · -- for another connection
    have hroute := route_of_relay (s := s) (c := c) (by rwa [ha.pkg, hfd])
    rw [ha.pkg, hfd] at hroute
    have hrelays : (s.route c).calls.relays =
        (Pkg.filled p.frame, p.fd) :: s.calls.relays := by
      rw [hroute]
      exact dispatch_relays _ _ _ _
    constructor
    · intro h
      have heq := (List.cons.inj (hrelays.symm.trans h.relays)).1
      obtain rfl : p.fd = R := congrArg Prod.snd heq
      exact ⟨rfl, h0⟩
    · rintro ⟨rfl, -⟩
      refine ⟨hrelays, ?_⟩
      rw [hroute]
      exact dispatch_handled _ _ _ _

theorem Arrives.routedTo_iff (h : Arrives s t c p) : RoutedTo s t p R ↔ p.fd = R ∧ R ≠ 0 := by
  obtain ⟨bs, q, hstep, hframe⟩ := h.step
  obtain ⟨pre, hun, ha⟩ := assembling_of_reachable h.reachable h.live
  rw [arrived_eq ha hun] at hframe
  obtain ⟨-, hst, heq⟩ := step_whole h.reachable.sound hstep ha hun h.len hframe
  have hrelays : (s.stored c bs q).calls.relays = s.calls.relays := by
    rw [stored_calls]
    rfl
  have hhandled : (s.stored c bs q).calls.handled = s.calls.handled := by
    rw [stored_calls]
    rfl
  have hroute := route_routedTo (R := R) hst h.len
  rw [heq]
  constructor
  · intro hto
    refine hroute.1 ⟨?_, ?_⟩
    · rw [hrelays]
      exact hto.relays
    · rw [hhandled]
      exact hto.handled
  · intro hp
    have hto := hroute.2 hp
    exact ⟨hrelays ▸ hto.relays, hhandled ▸ hto.handled⟩

end Server

namespace Raspi

open Process

variable {s t u : Process} {p : Pkg} {R i : ℕ} {x y : ThreadAt} {e : ThreadEvent} {ps : List Pkg}

/-! ## The packets of a camera thread -/

theorem fd_copyBody (pkg : Pkg) (buf : List UInt8) (off : ℤ) : (copyBody pkg buf off).fd = pkg.fd :=
  Buffer.word_write_of_outside _ _ _ (Or.inl le_rfl)

theorem len_copyBody (pkg : Pkg) (buf : List UInt8) (off : ℤ) :
    (copyBody pkg buf off).len = pkg.len :=
  Buffer.word_write_of_outside _ _ _ (Or.inl (by decide))

theorem fd_nextChunk (pkg : Pkg) (buf : List UInt8) (len byteLeft : ℤ) :
    (nextChunk pkg buf len byteLeft).1.fd = pkg.fd := by
  unfold nextChunk
  split <;> rw [fd_copyBody, Pkg.fd_setLen]

theorem fd_nextHeaderChunk (pkg : Pkg) (pacBuf beyond : List UInt8) (byteLeft : ℤ) :
    (nextHeaderChunk pkg pacBuf beyond byteLeft).1.fd = pkg.fd := by
  unfold nextHeaderChunk
  rw [fd_copyBody, fd_nextChunk]

theorem len_nextChunk (pkg : Pkg) (buf : List UInt8) (len : ℤ) {byteLeft : ℤ} (h : 0 < byteLeft) :
    0 < (nextChunk pkg buf len byteLeft).1.len ∧
      (nextChunk pkg buf len byteLeft).1.len ≤ bufSize := by
  unfold nextChunk
  split
  · rw [len_copyBody, Pkg.len_setLen (by decide)]
    decide
  · have hlt : byteLeft.toNat < bufSize := by omega
    rw [len_copyBody, Pkg.len_setLen (hlt.trans (by decide))]
    omega

theorem len_nextHeaderChunk (pkg : Pkg) (pacBuf beyond : List UInt8) {byteLeft : ℤ}
    (h : 0 < byteLeft) :
    0 < (nextHeaderChunk pkg pacBuf beyond byteLeft).1.len ∧
      (nextHeaderChunk pkg pacBuf beyond byteLeft).1.len ≤ bufSize := by
  unfold nextHeaderChunk
  rw [len_copyBody]
  exact len_nextChunk pkg _ _ h

/-- What the loop for the headers sends has no descriptor. -/
def ThreadAt.HeaderUnset : ThreadAt → Prop
  | .header pkg _ _ _ => pkg.fd = 0
  | _ => True

/-- If a loop that sends goes on from here, it sends a packet of a picture for `R`. -/
def ThreadAt.PictureFor (R : ℕ) : ThreadAt → Prop
  | .header _ _ _ byteLeft => ¬ 0 < byteLeft
  | .picture pkg _ byteLeft => 0 < byteLeft → pkg.fd = R ∧ R ≠ 0
  | _ => True

theorem next_headerUnset {status : CameraStatus} {remotefd : ℕ} (hx : x.HeaderUnset)
    (h : x.next status remotefd e = some (y, ps)) : y.HeaderUnset := by
  cases x with
  | looping =>
    cases e with
    | packGet pacBuf beyond =>
      cases h
      exact (Pkg.fd_setCmd ..).trans (Buffer.word_zero _)
    | encodeDo encBuf =>
      simp only [ThreadAt.next] at h
      split at h <;> (cases h; trivial)
    | _ => cases h <;> trivial
  | testing =>
    cases e with
    | test =>
      cases h
      split <;> trivial
    | _ => cases h
  | header pkg pacBuf beyond byteLeft =>
    cases e with
    | round ok =>
      simp only [ThreadAt.next] at h
      split at h
      · cases ok with
        | true =>
          cases h
          exact (fd_nextHeaderChunk pkg pacBuf beyond byteLeft).trans hx
        | false =>
          cases h
          trivial
      · cases h
        trivial
    | _ => cases h
  | picture pkg encBuf byteLeft =>
    cases e with
    | round ok =>
      simp only [ThreadAt.next] at h
      split at h
      · cases ok <;> (cases h; trivial)
      · cases h
        trivial
    | _ => cases h
  | _ => cases e <;> cases h <;> trivial

namespace Process

/-- The packets of headers have no descriptor. -/
def HeadersUnset (s : Process) : Prop := ∀ x ∈ s.threads, x.HeaderUnset

/-- A packet that this step sends is one of a picture that was begun when `remotefd` was `R`. -/
def PicturesFor (R : ℕ) (s : Process) (e : ProcessEvent) (_ : Process) : Prop :=
  ∀ i x, e = .thread i (.round true) → s.threads[i]? = some x → x.PictureFor R

theorem HeadersUnset.step {e : ProcessEvent} (h : s.HeadersUnset) (hst : s.step e = some t) :
    t.HeadersUnset := by
  rcases step_cases hst with ⟨i, e', rfl⟩ | ⟨-, -, hmain⟩
  · obtain ⟨x, y, ps, hx, hy, rfl⟩ := step_thread.1 hst
    intro z hz
    rcases List.mem_or_eq_of_mem_set hz with hz | rfl
    · exact h z hz
    · exact next_headerUnset (h x (List.mem_of_getElem? hx)) hy
  · unfold HeadersUnset
    cases hmain with
    | same hthreads =>
      rw [hthreads]
      exact h
    | returned hthreads =>
      rw [hthreads]
      exact fun _ hx => absurd hx List.not_mem_nil
    | created _ hthreads =>
      rw [hthreads]
      exact List.forall_mem_append.2 ⟨h, List.forall_mem_singleton.2 trivial⟩

/-- In `t` a START for `R` has been received, and from `t` to `u` no later one is. -/
structure Streams (R : ℕ) (t : Process) (fs : List ProcessEvent) (u : Process) : Prop where
  start : ∃ es s ntf, Runs.run step boot es = some s ∧ s.step (.recv (some ntf)) = some t ∧
    ntf.IsStart ∧ ntf.reserve = R
  run : Runs.run step t fs = some u
  noStart : ∀ ntf, ProcessEvent.recv (some ntf) ∈ fs → ¬ ntf.IsStart

end Process

end Raspi
end WawaServer
