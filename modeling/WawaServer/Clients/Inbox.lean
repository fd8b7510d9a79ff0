import WawaServer.Clients.Waiting
import WawaServer.Outbox

/-!
# A client gets its outbox

What the server counts as sent is what a client gets: the calls of `recv_pkg` on a connection return
the messages of its outbox, one by one and in their order, wherever `send` and `recv` cut the
stream (`inbox_eq_outbox`).
-/

namespace WawaServer

/-- The packets that `recv_pkg` returns for the messages of an outbox. -/
def History.inbox (fd : ℕ) (l : History) : List Pkg :=
  (l.outbox fd).map fun m => Pkg.filled m.1.frame

namespace Server

open Pkg

variable {κ : Kernel} {fuel : ℕ} {s : Server} {c : Slot} {k : Socket}

/-- While the output of the server is framed, a program that calls `recv_pkg` in a loop is fed with
the messages of its outbox. `P ps` is what holds of it after the packets `ps`. It goes on as long as
it does not leave at one of them, and then waits for the next one. -/
theorem inbox_feeds {σ ρ : Type*} (body : σ → Option (σ ⊕ ρ)) (sock : σ → Socket)
    (P : List Pkg → σ → Prop) (Q : List Pkg → σ → Pkg → ρ → Prop) (x : Reader) (m₀ : σ)
    (hκ : κ.Progresses) (hfuel : sizeofPkg < fuel) (hr : Reachable s) (hG : s.Heeds FrameSafe)
    (hc : s.Live c) (hwaits : ∀ m, x.recvPkg κ fuel (sock m) = none → body m = none)
    (hfed : ∀ ps, ∀ y ∈ s.calls.outbox (s.channel c).fd, ∀ m rest, P ps m → y.1.len ≤ bufSize →
      (sock m).input = y.1.frame ++ rest →
      (∃ t, body m = some (.inl t) ∧ (sock t).input = rest ∧ P (ps ++ [filled y.1.frame]) t) ∨
        ∃ r, body m = some (.inr r) ∧ Q ps m (filled y.1.frame) r)
    (hP : P [] m₀) (hin : (sock m₀).input <+: s.sent (s.channel c).fd) :
    ∃ n m, Loop.rounds body n m₀ = some m ∧ n ≤ (s.calls.inbox (s.channel c).fd).length ∧
      P ((s.calls.inbox (s.channel c).fd).take n) m ∧
      (body m = none ∧ ((sock m₀).input = s.sent (s.channel c).fd →
          n = (s.calls.inbox (s.channel c).fd).length) ∨
        ∃ p r, (s.calls.inbox (s.channel c).fd)[n]? = some p ∧ body m = some (.inr r) ∧
          Q ((s.calls.inbox (s.channel c).fd).take n) m p r) := by
  have hall := allMailed_keeps.reachable hr hG
  have hmail := hall.mailed c hc
  obtain ⟨hpart, hlt⟩ := (hall.inFrames c hc).begun_lt
  have hlength : (s.calls.inbox (s.channel c).fd).length =
      (s.calls.outbox (s.channel c).fd).length := List.length_map _
  have hinbox : ∀ n, ((s.calls.outbox (s.channel c).fd).take n).map
      (fun y => filled y.1.frame) = (s.calls.inbox (s.channel c).fd).take n := by
    intro n
    rw [History.inbox, List.map_take]
  rw [hmail.sent, History.outboxBytes] at hin
  have hrun := Loop.rounds_of_frames body (fun m => (sock m).input) (fun y => y.1.frame)
    (fun ys m => P (ys.map fun y => filled y.1.frame) m)
    (fun ys m y r => Q (ys.map fun y => filled y.1.frame) m (filled y.1.frame) r)
    [] (s.calls.outbox (s.channel c).fd) (s.begun c) ?_ ?_ ?_ (s := m₀) hP hin
  · obtain ⟨n, m, hrounds, hm, hn, hend⟩ := hrun
    rw [List.nil_append, hinbox] at hm hend
    refine ⟨n, m, hrounds, hlength ▸ hn, hm, ?_⟩
    rcases hend with ⟨hnone, hwhole⟩ | ⟨y, r, hy, hr, hQ⟩
    · refine .inl ⟨hnone, fun heq => ?_⟩
      -- all bytes have arrived
      rw [hlength]
      apply hwhole
      rw [heq, hmail.sent, History.outboxBytes]
      exact List.prefix_append _ _
    · refine .inr ⟨filled y.1.frame, r, ?_, hr, hQ⟩
      rw [History.inbox, List.getElem?_map, hy]
      rfl
  · intro ys y hy m rest hm hrest
    rcases hfed _ y hy m rest hm (hmail.fits y hy) hrest with ⟨t, ht, hint, hPt⟩ | hQ
    · refine .inl ⟨t, ht, hint, ?_⟩
      rwa [List.map_append]
    · exact .inr hQ
  · intro y hy m hpre hshort
    rw [length_frame] at hshort
    exact hwaits m (x.recvPkg_waits hκ.recv (hmail.fits y hy) hpre hshort hfuel)
  · intro m hpre
    exact hwaits m (x.recvPkg_waits hκ.recv (hr.sound.slot c).len_le (hpre.trans hpart)
      (hpre.length_le.trans_lt hlt) hfuel)

/-- While the output of the server is framed, a client reads the messages of its outbox as far as
their bytes have arrived, and waits for the next one. -/
theorem inbox_eq_outbox (hκ : κ.Progresses) (hfuel : sizeofPkg < fuel) (hr : Reachable s)
    (hG : s.Heeds FrameSafe) (hc : s.Live c)
    (hpos : ∀ m ∈ s.calls.outbox (s.channel c).fd, 0 < m.1.len)
    (hin : k.input <+: s.sent (s.channel c).fd) (x : Reader) :
    ∃ n l, Loop.rounds (x.inboxRound κ fuel) n (k, []) =
        some (l, (s.calls.inbox (s.channel c).fd).take n) ∧
      (∀ m, Loop.run (x.inboxRound κ fuel) m (k, []) = none) ∧
      (k.input = s.sent (s.channel c).fd →
        (s.calls.inbox (s.channel c).fd).take n = s.calls.inbox (s.channel c).fd) := by
  have hfeeds := inbox_feeds (s := s) (c := c) (x.inboxRound κ fuel) (fun st => st.1)
    (fun ps st => st.2 = ps) (fun _ _ _ _ => False) x (k, []) hκ hfuel hr hG hc ?_ ?_ rfl hin
  · obtain ⟨n, ⟨l, ps⟩, hrounds, -, rfl, hend⟩ := hfeeds
    rcases hend with ⟨hwait, hall⟩ | ⟨p, r, -, -, hno⟩
    · refine ⟨n, l, hrounds, Loop.run_eq_none hrounds hwait, fun hwhole => ?_⟩
      rw [hall hwhole, List.take_length]
    · exact hno.elim
  · intro st hnone
    simp only [Reader.inboxRound, hnone]
  · rintro ps y hy ⟨l, qs⟩ rest rfl hlen hrest
    obtain ⟨m, hm, hgot⟩ := x.recvPkg_gotTo hκ.recv (hpos y hy) hlen hrest hfuel
    left
    refine ⟨(m, qs ++ [filled y.1.frame]), ?_, ?_, rfl⟩
    · simp only [Reader.inboxRound, hm]
      rfl
    · exact (List.append_cancel_left (hrest.symm.trans hgot.input)).symm

/-- The viewer gets the answers to its two requests. The frame is not complete. -/
theorem inbox_eq_outbox_watched : ((after watched).calls.inbox 6).length = 2 ∧
    ∃ n l, Loop.rounds (Reader.remote.inboxRound (.atMost 5) 1500) n
      (⟨(after watched).sent 6, [], 0, []⟩, []) = some (l, (after watched).calls.inbox 6) := by
  have hfd : ((after watched).channel 1).fd = 6 := by decide +kernel
  obtain ⟨n, l, hrounds, -, hall⟩ := inbox_eq_outbox (s := after watched) (c := 1)
    (k := ⟨(after watched).sent 6, [], 0, []⟩) (Kernel.atMost_progresses (m := 5) (by decide))
    (show sizeofPkg < 1500 by decide) (reachable_after _ (by decide +kernel)) (by decide +kernel)
    (by decide +kernel) (by decide +kernel) (by rw [hfd]) .remote
  rw [hfd] at hrounds hall
  rw [hall rfl] at hrounds
  exact ⟨by decide +kernel, n, l, hrounds⟩

end Server
end WawaServer
