import WawaServer.Clients.Camera
import WawaServer.Clients.Waiting
import WawaServer.Liveness

/-!
# From the camera to the file

The camera thread, the server and the viewers in one: however the bytes are cut on the way, what a
viewer has written is the beginning of the pictures for it, and it waits for the rest
(`pictures_arrive`). The headers are for nobody, and the server drops them.
-/

namespace WawaServer

open Pkg

variable {κ : Kernel} {fuel : ℕ}

/-! ## The server between the two -/

/-- What the viewer `v` does with a part of `bs`: it writes the beginning of `bs` that has arrived
in whole packets, and waits. -/
structure Remote.Viewer.Shows (κ : Kernel) (fuel : ℕ) (v w : Remote.Viewer) (bs : List UInt8) :
    Prop where
  rounds : ∃ n, Loop.rounds (Remote.writeRound κ fuel) n v = some w
  waits : ∀ n, Loop.run (Remote.writeRound κ fuel) n v = none
  file : ∃ cs, w.file = v.file ++ cs ∧ cs <+: bs

namespace Server

variable {s t : Server} {a d : Slot} {D : Slot → Prop} {gs : List Pkg} {es : List Event}
  {c e : Raspi.Camera} {shots : List Raspi.Shot}

/-- The server gets what the camera thread has sent between `c` and `e`, or a beginning of it, while
it relays from `a` to `D`. Every connection that a picture is for is one of `D`. -/
structure Transmits (c e : Raspi.Camera) (shots : List Raspi.Shot) (s t : Server) (a : Slot)
    (D : Slot → Prop) (es : List Event) : Prop where
  reachable : Reachable s
  idle : s.Idle a D
  run : Runs.run step s es = some t
  steps : Runs.Along step (DemuxStep a D (e.pkgs.drop c.pkgs.length)) s es
  input : Event.inputs a es <+: e.sock.output.drop c.sock.output.length
  viewers : ∀ shot ∈ shots, ∀ d, s.channelMap[shot.remotefd]? = some d → D d

/-- All of it has arrived at the server, and then at the viewer in `d`. -/
structure Through (c e : Raspi.Camera) (s t : Server) (a d : Slot) (es : List Event)
    (v : Remote.Viewer) : Prop where
  input : Event.inputs a es = e.sock.output.drop c.sock.output.length
  unsent : t.unsent d = []
  sent : v.sock.input = (t.sent (s.channel d).fd).drop (s.sent (s.channel d).fd).length

/-- The server has a place for every packet of the camera thread: the headers are dropped. -/
theorem carries_of_airs (h : Raspi.Airs c e gs shots)
    (hD : ∀ shot ∈ shots, ∀ d, s.channelMap[shot.remotefd]? = some d → D d) : s.Carries D gs := by
  intro p hp
  refine ⟨(h.fits p hp).2, ?_⟩
  by_cases h0 : p.fd = 0
  · refine .inl (.inl ⟨h0, ?_⟩)
    rw [HasHandler, h.cmd p hp]
    decide
  · cases hmap : s.channelMap[p.fd]? with
    | none => exact .inl (.inr ⟨h0, hmap⟩)
    | some d =>
      obtain ⟨shot, hshot, hfd⟩ := (h.fd p hp).resolve_left h0
      exact .inr ⟨d, hD shot hshot d (hfd ▸ hmap), rfl⟩

/-- The packets for a connection are those with its descriptor. -/
theorem packetsFor_eq (hs : s.Sound) (hd : s.Live d) (gs : List Pkg) :
    packetsFor s.toGlobals d gs = gs.filter fun p => p.fd = (s.channel d).fd := by
  apply List.filter_congr
  intro p _
  rw [decide_eq_decide]
  constructor
  · exact fun hmap => (hs.fd_eq hmap).symm
  · rintro hfd
    rw [hfd]
    exact hd

/-- The camera thread sends the headers and the pictures, and each viewer writes the pictures for it
as far as they have arrived. -/
theorem pictures_arrive {κ' : Kernel} (hκ : κ.Progresses) (hκ' : κ'.Progresses)
    (hfuel : sizeofPkg < fuel) (hshots : ∀ shot ∈ shots, shot.Bounded fuel) (c : Raspi.Camera) :
    ∃ e, Raspi.cameraLoop κ fuel c shots = some (e, true) ∧ ∀ s t a D es,
      Transmits c e shots s t a D es → ∀ d, D d → ∀ v : Remote.Viewer,
        v.sock.input <+: (t.sent (s.channel d).fd).drop (s.sent (s.channel d).fd).length →
        ∃ w, v.Shows κ' fuel w (Raspi.pictures (s.channel d).fd shots) ∧
          (Through c e s t a d es v →
            w.file = v.file ++ Raspi.pictures (s.channel d).fd shots) := by
  obtain ⟨e, ps, hrun, h⟩ := Raspi.cameraLoop_airs hκ hfuel hshots c
  refine ⟨e, hrun, fun s t a D es htr d hd v hin => ?_⟩
  have hs := htr.reachable.sound
  have hps : e.pkgs.drop c.pkgs.length = ps := by rw [h.pkgs, List.drop_left]
  have hout : e.sock.output.drop c.sock.output.length = (ps.map frame).flatten := by
    rw [h.output, List.drop_left]
  have hinput := htr.input
  have hsteps := htr.steps
  rw [hout] at hinput
  rw [hps] at hsteps
  -- the server has passed on the first `n` packets
  have hgs := carries_of_airs h htr.viewers
  obtain ⟨-, -, hdem⟩ := htr.idle.run htr.reachable htr.run hsteps hgs hinput
  obtain ⟨n, hread, hpassed⟩ := hdem.passedOn hgs hinput
  obtain ⟨out, hsent, hflat⟩ := hpassed.out d hd
  have hlive := (htr.idle.dst d hd).1
  rw [hsent, List.drop_left] at hin
  rw [packetsFor_eq hs hlive] at hflat
  -- of those the viewer has got the first `m` for it
  obtain ⟨m, w, hrounds, hwait, hfile, hall⟩ :=
    Remote.writeLoop_prefix v ((ps.take n).filter fun p => p.fd = (s.channel d).fd) hκ' hfuel
      (fun p hp => h.fits p (List.mem_of_mem_take (List.mem_of_mem_filter hp)))
      (hin.trans (hflat ▸ List.prefix_append out _))
  have hdata := h.data (s.channel d).fd (hs.fd_ne_zero hlive)
  refine ⟨w, ⟨⟨m, hrounds⟩, Loop.run_eq_none hrounds hwait, _, hfile, ?_⟩, fun hthrough => ?_⟩
  · rw [← hdata]
    have hpre : ((ps.take n).filter fun p => p.fd = (s.channel d).fd).take m <+:
        ps.filter fun p => p.fd = (s.channel d).fd :=
      (List.take_prefix m _).trans ((List.take_prefix n ps).filter _)
    obtain ⟨qs, hqs⟩ := hpre
    rw [← hqs, List.map_append, List.flatten_append]
    exact List.prefix_append _ _
  · -- everything was read, sent and received
    obtain ⟨hn, -⟩ := hread.whole ps.length le_rfl (by
      rw [List.take_length, ← hout]
      exact hthrough.input)
    rw [hn, List.take_length] at hflat hfile hall
    have hvin : v.sock.input = ((ps.filter fun p => p.fd = (s.channel d).fd).map frame).flatten := by
      rw [hflat, hthrough.unsent, List.append_nil, hthrough.sent, hsent, List.drop_left]
    rw [hfile, hall (hvin ▸ List.prefix_rfl), List.take_length, hdata]

/-- A picture for `6` after headers, and one for `7`. -/
def shownShots : List Raspi.Shot := [⟨[([1, 2, 3], [9, 9, 9])], 6, [3]⟩, ⟨[], 7, [4]⟩]

/-- They arrive at the server, which sends the packet for `6` in two pieces. -/
def shown : List Event :=
  Event.stream 0 0 [9, 9, 9] Event.takesAll ++ Event.stream 0 6 [3] (fun _ => [.sent 5]) ++
    [.send 1 Event.takesAll] ++ Event.stream 0 7 [4] Event.takesAll

theorem shown_demux (gs : List Pkg) (s : Server) :
    Runs.Along step (DemuxStep 0 (fun d => d = 1 ∨ d = 2) gs) s shown := by
  apply Runs.along_of_forall
  intro e he s t
  have hall : ∀ fd, SendResult.error ∉ Event.takesAll fd := fun _ => by simp [Event.takesAll]
  simp only [shown, List.mem_append, List.mem_singleton] at he
  rcases he with ((he | he) | rfl) | he
  · obtain ⟨bs, rfl⟩ := mem_stream he
    exact .data _ _ _ fun d _ => hall _
  · obtain ⟨bs, rfl⟩ := mem_stream he
    exact .data _ _ _ fun d _ => by simp
  · exact .send _ _ _ (.inl rfl) (hall _)
  · obtain ⟨bs, rfl⟩ := mem_stream he
    exact .data _ _ _ fun d _ => hall _

theorem pictures_arrive_shown : ∃ e w,
    Raspi.cameraLoop (.atMost 10) 1500 ⟨⟨[], [], 0, []⟩, [], false⟩ shownShots = some (e, true) ∧
    Transmits ⟨⟨[], [], 0, []⟩, [], false⟩ e shownShots (after [.accept 5, .accept 6, .accept 7])
      (after ([.accept 5, .accept 6, .accept 7] ++ shown)) 0 (fun d => d = 1 ∨ d = 2) shown ∧
    Remote.Viewer.Shows (.atMost 5) 1500
      ⟨⟨(after ([.accept 5, .accept 6, .accept 7] ++ shown)).sent 6, [], 0, []⟩, [8], 0⟩ w [3] ∧
    w.file = [8, 3] := by
  have hshots : ∀ shot ∈ shownShots, shot.Bounded 1500 := by
    intro shot hshot
    simp only [shownShots, List.mem_cons, List.not_mem_nil, or_false] at hshot
    rcases hshot with rfl | rfl
    · exact ⟨by decide, by decide, by decide⟩
    · exact ⟨by decide, by decide, by decide⟩
  obtain ⟨e, hrun, h⟩ := pictures_arrive (Kernel.atMost_progresses (m := 10) (by decide))
    (Kernel.atMost_progresses (m := 5) (by decide)) (by decide) hshots ⟨⟨[], [], 0, []⟩, [], false⟩
  have hout : e.sock.output = Event.inputs 0 shown := by
    have hmap : (Raspi.cameraLoop (.atMost 10) 1500 ⟨⟨[], [], 0, []⟩, [], false⟩ shownShots).map
        (fun r => r.1.sock.output) = some (Event.inputs 0 shown) := by decide +kernel
    rw [hrun] at hmap
    exact Option.some.inj hmap
  have htr : Transmits ⟨⟨[], [], 0, []⟩, [], false⟩ e shownShots
      (after [.accept 5, .accept 6, .accept 7])
      (after ([.accept 5, .accept 6, .accept 7] ++ shown)) 0 (fun d => d = 1 ∨ d = 2) shown := {
    reachable := reachable_after _ (by decide +kernel)
    idle := switched_idle
    run := run_after _ _ (by decide +kernel)
    steps := shown_demux _ _
    input := by
      rw [hout]
      exact List.prefix_rfl
    viewers := by
      intro shot hshot d hd
      simp only [shownShots, List.mem_cons, List.not_mem_nil, or_false] at hshot
      rcases hshot with rfl | rfl
      · left
        exact Option.some.inj (hd.symm.trans (by decide +kernel))
      · right
        exact Option.some.inj (hd.symm.trans (by decide +kernel)) }
  obtain ⟨w, hw, hall⟩ := h _ _ _ _ _ htr 1 (.inl rfl)
    ⟨⟨(after ([.accept 5, .accept 6, .accept 7] ++ shown)).sent 6, [], 0, []⟩, [8], 0⟩
    (by decide +kernel)
  refine ⟨e, w, hrun, htr, hw, ?_⟩
  exact hall ⟨by rw [hout]; rfl, by decide +kernel, by decide +kernel⟩

end Server

end WawaServer
