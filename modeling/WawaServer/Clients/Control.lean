import WawaServer.Clients.Inbox
import WawaServer.Clients.Requests
import WawaServer.Clients.Pictures

/-!
# What the server has told the raspi

`main` of `raspi.cpp` registers, checks that the answer is one, and then takes its orders. However
its threads are scheduled, `camera_status` and `remotefd` are what the latest START and RESTART say
(`run_control`), and those are the messages that the server has sent it (`orders_follow`).
-/

namespace WawaServer

/-- The packet is a RESTART. -/
def Pkg.IsRestart (p : Pkg) : Prop := p.cmd = PkgCmdType.restartClientNtf.code

instance (p : Pkg) : Decidable p.IsRestart := inferInstanceAs (Decidable (_ = _))

namespace Raspi

open Pkg

/-- `main` of `raspi.cpp` at a `recv_pkg`: the number of packets that it has received, and the
process, whose threads take no step meanwhile. -/
structure Main where
  sock : Socket
  received : ℕ
  process : Process

/-- `main` up to the first `recv_pkg`. -/
def start (κ : Kernel) (fuel : ℕ) (pkg : Pkg) (k : Socket) : Option (Main ⊕ (Main × ℤ)) :=
  match sendPkg κ fuel k (registerClientReq pkg) with
  | none => none
  | some (k, iRet) =>
    let m : Main := ⟨k, 0, .boot⟩
    if iRet ≠ 0 then some (.inr (m, -1)) else some (.inl m)

/-- The way of `main` back to `recv_pkg`, through `pthread_create` if it has received a START. -/
def Process.back (ok : Bool) (s : Process) : Process :=
  match s.main with
  | .assigning reserve =>
    { s with
      main := .receiving
      remotefd := reserve
      threads := if ok then s.threads ++ [.created] else s.threads }
  | _ => s

/-- `main` from one `recv_pkg` to the next. `ok` tells whether `pthread_create` creates a thread
after the `i`-th packet. -/
def mainRound (κ : Kernel) (fuel : ℕ) (ok : ℕ → Bool) (m : Main) : Option (Main ⊕ (Main × ℤ)) :=
  match recvPkg κ fuel m.sock with
  | none => none
  | some (k, recvpkg, iRet) =>
    let m := { m with sock := k }
    if m.received = 0 then
      if iRet ≠ 0 ∨ recvpkg.cmd ≠ PkgCmdType.registerClientRes.code then some (.inr (m, -1))
      else some (.inl { m with received := 1 })
    else if iRet ≠ 0 then some (.inr ({ m with process := m.process.received none }, -1))
    else
      some (.inl { m with
        received := m.received + 1
        process := (m.process.received (some recvpkg)).back (ok m.received) })

/-! ## Orders -/

/-- What `camera_status` is after the packets `ps`. -/
def statusOf (ps : List Pkg) : CameraStatus :=
  match (ps.filter fun p => p.IsStart ∨ p.IsRestart).getLast? with
  | none => .start
  | some p => if p.IsRestart then .stop else .start

/-- What `remotefd` is after the packets `ps`. -/
def remotefdOf (ps : List Pkg) : ℕ := (ps.filter fun p => p.IsStart).getLast?.elim 0 reserve

theorem statusOf_concat (ps : List Pkg) (p : Pkg) : statusOf (ps ++ [p]) =
    if p.IsRestart then .stop else if p.IsStart then .start else statusOf ps := by
  unfold statusOf
  rw [List.filter_append]
  by_cases hrestart : p.IsRestart
  · simp [hrestart]
  · by_cases hstart : p.IsStart
    · simp [hrestart, hstart]
    · simp [hrestart, hstart]

theorem remotefdOf_concat (ps : List Pkg) (p : Pkg) :
    remotefdOf (ps ++ [p]) = if p.IsStart then p.reserve else remotefdOf ps := by
  unfold remotefdOf
  rw [List.filter_append]
  by_cases hstart : p.IsStart
  · simp [hstart]
  · simp [hstart]

/-- The packet that `recv_pkg` returns. -/
def ProcessEvent.recvpkg : ProcessEvent → Option Pkg
  | .recv recvpkg => recvpkg
  | .assign => none
  | .create _ => none
  | .thread _ _ => none

namespace Process

variable {s t : Process} {ev : ProcessEvent} {es : List ProcessEvent} {p : Pkg} {ps : List Pkg}

/-- The packets that `main` has received. -/
def receivedPkgs (es : List ProcessEvent) : List Pkg := es.filterMap ProcessEvent.recvpkg

/-- What `remotefd` is when `main` is back at `recv_pkg`. -/
def target (s : Process) : ℕ :=
  match s.main with
  | .assigning reserve => reserve
  | _ => s.remotefd

/-- `camera_status` and `remotefd` are what the packets `ps` say. -/
structure Obeys (ps : List Pkg) (s : Process) : Prop where
  status : s.status = statusOf ps
  target : s.target = remotefdOf ps

theorem receivedPkgs_concat (es : List ProcessEvent) (ev : ProcessEvent) :
    receivedPkgs (es ++ [ev]) = receivedPkgs es ++ ev.recvpkg.toList := by
  rw [receivedPkgs, List.filterMap_append]
  cases h : ev.recvpkg with
  | none => simp [receivedPkgs, h]
  | some p => simp [receivedPkgs, h]

theorem Obeys.received (h : s.Obeys ps) (hmain : s.main = .receiving) (p : Pkg) :
    (s.received (some p)).Obeys (ps ++ [p]) := by
  have htarget := h.target
  rw [Process.target, hmain] at htarget
  simp only [Process.received]
  split
  · rename_i hrestart
    have hstart : ¬ p.IsStart := by
      intro hstart
      cases hrestart.symm.trans hstart
    constructor
    · rw [statusOf_concat, if_pos (show p.IsRestart from hrestart)]
    · rw [remotefdOf_concat, if_neg hstart, Process.target, hmain]
      exact htarget
  · rename_i hrestart
    have hrestart : ¬ p.IsRestart := hrestart
    split
    · rename_i hstart
      have hstart : p.IsStart := hstart
      constructor
      · rw [statusOf_concat, if_neg hrestart, if_pos hstart]
      · rw [remotefdOf_concat, if_pos hstart]
        rfl
    · rename_i hstart
      have hstart : ¬ p.IsStart := hstart
      constructor
      · rw [statusOf_concat, if_neg hrestart, if_neg hstart]
        exact h.status
      · rw [remotefdOf_concat, if_neg hstart]
        exact h.target

/-- However the threads are scheduled, the packets that `main` has received decide. -/
theorem run_control (h : Runs.run step boot es = some t) : t.Obeys (receivedPkgs es) := by
  refine Runs.along_induction step (R := fun _ _ _ => True) (P := fun es t =>
    t.Obeys (receivedPkgs es)) ⟨rfl, rfl⟩ ?_ h
    (Runs.along_of_forall step (fun _ _ _ _ => trivial) boot)
  intro es s ev t _ hs hst _
  rw [receivedPkgs_concat]
  cases ev with
  | recv recvpkg =>
    simp only [step] at hst
    split at hst
    · rename_i hmain
      cases hst
      cases recvpkg with
      | none =>
        have htarget := hs.target
        rw [target, hmain] at htarget
        rw [ProcessEvent.recvpkg, Option.toList_none, List.append_nil]
        exact ⟨hs.status, htarget⟩
      | some p => exact hs.received hmain p
    · cases hst
  | assign =>
    simp only [step] at hst
    split at hst
    · rename_i r hmain
      cases hst
      have htarget := hs.target
      rw [target, hmain] at htarget
      rw [ProcessEvent.recvpkg, Option.toList_none, List.append_nil]
      exact ⟨hs.status, htarget⟩
    · cases hst
  | create ok =>
    simp only [step] at hst
    split at hst
    · rename_i hmain
      cases hst
      have htarget := hs.target
      rw [target, hmain] at htarget
      rw [ProcessEvent.recvpkg, Option.toList_none, List.append_nil]
      exact ⟨hs.status, htarget⟩
    · cases hst
  | thread i e =>
    obtain ⟨x, y, qs, -, -, rfl⟩ := step_thread.1 hst
    rw [ProcessEvent.recvpkg, Option.toList_none, List.append_nil]
    exact ⟨hs.status, hs.target⟩

/-- The way back to `recv_pkg` is one through `pthread_create`, or there is none to go. -/
theorem back_run (hmain : s.main = .receiving) (p : Pkg) (ok : Bool) :
    ∃ es, Runs.run step s es = some ((s.received (some p)).back ok) ∧ receivedPkgs es = [p] ∧
      ((s.received (some p)).back ok).main = .receiving := by
  have hrecv : s.step (.recv (some p)) = some (s.received (some p)) := by
    simp only [step, hmain]
  by_cases hstart : ∃ r, (s.received (some p)).main = .assigning r
  · obtain ⟨r, hr⟩ := hstart
    refine ⟨[.recv (some p), .assign, .create ok], ?_, rfl, ?_⟩
    · simp [Runs.run, step, hmain, hr, back]
    · simp [back, hr]
  · push Not at hstart
    have hback : (s.received (some p)).back ok = s.received (some p) := by
      unfold back
      split
      · rename_i r hr
        exact absurd hr (hstart r)
      · rfl
    have hsame : (s.received (some p)).main = .receiving := by
      simp only [received] at hstart ⊢
      split
      · exact hmain
      · rename_i hrestart
        rw [if_neg hrestart] at hstart
        split
        · rename_i hcmd
          rw [if_pos hcmd] at hstart
          exact absurd rfl (hstart p.reserve)
        · exact hmain
    refine ⟨[.recv (some p)], ?_, rfl, ?_⟩
    · simp [Runs.run, hrecv, hback]
    · rw [hback]
      exact hsame

end Process
/-! ## The bytes -/

variable {κ : Kernel} {fuel : ℕ} {ok : ℕ → Bool} {pkg p : Pkg} {ps : List Pkg} {k : Socket}
  {m : Main} {rest : List UInt8}

/-- `main` returns at the packet `p`, which comes after the packets `ps`. -/
def Refused (ps : List Pkg) (p : Pkg) : Prop :=
  p.len = 0 ∨ ps.length = 0 ∧ p.cmd ≠ PkgCmdType.registerClientRes.code

instance (ps : List Pkg) (p : Pkg) : Decidable (Refused ps p) :=
  inferInstanceAs (Decidable (_ ∨ _ ∧ _))

/-- After the packets `ps`, `main` has sent its request, and has taken the orders in all packets but
the first, which is the answer. -/
structure Main.Follows (k : Socket) (pkg : Pkg) (ps : List Pkg) (m : Main) : Prop where
  received : m.received = ps.length
  output : m.sock.output = k.output ++ (registerClientReq pkg).frame
  answer : ∀ p, ps.head? = some p → p.cmd = PkgCmdType.registerClientRes.code
  bodies : ∀ p ∈ ps, p.len ≠ 0
  main : m.process.main = .receiving
  run : ∃ es, Runs.run Process.step .boot es = some m.process ∧ Process.receivedPkgs es = ps.tail

theorem start_follows (hκ : κ.Progresses) (hfuel : sizeofPkg < fuel) (pkg : Pkg) (k : Socket) :
    ∃ m, start κ fuel pkg k = some (.inl m) ∧ m.Follows k pkg [] ∧ m.sock.input = k.input := by
  have hlen : (registerClientReq pkg).len ≤ bufSize := by
    rw [registerClientReq, len_fillReq]
    decide
  obtain ⟨l, hl, hsent⟩ := sendPkg_sent hκ.send hlen hfuel k
  refine ⟨⟨l, 0, .boot⟩, ?_, ?_, hsent.input⟩
  · simp only [start, hl]
    rfl
  · exact ⟨rfl, hsent.output, by simp, by simp, rfl, [], rfl, rfl⟩

/-- A whole packet has arrived: `main` takes its order, or returns. -/
theorem mainRound_follows (hκ : κ.Progresses) (hzero : ∀ i, κ.recv i 0 ≤ 0)
    (hfuel : sizeofPkg < fuel) (h : m.Follows k pkg ps) (hp : p.len ≤ bufSize)
    (hin : m.sock.input = p.frame ++ rest) :
    (∃ t, mainRound κ fuel ok m = some (.inl t) ∧ t.sock.input = rest ∧
        t.Follows k pkg (ps ++ [filled p.frame])) ∨
      ∃ r, mainRound κ fuel ok m = some (.inr r) ∧ Refused ps (filled p.frame) ∧ r.2 = -1 := by
  have hlen := len_filled_frame hp
  have hreceived := h.received
  by_cases hpos : p.len = 0
  · obtain ⟨l, q, hl⟩ := Reader.recvPkg_of_empty (x := .raspi) hκ.recv hzero hpos hin hfuel
    have hrecv : recvPkg κ fuel m.sock = some (l, q, -1) := hl
    right
    by_cases hnone : m.received = 0
    · refine ⟨({ m with sock := l }, -1), ?_, .inl (hlen.trans hpos), rfl⟩
      simp only [mainRound, hrecv, hnone]
      simp
    · refine ⟨({ m with sock := l, process := m.process.received none }, -1), ?_,
        .inl (hlen.trans hpos), rfl⟩
      simp only [mainRound, hrecv]
      simp [hnone]
  · obtain ⟨l, hl, hgot⟩ :=
      Reader.recvPkg_gotTo (x := .raspi) hκ.recv (Nat.pos_of_ne_zero hpos) hp hin hfuel
    have hrecv : recvPkg κ fuel m.sock = some (l, filled p.frame, 0) := hl
    have hrest : l.input = rest := (List.append_cancel_left (hin.symm.trans hgot.input)).symm
    have hout : l.output = k.output ++ (registerClientReq pkg).frame := hgot.output.trans h.output
    have hbodies : ∀ x ∈ ps ++ [filled p.frame], x.len ≠ 0 :=
      List.forall_mem_append.2 ⟨h.bodies, List.forall_mem_singleton.2 (by rwa [hlen])⟩
    cases ps with
    | nil =>
      -- the answer to the register request
      rw [List.length_nil] at hreceived
      by_cases hcmd : (filled p.frame).cmd = PkgCmdType.registerClientRes.code
      · left
        refine ⟨{ m with sock := l, received := 1 }, ?_, hrest, ?_⟩
        · simp only [mainRound, hrecv]
          simp [hreceived, hcmd]
        · exact ⟨rfl, hout, by simpa using hcmd, hbodies, h.main, h.run⟩
      · right
        refine ⟨({ m with sock := l }, -1), ?_, .inr ⟨rfl, hcmd⟩, rfl⟩
        simp only [mainRound, hrecv]
        simp [hreceived, hcmd]
    | cons q ps =>
      left
      have hsome : ¬ m.received = 0 := by
        rw [hreceived]
        exact Nat.succ_ne_zero _
      obtain ⟨es, hes, hpkgs⟩ := h.run
      obtain ⟨fs, hfs, hfpkgs, hmain⟩ := Process.back_run h.main (filled p.frame) (ok m.received)
      refine ⟨{ m with
        sock := l
        received := m.received + 1
        process := (m.process.received (some (filled p.frame))).back (ok m.received) }, ?_, hrest,
        ?_⟩
      · simp only [mainRound, hrecv]
        simp [hsome]
      · refine ⟨by simp [hreceived], hout, by simpa using h.answer, hbodies, hmain, es ++ fs, ?_,
          ?_⟩
        · exact (Runs.run_append_eq_some Process.step).2 ⟨_, hes, hfs⟩
        · rw [Process.receivedPkgs, List.filterMap_append]
          simp only [Process.receivedPkgs] at hpkgs hfpkgs
          rw [hpkgs, hfpkgs]
          rfl

end Raspi
namespace Server

open Pkg
open Raspi (start mainRound Process)

variable {κ : Kernel} {fuel : ℕ} {s : Server} {c : Slot} {k : Socket}

/-- While the output of the server is framed, `main` of a raspi receives the messages of its outbox
as far as their bytes have arrived. It waits for the next one, or returns because of it. -/
theorem main_follows (hκ : κ.Progresses) (hzero : ∀ i, κ.recv i 0 ≤ 0) (hfuel : sizeofPkg < fuel)
    (hr : Reachable s) (hG : s.Heeds FrameSafe) (hc : s.Live c)
    (hin : k.input <+: s.sent (s.channel c).fd) (ok : ℕ → Bool) (pkg : Pkg) :
    ∃ m₀ n m, start κ fuel pkg k = some (.inl m₀) ∧
      Loop.rounds (mainRound κ fuel ok) n m₀ = some m ∧
      n ≤ (s.calls.inbox (s.channel c).fd).length ∧
      m.Follows k pkg ((s.calls.inbox (s.channel c).fd).take n) ∧
      (mainRound κ fuel ok m = none ∧ (k.input = s.sent (s.channel c).fd →
          n = (s.calls.inbox (s.channel c).fd).length) ∨
        ∃ p r, (s.calls.inbox (s.channel c).fd)[n]? = some p ∧
          mainRound κ fuel ok m = some (.inr r) ∧
          Raspi.Refused ((s.calls.inbox (s.channel c).fd).take n) p ∧ r.2 = -1) := by
  obtain ⟨m₀, hm₀, hfollows, hin₀⟩ := Raspi.start_follows hκ hfuel pkg k
  have hfeeds := inbox_feeds (s := s) (c := c) (mainRound κ fuel ok) (fun m => m.sock)
    (fun ps m => m.Follows k pkg ps) (fun ps _ p r => Raspi.Refused ps p ∧ r.2 = -1) .raspi m₀ hκ
    hfuel hr hG hc ?_ ?_ hfollows (hin₀ ▸ hin)
  · obtain ⟨n, m, hrounds, hn, hm, hend⟩ := hfeeds
    rw [hin₀] at hend
    exact ⟨m₀, n, m, hm₀, hrounds, hn, hm, hend⟩
  · intro m hnone
    have hrecv : Raspi.recvPkg κ fuel m.sock = none := hnone
    simp only [mainRound, hrecv]
  · intro ps y _ m rest hm hlen hrest
    exact Raspi.mainRound_follows hκ hzero hfuel hm hlen hrest

/-- While the output of the server is framed, `main` of a raspi takes the orders in the messages of
its outbox as far as their bytes have arrived, and however its threads are scheduled, they decide
`camera_status` and `remotefd`. It waits for the next one, or returns because of it. -/
theorem orders_follow (hκ : κ.Progresses) (hzero : ∀ i, κ.recv i 0 ≤ 0) (hfuel : sizeofPkg < fuel)
    (hr : Reachable s) (hG : s.Heeds FrameSafe) (hc : s.Live c)
    (hin : k.input <+: s.sent (s.channel c).fd) (ok : ℕ → Bool) (pkg : Pkg) :
    ∃ m₀ n m, start κ fuel pkg k = some (.inl m₀) ∧
      Loop.rounds (mainRound κ fuel ok) n m₀ = some m ∧
      n ≤ (s.calls.inbox (s.channel c).fd).length ∧
      m.Follows k pkg ((s.calls.inbox (s.channel c).fd).take n) ∧
      (∀ es t, Runs.run Process.step .boot es = some t →
        Process.receivedPkgs es = ((s.calls.inbox (s.channel c).fd).take n).tail →
        t.Obeys ((s.calls.inbox (s.channel c).fd).take n).tail) ∧
      (mainRound κ fuel ok m = none ∧ (k.input = s.sent (s.channel c).fd →
          n = (s.calls.inbox (s.channel c).fd).length) ∨
        ∃ p r, (s.calls.inbox (s.channel c).fd)[n]? = some p ∧
          mainRound κ fuel ok m = some (.inr r) ∧
          Raspi.Refused ((s.calls.inbox (s.channel c).fd).take n) p ∧ r.2 = -1) := by
  obtain ⟨m₀, n, m, hm₀, hrounds, hn, hm, hend⟩ := main_follows hκ hzero hfuel hr hG hc hin ok pkg
  refine ⟨m₀, n, m, hm₀, hrounds, hn, hm, ?_, hend⟩
  intro es t hrun hpkgs
  rw [← hpkgs]
  exact Process.run_control hrun

/-- A viewer has come and gone. -/
def visited : List Event :=
  [.accept 5, .accept 6] ++ Event.register 0 .raspi Event.takesAll ++
    Event.register 1 .remote Event.takesAll ++ Event.choose 1 5 Event.takesAll ++
    [.recv 1 .closed Event.takesAll]

/-- The raspi has stopped, and `remotefd` is still that of the viewer. -/
theorem orders_follow_visited : ∃ m₀ m,
    start (.atMost 5) 1500 construct ⟨(after visited).sent 5, [], 0, []⟩ = some (.inl m₀) ∧
    Loop.rounds (mainRound (.atMost 5) 1500 fun _ => true) 3 m₀ = some m ∧
    mainRound (.atMost 5) 1500 (fun _ => true) m = none ∧ m.process.status = .stop ∧
    m.process.remotefd = 6 := by
  have hfd : ((after visited).channel 0).fd = 5 := by decide +kernel
  obtain ⟨m₀, n, m, hm₀, hrounds, hn, hfol, hobeys, hend⟩ :=
    orders_follow (s := after visited) (c := 0) (k := ⟨(after visited).sent 5, [], 0, []⟩)
      (Kernel.atMost_progresses (m := 5) (by decide)) (fun i => Reader.atMost_recv_le 5 i 0)
      (show sizeofPkg < 1500 by decide) (reachable_after _ (by decide +kernel)) (by decide +kernel)
      (by decide +kernel) (by rw [hfd]) (fun _ => true) construct
  rw [hfd] at hn hfol hobeys hend
  have hlen : ((after visited).calls.inbox 5).length = 3 := by decide +kernel
  have hrefused : ∀ n < 3, ∀ p ∈ ((after visited).calls.inbox 5)[n]?,
      ¬ Raspi.Refused (((after visited).calls.inbox 5).take n) p := by decide +kernel
  have hn3 : n = 3 := by
    rcases hend with ⟨-, hall⟩ | ⟨p, r, hp, -, href, -⟩
    · exact (hall rfl).trans hlen
    · obtain ⟨hlt, -⟩ := List.getElem?_eq_some_iff.1 hp
      exact absurd href (hrefused n (hlen ▸ hlt) p hp)
  subst hn3
  rw [List.take_of_length_le hlen.le] at hfol hobeys hend
  have hwait : mainRound (.atMost 5) 1500 (fun _ => true) m = none := by
    rcases hend with ⟨hnone, -⟩ | ⟨p, r, hp, -, -, -⟩
    · exact hnone
    · rw [List.getElem?_eq_none hlen.le] at hp
      cases hp
  obtain ⟨es, hes, hpkgs⟩ := hfol.run
  have ho := hobeys es _ hes hpkgs
  have htarget : m.process.target = m.process.remotefd := by
    rw [Process.target, hfol.main]
  refine ⟨m₀, m, hm₀, hrounds, hwait, ho.status.trans (by decide +kernel), ?_⟩
  rw [← htarget, ho.target]
  decide +kernel

end Server
end WawaServer
