import WawaServer.Clients.Pictures
import WawaServer.Notices

/-!
# For whom a camera sends

The process of `raspi.cpp`, and what it does not store: the connections whose choose requests caused
the STARTs that it received. `remotefd` is from the last START that `main` has obeyed, a picture
keeps the descriptor that it was begun with, and `camera_status` is tested only between two
pictures. So frames for a viewer may follow its RESTART, and a thread may begin a picture for it
even then.

A client is `Fair` as long as all that it may still send is for connections that are not gone
(`Fair.work`).
-/

namespace WawaServer

namespace Raspi

variable {fd : ℕ} {x y : ThreadAt} {e : ThreadEvent} {ps : List Pkg} {status : CameraStatus}

/-- The thread has not left its loop, and may begin a picture. -/
def ThreadAt.Running : ThreadAt → Prop
  | .closing => False
  | .ended => False
  | _ => True

instance (x : ThreadAt) : Decidable x.Running := by
  unfold ThreadAt.Running
  split <;> infer_instance

/-- A thread that may begin a picture could begin one before. -/
theorem next_running (h : x.next status fd e = some (y, ps)) (hy : y.Running) : x.Running := by
  cases x with
  | closing =>
    cases e with
    | close =>
      cases h
      exact hy
    | _ => cases h
  | ended =>
    rw [Process.next_ended] at h
    cases h
  | _ => trivial

/-- `main` is at `pthread_create`. -/
def MainAt.Creates : MainAt → Prop
  | .creating => True
  | _ => False

instance (m : MainAt) : Decidable m.Creates := by
  unfold MainAt.Creates
  split <;> infer_instance

/-- `main` has received a START and not stored its `remotefd` yet. -/
def MainAt.Assigns : MainAt → Prop
  | .assigning _ => True
  | _ => False

instance (m : MainAt) : Decidable m.Assigns := by
  unfold MainAt.Assigns
  split <;> infer_instance

/-- A picture may yet be begun with the `remotefd` that is stored. -/
def Process.Busy (s : Process) : Prop := s.main.Creates ∨ ∃ x ∈ s.threads, x.Running

instance (s : Process) : Decidable s.Busy := inferInstanceAs (Decidable (_ ∨ ∃ x ∈ _, _))

end Raspi

open Raspi

/-- A message to the server. `asker` is history: for a packet of a picture, the connection whose
choose request caused the START that its descriptor is from. -/
structure Msg where
  pkg : Pkg
  asker : Option Conn

/-- What clients send: a request has no address, and a packet of a picture is no START. -/
structure Msg.Valid (m : Msg) : Prop where
  len : m.pkg.len ≤ bufSize
  request : m.asker = none → m.pkg.fd = 0
  frame : m.asker ≠ none → ¬ m.pkg.IsStart

/-- The message is for nobody, or for the connection that asked for it, which is not gone. -/
def Msg.Fair (m : Msg) (l : History) : Prop := ∀ κ ∈ m.asker, m.pkg.fd = κ.1 ∧ l.Current κ

/-- The process of a client. What follows is history: the connections whose choose requests caused
the START that `main` received last, the one that `remotefd` is from, and for each thread the one
that its last picture was begun with. -/
structure Peer where
  process : Process
  started : Conn
  asker : Conn
  viewer : ℕ → Conn

namespace Peer

/-- The client of a connection that was just accepted. -/
def start : Peer where
  process := Process.boot
  started := (0, 0)
  asker := (0, 0)
  viewer := fun _ => (0, 0)

/-- `main` receives a message. -/
def obey (r : Peer) (n : Pkg × Conn) : Option Peer :=
  (r.process.step (.recv (some n.1))).map fun s =>
    { r with process := s, started := if n.1.IsStart then n.2 else r.started }

/-- What a step of the process does to the history. -/
def note (r : Peer) : ProcessEvent → Peer
  | .assign => { r with asker := r.started }
  | .thread i (.encodeDo _) => { r with viewer := Function.update r.viewer i r.asker }
  | _ => r

/-- A step of the process that receives no message. -/
def work (r : Peer) (e : ProcessEvent) : Option Peer :=
  (r.process.step e).map fun s => { r.note e with process := s }

/-- The messages that a step of a thread sends. A packet of headers has no descriptor. -/
def sends (r : Peer) : ProcessEvent → List Msg
  | .thread i e => (r.process.sendsOf i (.thread i e)).map fun p =>
      ⟨p, if p.fd = 0 then none else some (r.viewer i)⟩
  | _ => []

/-! ## Clients that send to nobody who is gone -/

/-- Whatever the process may send until it receives a START is for connections that are not gone. -/
structure Fair (r : Peer) (l : History) : Prop where
  assigning : ∀ x, r.process.main = .assigning x → x = r.started.1 ∧ l.Current r.started
  remotefd : r.process.Busy → r.process.remotefd = r.asker.1 ∧ l.Current r.asker
  target : ∀ i x R, r.process.threads[i]? = some x → x.target = some R →
    R = (r.viewer i).1 ∧ l.Current (r.viewer i)

/-- The process sends nothing that was asked for by a connection with the descriptor `fd`, until it
receives a START. -/
structure Quiet (r : Peer) (fd : ℕ) : Prop where
  assigning : r.process.main.Assigns → r.started.1 ≠ fd
  remotefd : r.process.Busy → r.asker.1 ≠ fd
  target : ∀ e ∈ r.process.threads.zipIdx, e.1.target ≠ none → (r.viewer e.2).1 ≠ fd

theorem quiet_iff {r : Peer} {fd : ℕ} : r.Quiet fd ↔
    (r.process.main.Assigns → r.started.1 ≠ fd) ∧ (r.process.Busy → r.asker.1 ≠ fd) ∧
      ∀ e ∈ r.process.threads.zipIdx, e.1.target ≠ none → (r.viewer e.2).1 ≠ fd :=
  ⟨fun h => ⟨h.assigning, h.remotefd, h.target⟩, fun h => ⟨h.1, h.2.1, h.2.2⟩⟩

instance (r : Peer) (fd : ℕ) : Decidable (r.Quiet fd) := decidable_of_iff' _ quiet_iff

variable {r r' : Peer} {l l' : History} {n : Pkg × Conn} {e : ProcessEvent} {fd : ℕ}

/-- A process that has just started sends nothing for anybody. -/
theorem fair_start (l : History) : start.Fair l where
  assigning := by simp [start, Process.boot]
  remotefd h := by
    rcases h with h | ⟨x, hx, -⟩
    · exact h.elim
    · cases hx
  target i x R hx := by cases hx

/-- The connections that are not gone are still there. -/
theorem Fair.congr (h : r.Fair l) (hcur : ∀ κ, l.Current κ → l'.Current κ) : r.Fair l' where
  assigning x hx := (h.assigning x hx).imp_right (hcur _)
  remotefd hb := (h.remotefd hb).imp_right (hcur _)
  target i x R hx hR := (h.target i x R hx hR).imp_right (hcur _)

/-- Only the last connection of the descriptor `fd` is gone, and the client is quiet about it. -/
theorem Fair.quiet (h : r.Fair l) (hq : r.Quiet fd)
    (hcur : ∀ κ : Conn, κ.1 ≠ fd → l.Current κ → l'.Current κ) : r.Fair l' where
  assigning x hx := by
    apply (h.assigning x hx).imp_right (hcur _ (hq.assigning _))
    rw [hx]
    trivial
  remotefd hb := (h.remotefd hb).imp_right (hcur _ (hq.remotefd hb))
  target i x R hx hR := by
    apply (h.target i x R hx hR).imp_right (hcur _ (hq.target (x, i) _ _))
    · exact List.mk_mem_zipIdx_iff_getElem?.2 hx
    · simp [hR]

/-- Receiving keeps the process well formed. -/
theorem obey_wellformed (h : r.process.Wellformed) (hr : r.obey n = some r') :
    r'.process.Wellformed := by
  obtain ⟨s, hs, rfl⟩ := Option.map_eq_some_iff.1 hr
  exact h.step hs

/-- So does every other step. -/
theorem work_wellformed (h : r.process.Wellformed) (hr : r.work e = some r') :
    r'.process.Wellformed := by
  obtain ⟨s, hs, rfl⟩ := Option.map_eq_some_iff.1 hr
  exact h.step hs

/-- A client receives a fair message. -/
theorem Fair.obey (h : r.Fair l) (hn : l.Fair n) (hr : r.obey n = some r') : r'.Fair l := by
  obtain ⟨s, hs, rfl⟩ := Option.map_eq_some_iff.1 hr
  simp only [Process.step] at hs
  split at hs
  · rename_i hmain
    cases hs
    simp only [Process.received]
    split
    · -- a RESTART
      refine ⟨fun x hx => ?_, fun hb => h.remotefd ?_, h.target⟩
      · cases hmain.symm.trans hx
      · exact hb
    · split
      · -- a START
        rename_i hst
        refine ⟨fun x hx => ?_, fun hb => h.remotefd ?_, h.target⟩
        · cases hx
          simp only [show n.1.IsStart from hst, if_true]
          exact hn hst
        · exact .inr (hb.resolve_left id)
      · refine ⟨fun x hx => ?_, h.remotefd, h.target⟩
        cases hmain.symm.trans hx
  · cases hs

/-- A step of a thread. -/
theorem Fair.thread {i : ℕ} {e : ThreadEvent} (h : r.Fair l) (hw : r.process.Wellformed)
    (hr : r.work (.thread i e) = some r') : r'.Fair l := by
  obtain ⟨s, hs, rfl⟩ := Option.map_eq_some_iff.1 hr
  obtain ⟨x, y, ps, hx, hy, rfl⟩ := Process.step_thread.1 hs
  obtain ⟨hlt, -⟩ := List.getElem?_eq_some_iff.1 hx
  have hasker : (r.note (.thread i e)).asker = r.asker := by cases e <;> rfl
  have hstarted : (r.note (.thread i e)).started = r.started := by cases e <;> rfl
  have hbusy : Process.Busy { r.process with
      threads := r.process.threads.set i y, pkgs := r.process.pkgs ++ ps } → r.process.Busy := by
    rintro (hm | ⟨z, hz, hrun⟩)
    · exact .inl hm
    · rcases List.mem_or_eq_of_mem_set hz with hz | rfl
      · exact .inr ⟨z, hz, hrun⟩
      · exact .inr ⟨x, List.mem_of_getElem? hx, next_running hy hrun⟩
  refine ⟨fun z hz => ?_, fun hb => ?_, fun j z R hz hR => ?_⟩
  · rw [hstarted]
    exact h.assigning z hz
  · rw [hasker]
    exact h.remotefd (hbusy hb)
  · by_cases hij : i = j
    · subst hij
      obtain rfl : y = z := Option.some.inj ((List.getElem?_set_self hlt).symm.trans hz)
      rcases next_target hw.remotefd hy hR with ⟨hR, hne⟩ | ⟨rfl, encBuf, rfl⟩
      · -- the rest of its picture
        have hviewer : (r.note (.thread i e)).viewer = r.viewer := by
          cases e with
          | encodeDo encBuf => exact absurd rfl (hne encBuf)
          | _ => rfl
        simp only [hviewer]
        exact h.target i x R hx hR
      · -- a new one
        have hrun : x.Running := by
          cases x with
          | closing | ended => cases hy
          | _ => trivial
        simp only [note, Function.update_self]
        exact h.remotefd (.inr ⟨x, List.mem_of_getElem? hx, hrun⟩)
    · have hviewer : (r.note (.thread i e)).viewer j = r.viewer j := by
        cases e with
        | encodeDo encBuf => exact Function.update_of_ne (Ne.symm hij) _ _
        | _ => rfl
      simp only [hviewer]
      exact h.target j z R ((List.getElem?_set_ne hij).symm.trans hz) hR

/-- A step that receives no message. -/
theorem Fair.work (h : r.Fair l) (hw : r.process.Wellformed) (he : ∀ ntf, e ≠ .recv (some ntf))
    (hr : r.work e = some r') : r'.Fair l := by
  cases e with
  | thread i e => exact h.thread hw hr
  | recv recvpkg =>
    cases recvpkg with
    | some ntf => exact absurd rfl (he ntf)
    | none =>
      -- `main` returns
      obtain ⟨s, hs, rfl⟩ := Option.map_eq_some_iff.1 hr
      simp only [Process.step] at hs
      split at hs
      · cases hs
        refine ⟨fun x hx => ?_, ?_, fun i x R hx => ?_⟩
        · cases hx
        · rintro (hm | ⟨x, hx, -⟩)
          · exact hm.elim
          · cases hx
        · cases hx
      · cases hs
  | assign =>
    obtain ⟨s, hs, rfl⟩ := Option.map_eq_some_iff.1 hr
    simp only [Process.step] at hs
    split at hs
    · rename_i x hmain
      cases hs
      refine ⟨fun y hy => ?_, fun _ => h.assigning x hmain, h.target⟩
      cases hy
    · cases hs
  | create ok =>
    obtain ⟨s, hs, rfl⟩ := Option.map_eq_some_iff.1 hr
    simp only [Process.step] at hs
    split at hs
    · rename_i hmain
      cases hs
      have hbusy : r.process.Busy := by
        left
        rw [hmain]
        trivial
      refine ⟨fun x hx => ?_, fun _ => h.remotefd hbusy, fun i x R hx hR => ?_⟩
      · cases hx
      · cases ok with
        | false => exact h.target i x R hx hR
        | true =>
          -- the new thread has no picture
          by_cases hi : i < r.process.threads.length
          · exact h.target i x R ((List.getElem?_append_left hi).symm.trans hx) hR
          · rw [if_pos rfl, List.getElem?_append_right (not_lt.1 hi)] at hx
            obtain rfl := List.mem_singleton.1 (List.mem_of_getElem? hx)
            cases hR
    · cases hs

/-- What a step sends, if anything: a packet of the stream, and whether it has a descriptor. -/
theorem sends_cases (hw : r.process.Wellformed) (hr : r.work e = some r') {m : Msg}
    (hm : m ∈ r.sends e) :
    ∃ i, m.asker = (if m.pkg.fd = 0 then none else some (r.viewer i)) ∧
      m.pkg.cmd = PkgCmdType.streamDataNtf.code ∧ m.pkg.len ≤ bufSize ∧
        (m.pkg.fd = 0 ∨ ∃ x, r.process.threads[i]? = some x ∧ x.target = some m.pkg.fd) := by
  cases e with
  | thread i e =>
    obtain ⟨s, hs, rfl⟩ := Option.map_eq_some_iff.1 hr
    obtain ⟨x, y, ps, hx, hy, rfl⟩ := Process.step_thread.1 hs
    have hok := hw.threads x (List.mem_of_getElem? hx)
    have hpass := next_passes (R := 1) one_ne_zero hw.remotefd hok hy
    obtain ⟨p, hp, rfl⟩ := List.mem_map.1 hm
    rw [Process.sendsOf_self hx hy] at hp
    refine ⟨i, rfl, hpass.cmd p hp, (hpass.fits p hp).2, ?_⟩
    exact (next_addressed hok hy hp).imp_right fun htarget => ⟨x, hx, htarget⟩
  | _ => cases hm

/-- What a thread sends fits, and is no START. -/
theorem sends_valid (hw : r.process.Wellformed) (hr : r.work e = some r') {m : Msg}
    (hm : m ∈ r.sends e) : m.Valid := by
  obtain ⟨i, hasker, hcmd, hlen, -⟩ := sends_cases hw hr hm
  refine ⟨hlen, fun hnone => ?_, fun _ => ?_⟩
  · by_contra hfd
    rw [hasker, if_neg hfd] at hnone
    cases hnone
  · rw [Pkg.IsStart, hcmd]
    decide

/-- What a fair client sends is fair. -/
theorem Fair.sends (h : r.Fair l) (hw : r.process.Wellformed) (hr : r.work e = some r') {m : Msg}
    (hm : m ∈ r.sends e) : m.Fair l := by
  obtain ⟨i, hasker, -, -, hfd⟩ := sends_cases hw hr hm
  intro κ hκ
  rw [hasker] at hκ
  split at hκ
  · cases hκ
  · rename_i hne
    obtain rfl := Option.some.inj hκ
    -- the picture was fair when it was begun
    obtain ⟨x, hx, htarget⟩ := hfd.resolve_left hne
    exact h.target i x m.pkg.fd hx htarget

end Peer
end WawaServer
