import WawaServer.Clients.Camera
import WawaServer.Clients.Routing
import WawaServer.Lib.Simulation

/-!
# The pictures of a camera thread

The threads of the raspi take turns in any order, and `main` changes `remotefd` in between. What a
thread sends for a viewer is the pictures that it has encoded while `remotefd` was the descriptor of
that viewer, less what is left of the one that it is sending (`thread_streams`).
-/

namespace WawaServer
namespace Raspi

open Pkg

variable {R fd n : ℕ} {x y : ThreadAt} {e : ThreadEvent} {ps qs : List Pkg} {pkg : Pkg}
  {buf pacBuf beyond : List UInt8} {status : CameraStatus}

/-- What the packets for `R` hold. -/
def dataFor (R : ℕ) (ps : List Pkg) : List UInt8 :=
  ((ps.filter fun p => p.fd = R).map streamData).flatten

/-- The pictures for `R` among those that were encoded, each with `remotefd` at that time. -/
def picturesFor (R : ℕ) (encs : List (ℕ × List UInt8)) : List UInt8 :=
  (encs.filter fun x => x.1 = R).flatMap Prod.snd

theorem dataFor_append (R : ℕ) (ps qs : List Pkg) :
    dataFor R (ps ++ qs) = dataFor R ps ++ dataFor R qs := by
  rw [dataFor, List.filter_append, List.map_append, List.flatten_append]
  rfl

theorem picturesFor_append (R : ℕ) (xs ys : List (ℕ × List UInt8)) :
    picturesFor R (xs ++ ys) = picturesFor R xs ++ picturesFor R ys := by
  rw [picturesFor, List.filter_append, List.flatMap_append]
  rfl

theorem dataFor_of_fd (h : pkg.fd = R) : dataFor R [pkg] = pkg.streamData := by
  simp [dataFor, h]

theorem dataFor_of_ne (h : pkg.fd ≠ R) : dataFor R [pkg] = [] := by
  simp [dataFor, h]

/-! ## One packet -/

theorem cmd_copyBody (pkg : Pkg) (buf : List UInt8) (off : ℤ) :
    (copyBody pkg buf off).cmd = pkg.cmd :=
  Buffer.word_write_of_outside _ _ _ (.inl (by decide))

theorem cmd_nextChunk (pkg : Pkg) (buf : List UInt8) (len byteLeft : ℤ) :
    (nextChunk pkg buf len byteLeft).1.cmd = pkg.cmd := by
  unfold nextChunk
  split <;> rw [cmd_copyBody, cmd_setLen]

theorem cmd_nextHeaderChunk (pkg : Pkg) (pacBuf beyond : List UInt8) (byteLeft : ℤ) :
    (nextHeaderChunk pkg pacBuf beyond byteLeft).1.cmd = pkg.cmd := by
  unfold nextHeaderChunk
  rw [cmd_copyBody, cmd_nextChunk]

/-- What is left of a picture. -/
def leftOf (buf : List UInt8) (byteLeft : ℤ) : List UInt8 := buf.drop (buf.length - byteLeft.toNat)

theorem leftOf_nil (buf : List UInt8) {byteLeft : ℤ} (h : byteLeft ≤ 0) :
    leftOf buf byteLeft = [] := by
  rw [leftOf, Int.toNat_of_nonpos h, Nat.sub_zero, List.drop_length]

theorem leftOf_length (buf : List UInt8) : leftOf buf buf.length = buf := by
  rw [leftOf, Int.toNat_natCast, Nat.sub_self, List.drop_zero]

/-- The packet that is sent next holds the beginning of what is left. -/
theorem nextChunk_streams (pkg : Pkg) {byteLeft : ℤ} (hpos : 0 < byteLeft)
    (hle : byteLeft ≤ buf.length) :
    (nextChunk pkg buf buf.length byteLeft).1.streamData ++
        leftOf buf (nextChunk pkg buf buf.length byteLeft).2 = leftOf buf byteLeft ∧
      0 ≤ (nextChunk pkg buf buf.length byteLeft).2 ∧
      (nextChunk pkg buf buf.length byteLeft).2 ≤ buf.length := by
  obtain ⟨m, rfl⟩ := Int.eq_ofNat_of_zero_le hpos.le
  have hoff : ((buf.length : ℤ) - m).toNat = buf.length - m := by omega
  -- a packet of `n` bytes
  have hchunk : ∀ n ≤ bufSize, n ≤ m →
      (copyBody (pkg.setLen n) buf ((buf.length : ℤ) - m)).streamData =
        (leftOf buf m).take n := by
    intro n hn hnm
    have hlen : (pkg.setLen n).len = n := len_setLen (by simp only [bufSize] at hn; omega)
    have htake : ((buf.drop (buf.length - m)).take n).length = n := by
      rw [List.length_take, List.length_drop]
      omega
    have hdata := streamData_chunk pkg (htake.le.trans hn)
    rw [htake] at hdata
    rw [copyBody, hlen, hoff, hdata, leftOf, Int.toNat_natCast]
  have hrest : ∀ n ≤ m, (leftOf buf m).take n ++ leftOf buf ((m - n : ℕ) : ℤ) = leftOf buf m := by
    intro n hnm
    have hdrop : leftOf buf ((m - n : ℕ) : ℤ) = (leftOf buf m).drop n := by
      rw [leftOf, leftOf, Int.toNat_natCast, Int.toNat_natCast, List.drop_drop]
      congr 1
      omega
    rw [hdrop, List.take_append_drop]
  unfold nextChunk
  split
  · rename_i hbig
    have hleft : (m : ℤ) - bufSize = ((m - bufSize : ℕ) : ℤ) := by omega
    refine ⟨?_, by omega, by omega⟩
    simp only
    rw [hchunk bufSize le_rfl (by omega), hleft]
    exact hrest bufSize (by omega)
  · rename_i hsmall
    refine ⟨?_, le_rfl, by omega⟩
    simp only [Int.toNat_natCast]
    rw [hchunk m (by omega) le_rfl]
    have hall := hrest m le_rfl
    rwa [Nat.sub_self] at hall

/-! ## One thread -/

/-- The packet of a loop that sends is one of the stream; that of the headers has no descriptor. -/
def ThreadAt.Ok : ThreadAt → Prop
  | .header pkg _ _ _ => IsStream 0 pkg
  | .picture pkg encBuf byteLeft => IsStream pkg.fd pkg ∧ byteLeft ≤ encBuf.length
  | _ => True

/-- What is left of the picture for `R` that is being sent. -/
def ThreadAt.left (R : ℕ) : ThreadAt → List UInt8
  | .picture pkg encBuf byteLeft => if pkg.fd = R then leftOf encBuf byteLeft else []
  | _ => []

/-- The picture that a step encodes, and `remotefd` at that time. -/
def ThreadEvent.encodes (remotefd : ℕ) : ThreadEvent → List (ℕ × List UInt8)
  | .encodeDo encBuf => [(remotefd, encBuf)]
  | _ => []

/-- A step of a thread from `x` to `y` sends `ps` and encodes `encs`. What it has sent and has still
to send for `R` is what it has encoded; when it ends, it may be that something is lost. -/
structure Passes (R : ℕ) (x y : ThreadAt) (ps : List Pkg) (encs : List (ℕ × List UInt8)) :
    Prop where
  ok : y.Ok
  cmd : ∀ p ∈ ps, p.cmd = PkgCmdType.streamDataNtf.code
  fits : ∀ p ∈ ps, 0 < p.len ∧ p.len ≤ bufSize
  data : ∃ lost, dataFor R ps ++ y.left R ++ lost = x.left R ++ picturesFor R encs ∧
    (y ≠ .ended → lost = [])

/-- A step that sends nothing. -/
theorem Passes.of_silent {encs : List (ℕ × List UInt8)} (hok : y.Ok)
    (hleft : y.left R = x.left R ++ picturesFor R encs) : Passes R x y [] encs where
  ok := hok
  cmd := by simp
  fits := by simp
  data := ⟨[], by rw [List.append_nil, ← hleft]; rfl, fun _ => rfl⟩

/-- `send_pkg` fails. -/
theorem Passes.of_failed (R : ℕ) (x : ThreadAt) : Passes R x .ended [] [] where
  ok := trivial
  cmd := by simp
  fits := by simp
  data := ⟨x.left R, (List.append_nil _).symm, fun h => absurd rfl h⟩

theorem passes_encodeDo (hR : fd < 2 ^ 32) (encBuf : List UInt8)
    (h : ThreadAt.looping.next status fd (.encodeDo encBuf) = some (y, ps)) :
    Passes R .looping y ps [(fd, encBuf)] := by
  simp only [ThreadAt.next] at h
  split at h
  · rename_i hnil
    obtain rfl : encBuf = [] := List.eq_nil_of_length_eq_zero (by omega)
    cases h
    apply Passes.of_silent
    · trivial
    · by_cases hfdR : fd = R
      · simp [ThreadAt.left, picturesFor, hfdR]
      · simp [ThreadAt.left, picturesFor, hfdR]
  · cases h
    have hfd : ((construct.setFd fd).setCmd .streamDataNtf).fd = fd := (isStream_pkg hR).fd
    apply Passes.of_silent
    · exact ⟨⟨(isStream_pkg hR).cmd, rfl⟩, le_rfl⟩
    · simp only [ThreadAt.left, hfd, leftOf_length, picturesFor, List.nil_append]
      by_cases hfdR : fd = R
      · simp [hfdR]
      · simp [hfdR]

theorem passes_header {ok : Bool} {byteLeft : ℤ} (hR : R ≠ 0) (hx : IsStream 0 pkg)
    (h : (ThreadAt.header pkg pacBuf beyond byteLeft).next status fd (.round ok) = some (y, ps)) :
    Passes R (.header pkg pacBuf beyond byteLeft) y ps [] := by
  simp only [ThreadAt.next] at h
  split at h
  · rename_i hpos
    cases ok with
    | false =>
      cases h
      exact .of_failed R _
    | true =>
      cases h
      have hfd := (fd_nextHeaderChunk pkg pacBuf beyond byteLeft).trans hx.fd
      have hcmd := (cmd_nextHeaderChunk pkg pacBuf beyond byteLeft).trans hx.cmd
      refine ⟨⟨hcmd, hfd⟩, ?_, ?_, [], ?_, fun _ => rfl⟩
      · exact List.forall_mem_singleton.2 hcmd
      · exact List.forall_mem_singleton.2 (len_nextHeaderChunk pkg pacBuf beyond hpos)
      · rw [dataFor_of_ne (by rw [hfd]; exact Ne.symm hR)]
        rfl
  · cases h
    exact .of_silent trivial rfl

theorem passes_picture {ok : Bool} {encBuf : List UInt8} {byteLeft : ℤ}
    (hx : (ThreadAt.picture pkg encBuf byteLeft).Ok)
    (h : (ThreadAt.picture pkg encBuf byteLeft).next status fd (.round ok) = some (y, ps)) :
    Passes R (.picture pkg encBuf byteLeft) y ps [] := by
  simp only [ThreadAt.next] at h
  split at h
  · rename_i hpos
    cases ok with
    | false =>
      cases h
      exact .of_failed R _
    | true =>
      cases h
      have hfd := fd_nextChunk pkg encBuf encBuf.length byteLeft
      have hcmd := (cmd_nextChunk pkg encBuf encBuf.length byteLeft).trans hx.1.cmd
      obtain ⟨hdata, -, hle⟩ := nextChunk_streams pkg hpos hx.2
      refine ⟨⟨⟨hcmd, rfl⟩, hle⟩, ?_, ?_, [], ?_, fun _ => rfl⟩
      · exact List.forall_mem_singleton.2 hcmd
      · exact List.forall_mem_singleton.2 (len_nextChunk pkg encBuf encBuf.length hpos)
      · simp only [ThreadAt.left, hfd, List.append_nil]
        by_cases hfdR : pkg.fd = R
        · rw [dataFor_of_fd (hfd.trans hfdR), if_pos hfdR, if_pos hfdR, hdata]
          simp [picturesFor]
        · rw [dataFor_of_ne (fun h => hfdR (hfd.symm.trans h)), if_neg hfdR, if_neg hfdR]
          rfl
  · rename_i hend
    cases h
    apply Passes.of_silent
    · trivial
    · simp only [ThreadAt.left, leftOf_nil encBuf (not_lt.1 hend), ite_self]
      rfl

/-- A step of a thread passes on what it encodes. -/
theorem next_passes (hR : R ≠ 0) (hfd : fd < 2 ^ 32) (hx : x.Ok)
    (h : x.next status fd e = some (y, ps)) : Passes R x y ps (e.encodes fd) := by
  cases x with
  | looping =>
    cases e with
    | encodeDo encBuf => exact passes_encodeDo hfd encBuf h
    | packGet pacBuf beyond =>
      cases h
      exact .of_silent isStream_headerPkg rfl
    | _ => cases h <;> exact .of_silent trivial rfl
  | header pkg pacBuf beyond byteLeft =>
    cases e with
    | round ok => exact passes_header hR hx h
    | _ => cases h
  | picture pkg encBuf byteLeft =>
    cases e with
    | round ok => exact passes_picture hx h
    | _ => cases h
  | testing =>
    cases e with
    | test =>
      cases h
      apply Passes.of_silent
      · split <;> trivial
      · split <;> rfl
    | _ => cases h
  | _ => cases e <;> cases h <;> exact .of_silent trivial rfl

/-! ## Descriptors -/

/-- The descriptor that what is left of a picture goes to. -/
def ThreadAt.target : ThreadAt → Option ℕ
  | .picture pkg _ byteLeft => if 0 < byteLeft then some pkg.fd else none
  | _ => none

/-- A picture goes to the `remotefd` that was read when it was encoded, to its end. -/
theorem next_target (hfd : fd < 2 ^ 32) (h : x.next status fd e = some (y, ps))
    (hy : y.target = some R) :
    x.target = some R ∧ (∀ encBuf, e ≠ .encodeDo encBuf) ∨ fd = R ∧ ∃ encBuf, e = .encodeDo encBuf := by
  cases x with
  | looping =>
    cases e with
    | encodeDo encBuf =>
      simp only [ThreadAt.next] at h
      split at h
      · cases h
        cases hy
      · cases h
        simp only [ThreadAt.target] at hy
        split at hy
        · rw [(isStream_pkg hfd).fd] at hy
          exact .inr ⟨Option.some.inj hy, encBuf, rfl⟩
        · cases hy
    | _ => cases h <;> cases hy
  | header pkg pacBuf beyond byteLeft =>
    cases e with
    | round ok =>
      simp only [ThreadAt.next] at h
      split at h
      · cases ok <;> (cases h; cases hy)
      · cases h
        cases hy
    | _ => cases h
  | picture pkg encBuf byteLeft =>
    cases e with
    | round ok =>
      simp only [ThreadAt.next] at h
      split at h
      · rename_i hpos
        cases ok with
        | false =>
          cases h
          cases hy
        | true =>
          cases h
          simp only [ThreadAt.target, fd_nextChunk] at hy
          split at hy
          · refine .inl ⟨?_, fun _ he => by cases he⟩
            rw [ThreadAt.target, if_pos hpos, hy]
          · cases hy
      · cases h
        cases hy
    | _ => cases h
  | testing =>
    cases e with
    | test =>
      cases h
      split at hy <;> cases hy
    | _ => cases h
  | _ => cases e <;> cases h <;> cases hy

/-- How many bytes the loop that a thread is in has still to send. -/
def ThreadAt.byteLeft : ThreadAt → ℤ
  | .header _ _ _ byteLeft => byteLeft
  | .picture _ _ byteLeft => byteLeft
  | _ => 0

/-- A thread sends in a round of such a loop. -/
theorem next_sends (h : x.next status fd e = some (y, ps)) (hps : ps ≠ []) :
    e = .round true ∧ 0 < x.byteLeft := by
  cases x with
  | looping =>
    cases e with
    | encodeDo encBuf =>
      simp only [ThreadAt.next] at h
      split at h <;> (cases h; exact absurd rfl hps)
    | _ => cases h <;> exact absurd rfl hps
  | header pkg pacBuf beyond byteLeft | picture pkg encBuf byteLeft =>
    cases e with
    | round ok =>
      simp only [ThreadAt.next] at h
      split at h
      · rename_i hpos
        cases ok with
        | false =>
          cases h
          exact absurd rfl hps
        | true => exact ⟨rfl, hpos⟩
      · cases h
        exact absurd rfl hps
    | _ => cases h
  | _ => cases e <;> cases h <;> exact absurd rfl hps

/-- A packet of a picture goes to its target, and one of headers has no descriptor. -/
theorem next_addressed (hx : x.Ok) (h : x.next status fd e = some (y, ps)) {p : Pkg} (hp : p ∈ ps) :
    p.fd = 0 ∨ x.target = some p.fd := by
  obtain ⟨rfl, hpos⟩ := next_sends h (List.ne_nil_of_mem hp)
  cases x with
  | header pkg pacBuf beyond byteLeft =>
    simp only [ThreadAt.next, if_pos (show 0 < byteLeft from hpos)] at h
    cases h
    obtain rfl := List.mem_singleton.1 hp
    exact .inl ((fd_nextHeaderChunk pkg pacBuf beyond byteLeft).trans hx.fd)
  | picture pkg encBuf byteLeft =>
    simp only [ThreadAt.next, if_pos (show 0 < byteLeft from hpos)] at h
    cases h
    obtain rfl := List.mem_singleton.1 hp
    right
    rw [fd_nextChunk]
    exact if_pos hpos
  | _ => exact absurd hpos (lt_irrefl 0)

/-! ## The process -/

namespace Process

variable {s t : Process} {i j : ℕ} {ev : ProcessEvent} {es : List ProcessEvent}

/-- The packets that a step of the thread `i` sends. -/
def sendsOf (i : ℕ) (s : Process) : ProcessEvent → List Pkg
  | .thread j e =>
    if j = i then
      ((s.threads[j]?).bind fun x => x.next s.status s.remotefd e).elim [] Prod.snd
    else []
  | _ => []

/-- The picture that a step of the thread `i` encodes, and `remotefd` at that time. -/
def encodesOf (i : ℕ) (s : Process) : ProcessEvent → List (ℕ × List UInt8)
  | .thread j e => if j = i then e.encodes s.remotefd else []
  | _ => []

/-- What the thread `i` has still to send of a picture for `R`. -/
def leftOver (R : ℕ) (s : Process) (i : ℕ) : List UInt8 := (s.threads[i]?).elim [] (ThreadAt.left R)

theorem sendsOf_of_ne (h : j ≠ i) (s : Process) (e : ThreadEvent) :
    s.sendsOf i (.thread j e) = [] := if_neg h

theorem encodesOf_of_ne (h : j ≠ i) (s : Process) (e : ThreadEvent) :
    s.encodesOf i (.thread j e) = [] := if_neg h

theorem sendsOf_self (hx : s.threads[i]? = some x)
    (hy : x.next s.status s.remotefd e = some (y, ps)) : s.sendsOf i (.thread i e) = ps := by
  rw [sendsOf, if_pos rfl, hx, Option.bind_some, hy]
  rfl

theorem encodesOf_self (s : Process) (i : ℕ) (e : ThreadEvent) :
    s.encodesOf i (.thread i e) = e.encodes s.remotefd := if_pos rfl

/-- `main` neither sends nor encodes. -/
theorem sendsOf_main (h : ∀ j e, ev ≠ .thread j e) : s.sendsOf i ev = [] := by
  cases ev with
  | thread j e => exact absurd rfl (h j e)
  | _ => rfl

theorem encodesOf_main (h : ∀ j e, ev ≠ .thread j e) : s.encodesOf i ev = [] := by
  cases ev with
  | thread j e => exact absurd rfl (h j e)
  | _ => rfl

/-- What is sent for `R` and what is encoded for it, by the thread `i`, in a run so far. -/
def sentFor (R i : ℕ) (es : List ProcessEvent) : List UInt8 :=
  dataFor R (Runs.trace step (sendsOf i) boot es)

def encodedFor (R i : ℕ) (es : List ProcessEvent) : List UInt8 :=
  picturesFor R (Runs.trace step (encodesOf i) boot es)

theorem sentFor_concat (h : Runs.run step boot es = some s) (ht : s.step ev = some t) :
    sentFor R i (es ++ [ev]) = sentFor R i es ++ dataFor R (s.sendsOf i ev) := by
  rw [sentFor, Runs.trace_append h, dataFor_append, Runs.trace_cons ht]
  simp [Runs.trace, sentFor]

theorem encodedFor_concat (h : Runs.run step boot es = some s) (ht : s.step ev = some t) :
    encodedFor R i (es ++ [ev]) = encodedFor R i es ++ picturesFor R (s.encodesOf i ev) := by
  rw [encodedFor, Runs.trace_append h, picturesFor_append, Runs.trace_cons ht]
  simp [Runs.trace, encodedFor]

/-- `main` steps only before it returns. -/
theorem main_ne_returned (h : s.step ev = some t) (hev : ∀ j e, ev ≠ .thread j e) :
    s.main ≠ .returned := by
  intro hmain
  cases ev with
  | thread j e => exact hev j e rfl
  | _ => simp [step, hmain] at h

/-- A step of `main` keeps the threads, ends them with itself, or creates one. -/
theorem step_main (h : s.step ev = some t) (hev : ∀ j e, ev ≠ .thread j e) :
    t.threads = s.threads ∨ t.threads = [] ∧ t.main = .returned ∨
      t.threads = s.threads ++ [.created] := by
  cases ev with
  | recv recvpkg =>
    simp only [step] at h
    split at h
    · cases h
      cases recvpkg with
      | none => exact .inr (.inl ⟨rfl, rfl⟩)
      | some recvpkg =>
        left
        simp only [received]
        split
        · rfl
        · split
          · rfl
          · rfl
    · cases h
  | assign =>
    simp only [step] at h
    split at h
    · cases h
      exact .inl rfl
    · cases h
  | create ok =>
    simp only [step] at h
    split at h
    · cases h
      cases ok with
      | false => exact .inl rfl
      | true => exact .inr (.inr rfl)
    · cases h
  | thread j e => exact absurd rfl (hev j e)

/-- Descriptors are words, and the threads are `Ok`. -/
structure Wellformed (s : Process) : Prop where
  remotefd : s.remotefd < 2 ^ 32
  reserve : ∀ r, s.main = .assigning r → r < 2 ^ 32
  threads : ∀ x ∈ s.threads, x.Ok

theorem wellformed_boot : boot.Wellformed where
  remotefd := by decide
  reserve := by simp [boot]
  threads := by simp [boot]

theorem Wellformed.received (h : s.Wellformed) (recvpkg : Option Pkg) :
    (s.received recvpkg).Wellformed := by
  cases recvpkg with
  | none => exact ⟨h.remotefd, by simp [Process.received], by simp [Process.received]⟩
  | some recvpkg =>
    simp only [Process.received]
    split
    · exact ⟨h.remotefd, h.reserve, h.threads⟩
    · split
      · refine ⟨h.remotefd, ?_, h.threads⟩
        intro r hr
        cases hr
        exact Buffer.word_lt _ _
      · exact h

theorem Wellformed.step (h : s.Wellformed) (hst : s.step ev = some t) : t.Wellformed := by
  cases ev with
  | recv recvpkg =>
    simp only [Process.step] at hst
    split at hst
    · cases hst
      exact h.received recvpkg
    · cases hst
  | assign =>
    simp only [Process.step] at hst
    split at hst
    · rename_i r hmain
      cases hst
      exact ⟨h.reserve r hmain, by simp, h.threads⟩
    · cases hst
  | create ok =>
    simp only [Process.step] at hst
    split at hst
    · cases hst
      refine ⟨h.remotefd, by simp, ?_⟩
      cases ok with
      | false => exact h.threads
      | true => exact List.forall_mem_append.2 ⟨h.threads, List.forall_mem_singleton.2 trivial⟩
    · cases hst
  | thread i e =>
    obtain ⟨x, y, ps, hx, hy, rfl⟩ := step_thread.1 hst
    refine ⟨h.remotefd, h.reserve, ?_⟩
    intro z hz
    rcases List.mem_or_eq_of_mem_set hz with hz | rfl
    · exact h.threads z hz
    · have hok := h.threads x (List.mem_of_getElem? hx)
      exact (next_passes (R := 1) one_ne_zero h.remotefd hok hy).ok

/-- After the events `es` each thread has sent what it has encoded for `R`, but for what is left of
a picture, and for what is `lost` with a thread that has ended. -/
structure Carries (R : ℕ) (es : List ProcessEvent) (t : Process) : Prop where
  data : ∀ i, ∃ lost, sentFor R i es ++ t.leftOver R i ++ lost = encodedFor R i es ∧
    (t.Unended i → lost = [])
  fresh : t.main ≠ .returned → ∀ i, t.threads.length ≤ i → encodedFor R i es = []

theorem leftOver_eq (hx : s.threads[i]? = some x) : s.leftOver R i = x.left R := by
  rw [leftOver, hx]
  rfl

theorem leftOver_congr (h : t.threads[i]? = s.threads[i]?) : t.leftOver R i = s.leftOver R i := by
  rw [leftOver, leftOver, h]

theorem unended_congr (h : t.threads[i]? = s.threads[i]?) : t.Unended i ↔ s.Unended i := by
  rw [Unended, Unended, h]

theorem carries_boot : Carries R [] boot where
  data i := ⟨[], rfl, fun _ => rfl⟩
  fresh := by
    intro _ i _
    rfl

theorem Carries.thread (hR : R ≠ 0) (h : Carries R es s) (hs : s.Wellformed)
    (hrun : Runs.run step boot es = some s) (hst : s.step (.thread i e) = some t) :
    Carries R (es ++ [.thread i e]) t := by
  obtain ⟨x, y, ps, hx, hy, rfl⟩ := step_thread.1 hst
  obtain ⟨hlt, -⟩ := List.getElem?_eq_some_iff.1 hx
  constructor
  · intro j
    rw [sentFor_concat hrun hst, encodedFor_concat hrun hst]
    by_cases hij : i = j
    · subst hij
      have hset : (s.threads.set i y)[i]? = some y := List.getElem?_set_self hlt
      obtain ⟨lost, hdata, hlost⟩ := h.data i
      have hne : x ≠ .ended := by
        rintro rfl
        rw [next_ended] at hy
        cases hy
      rw [hlost ⟨x, hx, hne⟩, List.append_nil, leftOver_eq hx] at hdata
      obtain ⟨lost', hpass, hlost'⟩ :=
        (next_passes hR hs.remotefd (hs.threads x (List.mem_of_getElem? hx)) hy).data
      refine ⟨lost', ?_, ?_⟩
      · rw [leftOver_eq hset, sendsOf_self hx hy, encodesOf_self, ← hdata,
          List.append_assoc (sentFor R i es) (x.left R), ← hpass]
        simp only [List.append_assoc]
      · rintro ⟨z, hz, hzne⟩
        obtain rfl : y = z := Option.some.inj (hset.symm.trans hz)
        exact hlost' hzne
    · have hother : (s.threads.set i y)[j]? = s.threads[j]? := List.getElem?_set_ne hij
      rw [sendsOf_of_ne hij, encodesOf_of_ne hij, leftOver_congr hother, unended_congr hother]
      simpa [dataFor, picturesFor] using h.data j
  · intro hmain j hj
    rw [List.length_set] at hj
    rw [encodedFor_concat hrun hst, encodesOf_of_ne (by omega), h.fresh hmain j hj]
    rfl

theorem Carries.main (h : Carries R es s) (hrun : Runs.run step boot es = some s)
    (hst : s.step ev = some t) (hev : ∀ j e, ev ≠ .thread j e) : Carries R (es ++ [ev]) t := by
  have hmain := main_ne_returned hst hev
  have hsent : ∀ i, sentFor R i (es ++ [ev]) = sentFor R i es := by
    intro i
    rw [sentFor_concat hrun hst, sendsOf_main hev]
    exact List.append_nil _
  have henc : ∀ i, encodedFor R i (es ++ [ev]) = encodedFor R i es := by
    intro i
    rw [encodedFor_concat hrun hst, encodesOf_main hev]
    exact List.append_nil _
  rcases step_main hst hev with hthreads | ⟨hthreads, hret⟩ | hthreads
  · constructor
    · intro i
      have hsame : t.threads[i]? = s.threads[i]? := by rw [hthreads]
      rw [hsent, henc, leftOver_congr hsame, unended_congr hsame]
      exact h.data i
    · intro _ i hi
      rw [hthreads] at hi
      rw [henc]
      exact h.fresh hmain i hi
  · constructor
    · -- what was left is lost
      intro i
      obtain ⟨lost, hdata, -⟩ := h.data i
      refine ⟨s.leftOver R i ++ lost, ?_, ?_⟩
      · rw [hsent, henc, leftOver, hthreads, ← hdata]
        simp
      · rintro ⟨x, hx, -⟩
        rw [hthreads] at hx
        cases hx
    · exact fun hne => absurd hret hne
  · constructor
    · intro i
      rw [hsent, henc]
      by_cases hi : s.threads.length ≤ i
      · -- a thread that is new has encoded nothing
        have hnil := h.fresh hmain i hi
        obtain ⟨lost, hdata, -⟩ := h.data i
        rw [hnil, List.append_eq_nil_iff, List.append_eq_nil_iff] at hdata
        have hleft : t.leftOver R i = [] := by
          rw [leftOver, hthreads]
          cases hget : (s.threads ++ [ThreadAt.created])[i]? with
          | none => rfl
          | some x =>
            rw [List.getElem?_append_right hi] at hget
            obtain rfl := List.mem_singleton.1 (List.mem_of_getElem? hget)
            rfl
        refine ⟨[], ?_, fun _ => rfl⟩
        rw [hleft, hdata.1.1, hnil]
        rfl
      · have hsame : t.threads[i]? = s.threads[i]? := by
          rw [hthreads, List.getElem?_append_left (not_le.1 hi)]
        rw [leftOver_congr hsame, unended_congr hsame]
        exact h.data i
    · intro _ i hi
      rw [hthreads, List.length_append] at hi
      rw [henc]
      exact h.fresh hmain i (by omega)

theorem wellformed_of_run (h : Runs.run step boot es = some t) : t.Wellformed :=
  Runs.run_invariant step (fun _ _ _ hs hst => hs.step hst) h wellformed_boot

theorem carries_of_run (hR : R ≠ 0) (h : Runs.run step boot es = some t) : Carries R es t := by
  apply Runs.along_induction step (R := fun _ _ _ => True) (P := Carries R) carries_boot
  · intro es s ev t hrun hs hst _
    by_cases hev : ∃ j e, ev = .thread j e
    · obtain ⟨j, e, rfl⟩ := hev
      exact hs.thread hR (wellformed_of_run hrun) hrun hst
    · push Not at hev
      exact hs.main hrun hst hev
  · exact h
  · exact Runs.along_of_forall step (fun _ _ _ _ => trivial) boot

/-- The descriptor that the thread `i` sends to is the `remotefd` that was read when it encoded its
last picture. -/
theorem target_begun (h : Runs.run step boot es = some s) {x : ThreadAt}
    (hx : s.threads[i]? = some x) (hR : x.target = some R) :
    ((Runs.trace step (encodesOf i) boot es).getLast?).map Prod.fst = some R := by
  refine Runs.along_induction step (R := fun _ _ _ => True) (P := fun es s => ∀ x R,
    s.threads[i]? = some x → x.target = some R →
      ((Runs.trace step (encodesOf i) boot es).getLast?).map Prod.fst = some R) ?_ ?_ h
    (Runs.along_of_forall step (fun _ _ _ _ => trivial) boot) x R hx hR
  · intro x R hx
    cases hx
  · intro es s ev t hrun ih hst _ y R hy hR
    have hsame : t.threads[i]? = s.threads[i]? → encodesOf i s ev = [] →
        ((Runs.trace step (encodesOf i) boot (es ++ [ev])).getLast?).map Prod.fst = some R := by
      intro hthread hnone
      rw [Runs.trace_append hrun, Runs.trace_cons hst, hnone]
      simpa [Runs.trace] using ih y R (hthread ▸ hy) hR
    by_cases hev : ∃ j e, ev = .thread j e
    · obtain ⟨j, e, rfl⟩ := hev
      by_cases hji : j = i
      · subst hji
        obtain ⟨x, z, ps, hx, hz, rfl⟩ := step_thread.1 hst
        obtain ⟨hlt, -⟩ := List.getElem?_eq_some_iff.1 hx
        obtain rfl : z = y := Option.some.inj ((List.getElem?_set_self hlt).symm.trans hy)
        rw [Runs.trace_append hrun, Runs.trace_cons hst, encodesOf_self]
        rcases next_target (wellformed_of_run hrun).remotefd hz hR with ⟨hR, hne⟩ | ⟨rfl, encBuf, rfl⟩
        · -- the same picture
          have hnone : e.encodes s.remotefd = [] := by
            cases e with
            | encodeDo encBuf => exact absurd rfl (hne encBuf)
            | _ => rfl
          rw [hnone]
          simpa [Runs.trace] using ih x R hx hR
        · simp [ThreadEvent.encodes, Runs.trace]
      · exact hsame (step_thread_others hst (Ne.symm hji)) (encodesOf_of_ne hji s e)
    · -- `main` moves no thread that was there
      push Not at hev
      rcases step_main hst hev with hthreads | ⟨hthreads, -⟩ | hthreads
      · exact hsame (by rw [hthreads]) (encodesOf_main hev)
      · rw [hthreads] at hy
        cases hy
      · by_cases hi : i < s.threads.length
        · exact hsame (by rw [hthreads, List.getElem?_append_left hi]) (encodesOf_main hev)
        · rw [hthreads, List.getElem?_append_right (not_lt.1 hi)] at hy
          obtain rfl := List.mem_singleton.1 (List.mem_of_getElem? hy)
          cases hR

/-- The condition of `stream_routed` on a step, in words: what a thread sends is of a picture that
it encoded when `remotefd` was `R`. -/
theorem picturesFor_iff (h : Runs.run step boot es = some s) : PicturesFor R s ev t ↔
    ∀ i, s.sendsOf i ev ≠ [] → R ≠ 0 ∧ (∃ x, s.threads[i]? = some x ∧ x.target ≠ none) ∧
      ((Runs.trace step (encodesOf i) boot es).getLast?).map Prod.fst = some R := by
  constructor
  · intro hfor i hsends
    cases ev with
    | thread j e =>
      by_cases hji : j = i
      · subst hji
        cases hx : s.threads[j]? with
        | none => simp [sendsOf, hx] at hsends
        | some x =>
          cases hy : x.next s.status s.remotefd e with
          | none => simp [sendsOf, hx, hy] at hsends
          | some r =>
            obtain ⟨y, ps⟩ := r
            rw [sendsOf_self hx hy] at hsends
            obtain ⟨rfl, hpos⟩ := next_sends hy hsends
            have hx' := hfor j x rfl hx
            cases x with
            | header pkg pacBuf beyond byteLeft => exact absurd hpos hx'
            | picture pkg encBuf byteLeft =>
              obtain ⟨hfd, hR⟩ := hx' hpos
              have htarget : (ThreadAt.picture pkg encBuf byteLeft).target = some R :=
                (if_pos hpos).trans (congrArg some hfd)
              exact ⟨hR, ⟨_, rfl, by simp [htarget]⟩, target_begun h hx htarget⟩
            | _ => exact absurd hpos (lt_irrefl 0)
      · exact absurd (sendsOf_of_ne hji s e) hsends
    | _ => exact absurd rfl hsends
  · rintro hfor i x rfl hx
    cases x with
    | header pkg pacBuf beyond byteLeft =>
      intro hpos
      have hsends : s.sendsOf i (.thread i (.round true)) ≠ [] := by
        simp [sendsOf, hx, ThreadAt.next, hpos]
      obtain ⟨-, ⟨y, hy, htarget⟩, -⟩ := hfor i hsends
      cases hx.symm.trans hy
      exact absurd rfl htarget
    | picture pkg encBuf byteLeft =>
      intro hpos
      have hsends : s.sendsOf i (.thread i (.round true)) ≠ [] := by
        simp [sendsOf, hx, ThreadAt.next, hpos]
      obtain ⟨hR, -, hlast⟩ := hfor i hsends
      have hbegun := target_begun h hx (if_pos hpos)
      exact ⟨Option.some.inj (hbegun.symm.trans hlast), hR⟩
    | _ => trivial

/-- What a step of the process sends. -/
def sends (s : Process) : ProcessEvent → List Pkg
  | .thread i e => s.sendsOf i (.thread i e)
  | _ => []

theorem step_sends (h : s.step ev = some t) : t.pkgs = s.pkgs ++ s.sends ev := by
  by_cases hev : ∃ j e, ev = .thread j e
  · obtain ⟨j, e, rfl⟩ := hev
    obtain ⟨x, y, ps, hx, hy, rfl⟩ := step_thread.1 h
    rw [sends, sendsOf_self hx hy]
  · push Not at hev
    have hnil : s.sends ev = [] := by
      cases ev with
      | thread j e => exact absurd rfl (hev j e)
      | _ => rfl
    rw [hnil, List.append_nil]
    rcases step_cases h with ⟨j, e, rfl⟩ | ⟨-, hpkgs, -⟩
    · exact absurd rfl (hev j e)
    · exact hpkgs

/-- A packet of the stream that has a body and fits. -/
structure Sized (p : Pkg) : Prop where
  cmd : p.cmd = PkgCmdType.streamDataNtf.code
  pos : 0 < p.len
  le : p.len ≤ bufSize

theorem sized_of_run (h : Runs.run step boot es = some t) : ∀ p ∈ t.pkgs, Sized p := by
  apply Runs.along_induction step (R := fun _ _ _ => True) (P := fun _ t => ∀ p ∈ t.pkgs, Sized p)
    (s := boot)
  · exact fun p hp => absurd hp List.not_mem_nil
  · intro es s ev t hrun hs hst _
    rcases step_cases hst with ⟨i, e, rfl⟩ | ⟨-, hpkgs, -⟩
    · obtain ⟨x, y, ps, hx, hy, rfl⟩ := step_thread.1 hst
      have hw := wellformed_of_run hrun
      have hpass := next_passes (R := 1) one_ne_zero hw.remotefd
        (hw.threads x (List.mem_of_getElem? hx)) hy
      refine List.forall_mem_append.2 ⟨hs, ?_⟩
      intro p hp
      exact ⟨hpass.cmd p hp, (hpass.fits p hp).1, (hpass.fits p hp).2⟩
    · rw [hpkgs]
      exact hs
  · exact h
  · exact Runs.along_of_forall step (fun _ _ _ _ => trivial) boot

theorem sentFor_prefix (hR : R ≠ 0) (h : Runs.run step boot es = some t) (i : ℕ) :
    sentFor R i es <+: encodedFor R i es := by
  obtain ⟨lost, hdata, -⟩ := (carries_of_run hR h).data i
  rw [← hdata, List.append_assoc]
  exact List.prefix_append _ _

/-- If no other thread encodes for `R`, then all packets for `R` are those of the thread `i`. -/
theorem dataFor_of_alone (hR : R ≠ 0) (i : ℕ) (h : Runs.run step boot es = some t)
    (halone : ∀ j ≠ i, encodedFor R j es = []) : dataFor R t.pkgs = sentFor R i es := by
  refine Runs.along_induction step (R := fun _ _ _ => True) (P := fun es t =>
    (∀ j ≠ i, encodedFor R j es = []) → dataFor R t.pkgs = sentFor R i es) ?_ ?_ h
    (Runs.along_of_forall step (fun _ _ _ _ => trivial) boot) halone
  · intro _
    rfl
  · intro es s ev t hrun ih hst _ halone
    have hprev : ∀ j ≠ i, encodedFor R j es = [] := by
      intro j hj
      have hnil := halone j hj
      rw [encodedFor_concat hrun hst, List.append_eq_nil_iff] at hnil
      exact hnil.1
    rw [step_sends hst, dataFor_append, ih hprev, sentFor_concat hrun hst]
    congr 1
    cases ev with
    | thread j e =>
      by_cases hj : j = i
      · subst hj
        rfl
      · -- the other thread has nothing to send for `R`
        have hrun' := (Runs.run_concat_eq_some step).2 ⟨s, hrun, hst⟩
        have hpre := sentFor_prefix hR hrun' j
        rw [halone j hj, List.prefix_nil, sentFor_concat hrun hst, List.append_eq_nil_iff] at hpre
        rw [sendsOf_of_ne hj]
        exact hpre.2
    | _ => rfl

/-- However the threads and `main` take turns, a thread sends the pictures that it encodes while
`remotefd` is `R` to `R`, in packets that fit: what is not sent is left of the last one, or lost
with the thread. Where no other thread encodes for `R`, nothing else is sent to `R`. -/
theorem thread_streams (hR : R ≠ 0) (h : Runs.run step boot es = some t) (i : ℕ) :
    (∀ p ∈ t.pkgs, Sized p) ∧ sentFor R i es <+: encodedFor R i es ∧
      (∀ x, t.threads[i]? = some x → x ≠ .ended →
        sentFor R i es ++ x.left R = encodedFor R i es) ∧
      ((∀ j ≠ i, encodedFor R j es = []) → dataFor R t.pkgs = sentFor R i es) := by
  refine ⟨sized_of_run h, sentFor_prefix hR h i, ?_, dataFor_of_alone hR i h⟩
  intro x hx hne
  obtain ⟨lost, hdata, hlost⟩ := (carries_of_run hR h).data i
  rwa [hlost ⟨x, hx, hne⟩, List.append_nil, leftOver_eq hx] at hdata

/-- Two threads, of which the first has a part of a picture for `6` left. -/
def overlapping : List ProcessEvent :=
  [.recv (some (Server.startNtf Pkg.construct 6)), .assign, .create true,
    .thread 0 .initCamera, .thread 0 .test, .thread 0 (.encodeDo [1]), .thread 0 (.round true),
    .thread 0 (.round true), .thread 0 .test, .thread 0 (.encodeDo [2, 3]),
    .recv (some (Server.startNtf Pkg.construct 7)), .assign, .create true,
    .thread 1 .initCamera, .thread 1 .test, .thread 1 (.encodeDo [4]), .thread 1 (.round true)]

theorem thread_streams_overlapping : ∃ t, Runs.run step boot overlapping = some t ∧
    (∀ p ∈ t.pkgs, Sized p) ∧ sentFor 6 0 overlapping ++ [2, 3] = [1, 2, 3] ∧
    dataFor 6 t.pkgs = sentFor 6 0 overlapping := by
  have hrun : ∃ t x, Runs.run step boot overlapping = some t ∧ t.threads[0]? = some x ∧
      x ≠ .ended ∧ x.left 6 = [2, 3] ∧ t.main = .receiving ∧ t.threads.length = 2 := by
    refine ⟨_, _, rfl, rfl, ?_, ?_, rfl, rfl⟩
    · intro h
      cases h
    · decide +kernel
  obtain ⟨t, x, ht, hx, hne, hleft, hmain, hthreads⟩ := hrun
  have hencoded : encodedFor 6 0 overlapping = [1, 2, 3] := by decide +kernel
  obtain ⟨hsized, -, hall, halone⟩ := thread_streams (R := 6) (by decide) ht 0
  refine ⟨t, ht, hsized, ?_, halone ?_⟩
  · have hsent := hall x hx hne
    rwa [hleft, hencoded] at hsent
  · intro j hj
    by_cases hlast : j = 1
    · subst hlast
      decide +kernel
    · apply (carries_of_run (by decide) ht).fresh
      · simp [hmain]
      · omega

end Process

end Raspi
end WawaServer
