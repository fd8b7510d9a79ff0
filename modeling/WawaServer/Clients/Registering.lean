import WawaServer.Clients.RaspiEvTheorems
import WawaServer.Inert

/-!
# What becomes of `raspi_ev.cpp` at the server

`raspi_ev.cpp` hands over one packet at most, and unless that is a START it never sends anything but
its register request: once in `main`, and then `send_cb` runs through all of `send_pkg`. The length
in the head is 0, so the type is not part of the frame. At the server the type is the 0 of an empty
body, which is `CTYPE_RASPI`, and the zeros of `send_pkg` are frames that come to nothing
(`raspi_registers`).
-/

namespace WawaServer
namespace RaspiEv
namespace State

variable {s t : State} {e : Event} {es : List Event} {q : SendResult} {bs : List UInt8}
  {r : RecvResult} {stdin : Option (List UInt8)}

/-- The packet that a callback hands to `handle_pkg`, if it does. -/
def hands (s : State) : Event → List Pkg
  | .recv (.data bs) _ _ => if s.Completes bs then [(s.store bs).recvPkg] else []
  | _ => []

/-! ## One packet at most -/

theorem sendCb_recvIo (h : s.recvIo = false) (q : SendResult) : (s.sendCb q).recvIo = false := by
  by_cases hq : q = .error
  · rw [hq]
    exact h
  · obtain ⟨m, heq, -⟩ := sendCb_sending (s := s) hq
    rw [heq]
    rfl

/-- Once a packet was handed over, none is received. -/
theorem hands_once (hrun : Runs.run step s es = some t) :
    Runs.trace step hands s es = [] ∨
      (Runs.trace step hands s es).length = 1 ∧ t.recvIo = false := by
  refine Runs.along_induction step (R := fun _ _ _ => True)
    (P := fun es t => Runs.trace step hands s es = [] ∨
      (Runs.trace step hands s es).length = 1 ∧ t.recvIo = false) (.inl rfl) ?_ hrun
    (Runs.along_of_forall step (fun _ _ _ _ => trivial) s)
  intro es u e v hu ih hst _
  obtain ⟨hen, hexec⟩ := step_eq_some.1 hst
  rw [Runs.trace_append hu, Runs.trace_cons hst, Runs.trace, List.append_nil]
  cases e with
  | send q =>
    have hsame : Runs.trace step hands s es ++ u.hands (.send q) = Runs.trace step hands s es :=
      List.append_nil _
    rw [hsame, ← hexec]
    apply ih.imp id
    intro hone
    exact ⟨hone.1, sendCb_recvIo hone.2 q⟩
  | recv r stdin q =>
    -- the watcher was started, so nothing was handed over before
    have hnil : Runs.trace step hands s es = [] := by
      apply ih.resolve_right
      intro hone
      exact Bool.false_ne_true (hone.2.symm.trans hen.1)
    rw [hnil, List.nil_append]
    cases r with
    | data bs =>
      by_cases hc : u.Completes bs
      · rw [hands, if_pos hc, ← hexec, exec, recvCb_of_completes hc]
        exact .inr ⟨rfl, rfl⟩
      · rw [hands, if_neg hc]
        exact .inl rfl
    | _ => exact .inl rfl

/-! ## The register request and zeros -/

/-- What is sent, and what counts it, is as before. -/
structure SameOutput (s t : State) : Prop where
  sendPkg : t.sendPkg = s.sendPkg
  sendLen : t.sendLen = s.sendLen
  output : t.output = s.output
  overread : t.overread = s.overread

/-- No other packet makes `handle_pkg` do anything. -/
theorem handlePkg_of_not_start (h : ¬ s.recvPkg.IsStart) : (s.handlePkg stdin q).1 = s := by
  unfold handlePkg
  split
  · rfl
  · split
    · rfl
    · exact congrArg Prod.fst (if_neg h)

theorem recvCb_sameOutput (h : ∀ p ∈ s.hands (.recv r stdin q), ¬ p.IsStart) :
    SameOutput s (s.recvCb r stdin q) := by
  cases r with
  | data bs =>
    by_cases hc : s.Completes bs
    · rw [recvCb_of_completes hc, handlePkg_of_not_start (h _ ?_)]
      · exact ⟨rfl, rfl, rfl, rfl⟩
      · rw [hands, if_pos hc]
        exact List.mem_singleton_self _
    · have hlen : (s.store bs).recvLen = s.recvLen + bs.length := rfl
      simp only [recvCb, hlen]
      split
      · exact ⟨rfl, rfl, rfl, rfl⟩
      · split
        · exact ⟨rfl, rfl, rfl, rfl⟩
        · split
          · exact ⟨rfl, rfl, rfl, rfl⟩
          · rename_i hhead hbody htotal
            exact absurd ⟨by omega, by omega, by rw [Pkg.total]; omega⟩ hc
  | _ => exact ⟨rfl, rfl, rfl, rfl⟩

/-- The first `send_len` bytes of the register request were sent after the first `k`. -/
structure Registers (k : ℕ) (t : State) : Prop where
  sendPkg : t.sendPkg = registerPkg
  output : t.output = Buffer.slice registerPkg 0 k ++ Buffer.slice registerPkg 0 t.sendLen
  inside : t.overread = false → t.sendLen ≤ sizeofPkg

theorem len_registerPkg : registerPkg.len = 0 := by decide +kernel

theorem boot_registers (k : ℕ) : (boot (.sent k)).Registers (Globals.accepted k sizeofHead) where
  sendPkg := rfl
  output := by
    have hcount : sizeofHead + registerPkg.len = sizeofHead := by rw [len_registerPkg, add_zero]
    show _ = _ ++ []
    rw [List.append_nil, ← hcount]
    rfl
  inside _ := Nat.zero_le _

theorem Registers.congr {k : ℕ} (h : s.Registers k) (hs : SameOutput s t) : t.Registers k where
  sendPkg := hs.sendPkg.trans h.sendPkg
  output := by rw [hs.output, hs.sendLen, h.output]
  inside ho := by
    rw [hs.sendLen]
    exact h.inside (hs.overread.symm.trans ho)

/-- `send_cb` goes on where it was. -/
theorem Registers.sending {k m : ℕ} (h : s.Registers k) (hm : m ≤ sizeofHead) :
    (s.sending m).Registers k where
  sendPkg := h.sendPkg
  output := by
    show s.output ++ Buffer.slice s.sendPkg s.sendLen m = _ ++ Buffer.slice _ 0 (s.sendLen + m)
    rw [h.output, h.sendPkg, Buffer.slice_add, zero_add, List.append_assoc]
  inside ho := by
    have hfit : ¬ sizeofPkg < s.sendLen + sizeofHead := by
      have hor : (s.overread || decide (sizeofPkg < s.sendLen + sizeofHead)) = false := ho
      simpa using (Bool.or_eq_false_iff.1 hor).2
    show s.sendLen + m ≤ sizeofPkg
    omega

theorem Registers.sendCb {k : ℕ} (h : s.Registers k) (q : SendResult) :
    (s.sendCb q).Registers k := by
  cases q with
  | sent n =>
    rw [sendCb_of_sent]
    exact h.sending (accepted_pos n (by decide)).2
  | again =>
    rw [sendCb_of_again]
    exact h.sending (Nat.zero_le _)
  | error =>
    exact ⟨h.sendPkg, h.output, fun ho => h.inside (Bool.or_eq_false_iff.1 ho).1⟩

/-- While no START is handed over, the register request is all that is sent. -/
theorem run_registers {k : ℕ} (h : s.Registers k) (hrun : Runs.run step s es = some t)
    (hno : ∀ p ∈ Runs.trace step hands s es, ¬ p.IsStart) : t.Registers k := by
  induction es generalizing s with
  | nil =>
    obtain rfl : s = t := Option.some.inj hrun
    exact h
  | cons e es ih =>
    obtain ⟨u, hu, ht⟩ := (Runs.run_cons_eq_some step).1 hrun
    rw [Runs.trace_cons hu] at hno
    refine ih ?_ ht fun p hp => hno p (List.mem_append_right _ hp)
    obtain ⟨-, rfl⟩ := step_eq_some.1 hu
    cases e with
    | send q => exact h.sendCb q
    | recv r stdin q =>
      apply h.congr
      apply recvCb_sameOutput
      intro p hp
      exact hno p (List.mem_append_left _ hp)

/-! ## As frames -/

theorem get_registerPkg {i : ℕ} (hi : sizeofHead ≤ i) : Buffer.get registerPkg i = 0 := by
  have hhead : Buffer.get (Pkg.construct.setCmd .registerClientReq) i = 0 := by
    have hout : 0 + (Buffer.wordBytes PkgCmdType.registerClientReq.code).length ≤ i :=
      hi.trans' (by decide)
    rw [Pkg.setCmd, Buffer.setWord, Buffer.get_write_of_outside _ _ _ (.inr hout)]
    exact Buffer.get_zero i
  by_cases hin : i < sizeofHead + 4
  · have hcases : i = 12 ∨ i = 13 ∨ i = 14 ∨ i = 15 := by
      simp only [sizeofHead] at hi hin
      omega
    rcases hcases with rfl | rfl | rfl | rfl <;> decide +kernel
  · rw [registerPkg, Buffer.setWord, Buffer.get_write_of_outside _ _ _
      (.inr (Nat.not_lt.1 hin))]
    exact hhead

/-- What `send_cb` sends of the request is the request and frames of zeros. -/
theorem slice_registerPkg {n : ℕ} (h : n ≤ sizeofPkg) : Buffer.slice registerPkg 0 n <+:
    registerPkg.frame ++ (List.replicate 117 Pkg.construct.frame).flatten := by
  have htotal : registerPkg.total = sizeofHead := by rw [Pkg.total, len_registerPkg, zero_add]
  have hzeros : Pkg.construct.frame = List.replicate sizeofHead 0 := by decide +kernel
  have hrest : Buffer.slice registerPkg (0 + sizeofHead) (117 * sizeofHead) =
      List.replicate (117 * sizeofHead) 0 := by
    apply List.ext_getElem (by simp)
    intro i hi _
    rw [Buffer.getElem_slice, get_registerPkg (by omega), List.getElem_replicate]
  rw [hzeros, List.flatten_replicate_replicate, ← hrest, Pkg.frame, htotal, ← Buffer.slice_add,
    ← Buffer.take_slice registerPkg 0 (sizeofHead + 117 * sizeofHead) n]
  · exact List.take_prefix _ _
  · simp only [sizeofPkg, sizeofHead] at *
    omega

/-- The type that is not sent reads as `CTYPE_RASPI`. -/
theorem registers_received (fd : ℕ) :
    (Pkg.received fd registerPkg).registers = some .raspi := by
  have hfd : registerPkg.fd = 0 := by decide +kernel
  have htype : (Pkg.received fd registerPkg).clientType = ClientType.raspi.code := by
    rw [Pkg.received, if_pos hfd, Pkg.clientType, Pkg.setFd,
      Buffer.word_setWord_of_outside _ _ _ (.inr (by decide))]
    decide +kernel
  exact if_pos htype

end State
end RaspiEv

namespace Server

open Pkg

open RaspiEv.State (registerPkg hands len_registerPkg slice_registerPkg hands_once boot_registers
  run_registers registers_received)

variable {s t : Server} {c : Slot} {r : RaspiEv.State} {es : List RaspiEv.Event} {fs : List Event}

/-- The bytes of `raspi_ev.cpp`, as the server reads them. -/
def requestAndZeros : List Pkg := registerPkg :: registerPkg :: List.replicate 117 construct

theorem isFrame_requestAndZeros : ∀ f ∈ requestAndZeros.map frame, IsFrame f := by
  intro f hf
  obtain ⟨p, hp, rfl⟩ := List.mem_map.1 hf
  refine ⟨p, ?_, rfl⟩
  have hcases : p = registerPkg ∨ p = construct := by
    simpa [requestAndZeros, or_assoc] using hp
  rcases hcases with rfl | rfl
  · rw [len_registerPkg]
    exact Nat.zero_le _
  · rw [len_construct]
    exact Nat.zero_le _

theorem prefix_requestAndZeros (h : r.Registers sizeofHead) (ho : r.overread = false) :
    r.output <+: (requestAndZeros.map frame).flatten := by
  have htotal : registerPkg.total = sizeofHead := by rw [Pkg.total, len_registerPkg, zero_add]
  have hframe : Buffer.slice registerPkg 0 sizeofHead = registerPkg.frame := by
    rw [Pkg.frame, htotal]
  rw [h.output, hframe, requestAndZeros, List.map_cons, List.flatten_cons,
    List.prefix_append_right_inj, List.map_cons, List.flatten_cons, List.map_replicate]
  exact slice_registerPkg (h.inside ho)

/-- The zeros come to nothing. -/
theorem filter_requestAndZeros :
    ((requestAndZeros.map frame).filter fun bytes => ¬ (filled bytes).Inert) =
      [registerPkg.frame, registerPkg.frame] := by
  have hreq : ¬ (filled registerPkg.frame).Inert := by decide +kernel
  have hzero : (filled construct.frame).Inert := by decide +kernel
  simp [requestAndZeros, hreq, hzero]

/-- Unless the packet it is handed is a START, all that comes of `raspi_ev.cpp` is two requests to
register as a raspi. -/
theorem raspi_registers
    (hraspi : Runs.run RaspiEv.State.step (RaspiEv.State.boot (.sent sizeofHead)) es = some r)
    (hno : ∀ p ∈ Runs.trace RaspiEv.State.step hands (RaspiEv.State.boot (.sent sizeofHead)) es,
      ¬ p.IsStart)
    (hover : r.overread = false) (hr : Reachable s) (hc : s.Live c)
    (h0 : (s.channel c).recvCtx.len = 0) (hrun : Runs.run step s fs = some t)
    (hown : Runs.Along step ReadsOwn s fs) (hal : Runs.Along step (fun _ _ u => u.Live c) s fs)
    (hin : Event.inputs c fs <+: r.output) :
    (Runs.trace RaspiEv.State.step hands (RaspiEv.State.boot (.sent sizeofHead)) es).length ≤ 1 ∧
    Runs.run messageStep s.settled ((Runs.trace step messages s fs).filter Message.heard) =
      some t.settled ∧
    framesOn c ((Runs.trace step messages s fs).filter Message.heard) <+:
      [registerPkg.frame, registerPkg.frame] ∧
    ∀ fd, (received fd registerPkg).registers = some .raspi := by
  refine ⟨?_, inert_unheard hr hrun hown, ?_, registers_received⟩
  · rcases hands_once hraspi with hnil | ⟨hone, -⟩
    · rw [hnil]
      exact Nat.zero_le 1
    · exact hone.le
  · have hreg : r.Registers sizeofHead := by
      have hboot := boot_registers sizeofHead
      exact run_registers hboot hraspi hno
    have hfollow := (simulates_messages.run hr hrun hown).1
    obtain ⟨-, -, pre, -, -, hbytes⟩ := run_frames hr hc (assembling_nil hr hc h0) hrun hal
    have hpre := hin.trans (prefix_requestAndZeros hreg hover)
    rw [hbytes] at hpre
    have hframes : ∀ f ∈ framesOn c (Runs.trace step messages s fs), IsFrame f := by
      intro f hf
      obtain ⟨q, hm⟩ := mem_framesOn.1 hf
      exact isFrame_of_run hfollow hm
    have htake := (isFrame_prefixFree.eq_take hframes isFrame_requestAndZeros hpre).1
    rw [framesOn_filter_heard, htake, ← filter_requestAndZeros]
    exact (List.take_prefix _ _).filter _

/-- The answer to the request is read in two pieces, and `send_cb` is called three times. -/
def registersThenSends : List RaspiEv.Event :=
  let answer := encode .registerClientRes 5 (List.replicate sizeofRegisterClientRes 0)
  [.recv (.data (answer.take 8)) none .again, .recv (.data (answer.drop 8)) none .again,
    .send (.sent 12), .send .again, .send (.sent 12)]

/-- The server reads it, while another connection is accepted. -/
def registersArrive : List Event :=
  [.recv 0 (.data (registerPkg.frame.take 7)) Event.takesAll, .accept 6,
    .recv 0 (.data (registerPkg.frame.drop 7)) Event.takesAll,
    .recv 0 (.data registerPkg.frame) Event.takesAll,
    .recv 0 (.data construct.frame) Event.takesAll]

theorem raspi_registers_answered : ∃ r, Runs.run RaspiEv.State.step
      (RaspiEv.State.boot (.sent sizeofHead)) registersThenSends = some r ∧
    (Runs.trace RaspiEv.State.step hands (RaspiEv.State.boot (.sent sizeofHead))
      registersThenSends).length ≤ 1 ∧
    Runs.run messageStep (after [.accept 5]).settled
      ((Runs.trace step messages (after [.accept 5]) registersArrive).filter Message.heard) =
        some (after ([.accept 5] ++ registersArrive)).settled ∧
    framesOn 0 ((Runs.trace step messages (after [.accept 5]) registersArrive).filter
      Message.heard) <+: [registerPkg.frame, registerPkg.frame] ∧
    ∀ fd, (received fd registerPkg).registers = some .raspi := by
  have hsome : (Runs.run RaspiEv.State.step (RaspiEv.State.boot (.sent sizeofHead))
      registersThenSends).isSome = true := by decide +kernel
  obtain ⟨r, hrun⟩ := Option.isSome_iff_exists.1 hsome
  have hover : (Runs.run RaspiEv.State.step (RaspiEv.State.boot (.sent sizeofHead))
      registersThenSends).map RaspiEv.State.overread = some false := by decide +kernel
  have hout : (Runs.run RaspiEv.State.step (RaspiEv.State.boot (.sent sizeofHead))
      registersThenSends).map RaspiEv.State.output =
        some (Event.inputs 0 registersArrive) := by decide +kernel
  rw [hrun] at hover hout
  have hpre : Event.inputs 0 registersArrive <+: r.output := by
    rw [← Option.some.inj hout]
  exact ⟨r, hrun, raspi_registers hrun (by decide +kernel) (Option.some.inj hover)
    (reachable_after _ (by decide +kernel)) (by decide +kernel) (by decide +kernel)
    (run_after _ _ (by decide +kernel)) (by decide +kernel) (by decide +kernel) hpre⟩

end Server
end WawaServer
