import WawaServer.Input
import WawaServer.Alike
import WawaServer.Lib.Simulation

/-!
# The server without receive buffers

A server to which frames come whole. It is told of the frame that has arrived on a connection, and
never of a part of one, so that it needs no receive buffer (`settled`); its handlers are those of
the source. Between two callbacks the server of the source is that server and the beginnings of the
frames to come: the one can follow the other in every run (`frames_whole`, `frames_cut`), as long as
no watcher of a channel that was released reads what is meant for another one (`ReadsOwn`).
-/

namespace WawaServer

open Pkg

/-- What the server is told: of a whole frame, of a head that announces a body that is too long
(and whether `recv` has stored bytes past the end of the buffer by then), or of what brings no
bytes. -/
inductive Message
  | frame (c : Slot) (bytes : List UInt8) (results : ℕ → List SendResult)
  | tooLong (c : Slot) (past : Bool)
  | event (e : Event)

/-- `recv` brings bytes. -/
def Event.BringsData : Event → Prop
  | .recv _ (.data _) _ => True
  | _ => False

instance : ∀ e, Decidable (Event.BringsData e)
  | .accept _ => inferInstanceAs (Decidable False)
  | .acceptError => inferInstanceAs (Decidable False)
  | .recv _ (.data _) _ => inferInstanceAs (Decidable True)
  | .recv _ .closed _ => inferInstanceAs (Decidable False)
  | .recv _ .again _ => inferInstanceAs (Decidable False)
  | .recv _ .error _ => inferInstanceAs (Decidable False)
  | .send _ _ => inferInstanceAs (Decidable False)

theorem Event.input_of_not_data {e : Event} (he : ¬ e.BringsData) (c : Slot) : e.input c = [] := by
  cases e with
  | recv d r q =>
    cases r with
    | data bs => exact absurd trivial he
    | _ => rfl
  | _ => rfl

/-- A part of a frame fits. -/
theorem Pkg.Unfinished.length_le_sizeofPkg {bs : List UInt8} (h : Unfinished bs) :
    bs.length ≤ sizeofPkg := by
  rcases h with h | ⟨hlen, h⟩
  · simp only [sizeofHead, sizeofPkg] at *
    omega
  · exact h.le.trans (total_le hlen)

namespace Server

variable {s t u : Server} {c d : Slot} {pre bs : List UInt8} {e : Event}

/-- The server between two callbacks, without receive buffers and without the history. -/
def settled (s : Server) : Server :=
  { s with channel := fun c => (s.channel c).drained, results := fun _ => [], calls := [] }

/-- A watcher of `c` waits for bytes, and there is a connection to read them from. -/
def Hears (s : Globals) (c : Slot) : Prop :=
  s.Live c ∧ (s.channel c).recvCtx.io.active = true ∧ s.opened (s.channel c).recvCtx.io.fd = true

instance (s : Globals) (c : Slot) : Decidable (Hears s c) := inferInstanceAs (Decidable (_ ∧ _ ∧ _))

/-- A frame fits, and is whole. -/
def MessageOk (s : Server) : Message → Prop
  | .frame c bytes _ => Hears s.toGlobals c ∧ (filled bytes).len ≤ bufSize ∧
      bytes.length = (filled bytes).total
  | .tooLong c _ => Hears s.toGlobals c
  | .event e => ¬ e.BringsData ∧ s.Enabled e

instance (s : Server) : ∀ m, Decidable (s.MessageOk m)
  | .frame _ _ _ => inferInstanceAs (Decidable (_ ∧ _ ∧ _))
  | .tooLong _ _ => inferInstanceAs (Decidable (Hears _ _))
  | .event _ => inferInstanceAs (Decidable (_ ∧ _))

/-- What the server does when it is told of `m`. -/
def hear (s : Server) : Message → Server
  | .frame c bytes results =>
    (({ s with results := results } : Server).setRecvPkg c (filled bytes)).route c
  | .tooLong c past => (if past then s.fail .recvOverflow else s).freeChannel c
  | .event e => s.exec e

def messageStep (s : Server) (m : Message) : Option Server :=
  if s.fault = none ∧ s.MessageOk m then some (s.hear m).settled else none

/-- What the server without receive buffers is told of an event: of bytes, when they complete a
frame or a head that announces too much. -/
def messages (s : Server) : Event → List Message
  | .recv c (.data bs) results =>
    let ctx := ((s.stored c bs results).channel c).recvCtx
    if ctx.len < sizeofHead then []
    else if ctx.pkg.len > bufSize then [.tooLong c (sizeofPkg < ctx.len)]
    else if ctx.len < ctx.pkg.total then []
    else [.frame c ctx.pkg.frame results]
  | e => [.event e]

/-- Bytes are read on the channels of connections. -/
def ReadsOwn (s : Server) (e : Event) (_ : Server) : Prop :=
  e.BringsData → ∀ c ∈ e.recvSlot, s.Live c

instance (s t : Server) (e : Event) : Decidable (s.ReadsOwn e t) :=
  inferInstanceAs (Decidable (_ → _))

/-! ## Settled servers -/

theorem messageStep_eq_some {m : Message} :
    s.messageStep m = some u ↔ s.fault = none ∧ s.MessageOk m ∧ (s.hear m).settled = u := by
  unfold messageStep
  split
  · rename_i h
    simp [h.1, h.2]
  · rename_i h
    simp only [reduceCtorEq, false_iff]
    exact fun ⟨hf, hok, _⟩ => h ⟨hf, hok⟩

theorem Alike.settled_eq (h : Alike s t) : s.settled = t.settled := by
  have hch : (fun c => (t.channel c).drained) = fun c => (s.channel c).drained := funext h.channel
  simp only [settled, hch, h.channelMap, h.bridgeMap, h.opened, h.sent, h.cut, h.fault]

/-- The answers of the kernel are given anew for every callback. -/
theorem alike_settled (s : Server) (q : ℕ → List SendResult) :
    Alike { s.settled with results := q } { s with results := q } := by
  constructor <;> simp [settled, Channel.drained]

theorem settled_enabled (he : ¬ e.BringsData) : s.settled.Enabled e ↔ s.Enabled e := by
  cases e with
  | recv c r q =>
    cases r with
    | data bs => exact absurd trivial he
    | _ => rfl
  | _ => rfl

/-- `accept_cb` sends nothing. -/
theorem acceptCb_results (s : Server) (fd : ℕ) (q : ℕ → List SendResult) :
    (({ s with results := q } : Server).acceptCb fd).settled = (s.acceptCb fd).settled := by
  rcases hf : s.freeSlot with _ | c
  · rw [acceptCb_of_none hf, acceptCb_of_none (s := { s with results := q }) hf]
    rfl
  · rw [acceptCb_of_some hf, acceptCb_of_some (s := { s with results := q }) hf]
    rfl

/-- An event that brings no bytes does the same to the two. -/
theorem settled_exec (he : ¬ e.BringsData) : (s.settled.exec e).settled = (s.exec e).settled := by
  have h0 : Alike s.settled { s with results := fun _ => [] } := alike_settled s _
  cases e with
  | accept fd => exact (h0.acceptCb fd).settled_eq.trans (acceptCb_results s fd _)
  | acceptError => exact h0.settled_eq
  | recv c r q =>
    apply ((alike_settled s q).serverRecvCb c _).settled_eq
    rintro bs rfl
    exact he trivial
  | send c q => exact ((alike_settled s q).serverSendCb c).settled_eq

/-! ## The bytes that arrive -/

/-- What the bytes of one call of `recv` are to the server without receive buffers. -/
theorem messages_data (s : Server) (c : Slot) (q : ℕ → List SendResult)
    (ha : (s.stored c bs q).Assembling c (pre ++ bs)) :
    s.messages (.recv c (.data bs) q) =
      if (pre ++ bs).length < sizeofHead then []
      else if (filled (pre ++ bs)).len > bufSize then
        [.tooLong c (sizeofPkg < (pre ++ bs).length)]
      else if (pre ++ bs).length < (filled (pre ++ bs)).total then []
      else [.frame c (filled (pre ++ bs)).frame q] := by
  simp only [messages, ha.len, ha.pkg]

theorem messages_event (he : ¬ e.BringsData) : s.messages e = [.event e] := by
  cases e with
  | recv c r q =>
    cases r with
    | data bs => exact absurd trivial he
    | _ => rfl
  | _ => rfl

theorem messages_unfinished (q : ℕ → List SendResult)
    (ha : (s.stored c bs q).Assembling c (pre ++ bs)) (hu : Unfinished (pre ++ bs)) :
    s.messages (.recv c (.data bs) q) = [] := by
  rw [messages_data s c q ha]
  rcases hu with hu | ⟨hlen, hu⟩
  · rw [if_pos hu]
  · rw [if_neg (not_lt.2 hlen), if_pos hu, ite_self]

theorem messages_tooLong (q : ℕ → List SendResult)
    (ha : (s.stored c bs q).Assembling c (pre ++ bs)) (hle : sizeofHead ≤ (pre ++ bs).length)
    (hbad : bufSize < (filled (pre ++ bs)).len) :
    s.messages (.recv c (.data bs) q) = [.tooLong c (sizeofPkg < (pre ++ bs).length)] := by
  rw [messages_data s c q ha, if_neg (not_lt.2 hle), if_pos hbad]

theorem messages_frame (q : ℕ → List SendResult)
    (ha : (s.stored c bs q).Assembling c (pre ++ bs)) (hlen : (filled (pre ++ bs)).len ≤ bufSize)
    (hf : (filled (pre ++ bs)).frame = pre ++ bs) :
    s.messages (.recv c (.data bs) q) = [.frame c (pre ++ bs) q] := by
  have htotal := congrArg List.length hf
  rw [length_frame] at htotal
  have hhead := (filled (pre ++ bs)).twelve_le_total
  rw [messages_data s c q ha, if_neg (by rw [← htotal]; exact not_lt.2 hhead),
    if_neg (not_lt.2 hlen), if_neg (by rw [← htotal]; exact lt_irrefl _), hf]

/-- Bytes that are stored leave all but the receive buffer alone. -/
theorem alike_stored (s : Server) (c : Slot) (bs : List UInt8) (q : ℕ → List SendResult) :
    Alike (if sizeofPkg < (s.channel c).recvCtx.len + bs.length then
        ({ s with results := q } : Server).fail .recvOverflow else { s with results := q })
      (s.stored c bs q) := by
  have h0 : Alike { s with results := q }
      (({ s with results := q } : Server).enter (.serverRecvCb c)) := { Alike.refl _ with }
  by_cases hpast : sizeofPkg < (s.channel c).recvCtx.len + bs.length
  · rw [if_pos hpast]
    unfold stored store
    simp only
    rw [if_pos (by exact hpast)]
    exact ((h0.recvPkg c _).recvLen c _).fail .recvOverflow
  · rw [if_neg hpast]
    unfold stored store
    simp only
    rw [if_neg (by exact hpast)]
    exact (h0.recvPkg c _).recvLen c _

/-- The server without receive buffers follows a call of `recv` that brings bytes. -/
theorem follows_data {q : ℕ → List SendResult} (hs : s.Sound) (hc : s.Live c)
    (ha : s.Assembling c pre) (hu : Unfinished pre) (hst : s.step (.recv c (.data bs) q) = some t) :
    Runs.run messageStep s.settled (s.messages (.recv c (.data bs) q)) = some t.settled := by
  obtain ⟨hf, hen, -⟩ := step_eq_some.1 hst
  obtain ⟨hS, hst', hcases⟩ := step_data hs hst ha hu
  have halike := alike_stored s c bs q
  have hhears : Hears s.settled.toGlobals c := ⟨hc, hen.1, hen.2.1⟩
  rw [ha.len, ← List.length_append] at halike
  rcases hcases with ⟨hun, rfl⟩ | ⟨hle, hbad, rfl⟩ | ⟨hlen, hframe, rfl⟩
  · -- a part of a frame fits
    have hfit : ¬ sizeofPkg < (pre ++ bs).length := not_lt.2 hun.length_le_sizeofPkg
    rw [messages_unfinished q hst' hun]
    rw [if_neg hfit] at halike
    exact congrArg some ((alike_settled s q).trans halike).settled_eq
  · rw [messages_tooLong q hst' hle hbad, Runs.run_cons_eq_some]
    have hact : ((s.stored c bs q).channel c).recvCtx.io.active = true := by
      rw [stored, store_recvCtx]
      exact hen.1
    refine ⟨_, messageStep_eq_some.2 ⟨hf, hhears, ?_⟩, rfl⟩
    rw [← hS.freeChannel_eq ((hS.slot c).recvUsed hact), ← (halike.freeChannel c).settled_eq]
    have hset := ((alike_settled s q).freeChannel c).settled_eq
    have hfail := (((alike_settled s q).fail .recvOverflow).freeChannel c).settled_eq
    by_cases hpast : sizeofPkg < (pre ++ bs).length
    · simp only [hear, hpast]
      exact hfail
    · simp only [hear, hpast]
      exact hset
  · have htotal : (pre ++ bs).length = (filled (pre ++ bs)).total := by
      rw [← length_frame, hframe]
    rw [messages_frame q hst' hlen hframe, Runs.run_cons_eq_some]
    refine ⟨_, messageStep_eq_some.2 ⟨hf, ⟨hhears, hlen, htotal⟩, ?_⟩, rfl⟩
    rw [htotal, if_neg (not_lt.2 (total_le hlen))] at halike
    have hset := (((alike_settled s q).trans halike).symm.recvPkg c (filled (pre ++ bs))).symm
    have hroute := hset.route (by rw [hst'.pkg]; simp)
    exact ((hroute.recvLen c 0).recvPkg c construct).settled_eq

/-- It follows a step. -/
theorem follows_step (hr : Reachable s) (hst : s.step e = some t) (hown : s.ReadsOwn e t) :
    Runs.run messageStep s.settled (s.messages e) = some t.settled := by
  by_cases he : e.BringsData
  · cases e with
    | recv c r q =>
      cases r with
      | data bs =>
        have hc : s.Live c := hown he c rfl
        obtain ⟨pre, hu, ha⟩ := assembling_of_reachable hr hc
        exact follows_data hr.sound hc ha hu hst
      | _ => exact absurd he not_false
    | _ => exact absurd he not_false
  · obtain ⟨hf, hen, rfl⟩ := step_eq_some.1 hst
    rw [messages_event he, Runs.run_cons_eq_some]
    exact ⟨_, messageStep_eq_some.2 ⟨hf, ⟨he, (settled_enabled he).2 hen⟩, settled_exec he⟩, rfl⟩

theorem simulates_messages :
    Runs.Simulates step messageStep messages settled ReadsOwn Reachable where
  keeps hr hst _ := hr.snoc _ hst
  follows hr hst hown := follows_step hr hst hown

/-! ## Frames that are cut -/

/-- No connection is in the middle of a frame. -/
structure Between (s : Server) : Prop where
  reachable : Reachable s
  empty : ∀ c, s.Live c → s.Assembling c []

/-- An event that brings `c` nothing leaves its receive buffer empty. -/
theorem step_empty (hs : s.Sound) (hst : s.step e = some t) (hc : t.Live c)
    (h : s.Live c → s.Assembling c []) (he : e.input c = []) : t.Assembling c [] := by
  by_cases hl : s.Live c
  · cases (step_receives hs hst hl hc (h hl) unfinished_nil).1 with
    | more hu ha hr => rwa [he, List.append_nil] at ha
    | done p hp hf ha hr => exact ha
  · rcases step_updates hs hst with ⟨fd, rfl, hen, rfl⟩ | hup
    · exact acceptCb_assembling (hs.key_none hen.2.2) hc hl
    · exact absurd ((hup (e.recvSlot.getD 0) fun d hd => by simp_all).live_of hs hc).1 hl

/-- The kernel can answer with any bytes that are asked for. -/
theorem Hears.step {q : ℕ → List SendResult} (h : Hears s.toGlobals c) (hf : s.fault = none)
    (ha : s.Assembling c pre) (hu : Unfinished pre) (bs : List UInt8) (hpos : 0 < bs.length)
    (hle : (pre ++ bs).length ≤ (filled pre).total) :
    ∃ t, s.step (.recv c (.data bs) q) = some t := by
  refine ⟨_, step_eq_some.2 ⟨hf, ⟨h.2.1, h.2.2, hpos, ?_⟩, rfl⟩⟩
  rw [recvCount_eq ha hu.length_le]
  rw [List.length_append] at hle
  omega

/-- The server goes on to wait for the rest of a frame. -/
theorem Hears.stored {q : ℕ → List SendResult} (h : Hears s.toGlobals c) (hf : s.fault = none)
    (ha : s.Assembling c pre) (hu : Unfinished (pre ++ bs)) :
    Hears (s.stored c bs q).toGlobals c ∧ (s.stored c bs q).fault = none := by
  have halike := alike_stored s c bs q
  have hfit : ¬ sizeofPkg < (s.channel c).recvCtx.len + bs.length := by
    rw [ha.len, ← List.length_append]
    exact not_lt.2 hu.length_le_sizeofPkg
  rw [if_neg hfit] at halike
  refine ⟨⟨?_, ?_, ?_⟩, halike.fault.trans hf⟩
  · rw [Globals.Live, halike.channelMap, halike.fd]
    exact h.1
  · rw [halike.io]
    exact h.2.1
  · rw [halike.opened, halike.io]
    exact h.2.2

/-- A call that brings a part of a frame. -/
theorem exists_part {q : ℕ → List SendResult} (hr : Reachable s) (h : Hears s.toGlobals c)
    (hf : s.fault = none) (ha : s.Assembling c pre) (hu : Unfinished pre) (bs : List UInt8)
    (hpos : 0 < bs.length) (hle : (pre ++ bs).length ≤ (filled pre).total)
    (hun : Unfinished (pre ++ bs)) :
    ∃ t, s.step (.recv c (.data bs) q) = some t ∧ Hears t.toGlobals c ∧ t.fault = none ∧
      t.Assembling c (pre ++ bs) ∧ s.messages (.recv c (.data bs) q) = [] := by
  obtain ⟨t, ht⟩ := h.step (q := q) hf ha hu bs hpos hle
  obtain ⟨-, hst, hcases⟩ := step_data hr.sound ht ha hu
  obtain ⟨hhears, hfault⟩ := h.stored (q := q) hf ha hun
  rcases hcases with ⟨-, rfl⟩ | ⟨hlen, hbad, -⟩ | ⟨-, hframe, -⟩
  · exact ⟨_, ht, hhears, hfault, hst, messages_unfinished q hst hun⟩
  · rcases hun with hun | ⟨hgood, -⟩
    · omega
    · omega
  · have htotal := congrArg List.length hframe
    rw [length_frame] at htotal
    have hhead := (filled (pre ++ bs)).twelve_le_total
    rcases hun with hun | ⟨-, hun⟩
    · simp only [sizeofHead] at hun
      omega
    · omega

/-- What is left to show of a run that stands for one message. -/
theorem Between.realize {m : Message} {es : List Event} (h : s.Between)
    (hm : s.settled.messageStep m = some u) (hrun : Runs.run step s es = some t)
    (hal : Runs.Along step ReadsOwn s es) (htr : Runs.trace step messages s es = [m])
    (hlast : ∀ c, t.Live c → t.Assembling c []) : ∃ es t, Runs.run step s es = some t ∧
      Runs.Along step ReadsOwn s es ∧ Runs.trace step messages s es = [m] ∧ t.settled = u ∧
      t.Between := by
  obtain ⟨hfollow, hr⟩ := simulates_messages.run h.reachable hrun hal
  rw [htr, Runs.run_cons_eq_some] at hfollow
  obtain ⟨v, hv, hend⟩ := hfollow
  obtain rfl : v = t.settled := Option.some.inj hend
  exact ⟨es, t, hrun, hal, htr, Option.some.inj (hv.symm.trans hm), hr, hlast⟩

/-- The last call of `recv` for a frame or a head. -/
theorem Between.realize_data {m : Message} {q : ℕ → List SendResult} {v : Server} (h : s.Between)
    (hm : s.settled.messageStep m = some u) {es : List Event} (hrun : Runs.run step s es = some v)
    (hal : Runs.Along step ReadsOwn s es) (htr : Runs.trace step messages s es = [])
    (hothers : ∀ d, d ≠ c → v.Live d → v.Assembling d []) (hc : v.Live c)
    (ha : v.Assembling c pre) (hu : Unfinished pre) (hst : v.step (.recv c (.data bs) q) = some t)
    (hno : ¬ Unfinished (pre ++ bs)) (hmsg : v.messages (.recv c (.data bs) q) = [m]) :
    ∃ es t, Runs.run step s es = some t ∧ Runs.Along step ReadsOwn s es ∧
      Runs.trace step messages s es = [m] ∧ t.settled = u ∧ t.Between := by
  have hr := (simulates_messages.run h.reachable hrun hal).2
  apply h.realize hm ((Runs.run_concat_eq_some step).2 ⟨v, hrun, hst⟩)
  · exact Runs.along_append hrun hal fun w hw => ⟨fun _ d hd => by cases hd; exact hc, trivial⟩
  · rw [Runs.trace_append hrun, htr, Runs.trace_cons hst, hmsg]
    rfl
  · intro d hd
    by_cases hdc : d = c
    · subst hdc
      have hrec := (step_receives hr.sound hst hc hd ha hu).1
      have hin : (Event.recv d (.data bs) q).input d = bs := if_pos rfl
      rw [hin] at hrec
      cases hrec with
      | more hun _ _ => exact absurd hun hno
      | done _ _ _ ha _ => exact ha
    · exact step_empty hr.sound hst hd (hothers d hdc) (if_neg (Ne.symm hdc))

theorem Between.frame {q : ℕ → List SendResult} (h : s.Between)
    (hm : s.settled.messageStep (.frame c bs q) = some u) :
    ∃ es t, Runs.run step s es = some t ∧ Runs.Along step ReadsOwn s es ∧
      Runs.trace step messages s es = [.frame c bs q] ∧ t.settled = u ∧ t.Between := by
  obtain ⟨hf, ⟨hhears, hlen, htotal⟩, -⟩ := messageStep_eq_some.1 hm
  have hhears : Hears s.toGlobals c := hhears
  have hf : s.fault = none := hf
  have hframe : (filled bs).frame = bs := frame_filled hlen htotal
  have hdone : ¬ Unfinished bs := fun hun => hun.not_prefix hlen (by rw [hframe])
  have ha := h.empty c hhears.1
  have hzero : (filled []).total = sizeofHead := by decide +kernel
  by_cases hbody : (filled bs).len = 0
  · -- a head is all there is
    obtain ⟨t, ht⟩ := hhears.step (q := q) hf ha unfinished_nil bs
      (by rw [htotal]; exact total_pos _)
      (by rw [List.nil_append, htotal, hzero, total, hbody, zero_add])
    obtain ⟨-, hst, -⟩ := step_data h.reachable.sound ht ha unfinished_nil
    have hnil : Runs.Along step ReadsOwn s [] := trivial
    exact h.realize_data hm rfl hnil rfl (fun d _ hd => h.empty d hd) hhears.1 ha unfinished_nil ht
      hdone (messages_frame q hst hlen hframe)
  · have hhead : (bs.take sizeofHead).length = sizeofHead := by
      rw [List.length_take, htotal]
      exact min_eq_left (filled bs).twelve_le_total
    have hlen' : (filled (bs.take sizeofHead)).len = (filled bs).len := by
      rw [← hframe, len_filled_head hlen, hframe]
    have hun : Unfinished (bs.take sizeofHead) := by
      right
      rw [hlen', total, hlen', hhead]
      omega
    obtain ⟨v, hv, hhears', hf', ha', hmsg⟩ := exists_part (q := q) h.reachable hhears hf ha
      unfinished_nil (bs.take sizeofHead) (by rw [hhead]; decide)
      (by rw [List.nil_append, hhead, hzero]) hun
    have hcut : bs.take sizeofHead ++ bs.drop sizeofHead = bs := List.take_append_drop _ _
    rw [List.nil_append] at ha'
    obtain ⟨t, ht⟩ := hhears'.step (q := q) hf' ha' hun (bs.drop sizeofHead)
      (by rw [List.length_drop, htotal, total]; omega)
      (by rw [hcut, htotal, total, total, hlen'])
    have hr : Reachable v := h.reachable.snoc _ hv
    obtain ⟨-, hst, -⟩ := step_data hr.sound ht ha' hun
    have hlast := messages_frame q hst
    rw [hcut] at hlast
    have hrun : Runs.run step s [.recv c (.data (bs.take sizeofHead)) q] = some v :=
      (Runs.run_cons_eq_some step).2 ⟨v, hv, rfl⟩
    apply h.realize_data hm hrun
    · exact fun w hw => ⟨fun _ d hd => by cases hd; exact hhears.1, trivial⟩
    · rw [Runs.trace_cons hv, hmsg]
      rfl
    · intro d hdc hd
      exact step_empty h.reachable.sound hv hd (h.empty d) (if_neg (Ne.symm hdc))
    · exact hhears'.1
    · exact ha'
    · exact hun
    · exact ht
    · rwa [hcut]
    · exact hlast hlen hframe

/-- A head that announces 65535 bytes, cut in its length field; `recv` is asked for all of them
before the field is complete. -/
def longHead : List UInt8 := [0, 0, 0, 0, 255, 255]

theorem len_longHead {n : ℕ} (hn : 2 ≤ n) :
    (filled (longHead ++ List.replicate n 0)).len = 65535 := by
  obtain ⟨k, rfl⟩ := Nat.exists_eq_add_of_le hn
  rw [List.replicate_add, ← List.append_assoc, len_filled_append (by simp [longHead])]
  decide +kernel

theorem Between.tooLong {past : Bool} (h : s.Between)
    (hm : s.settled.messageStep (.tooLong c past) = some u) :
    ∃ es t, Runs.run step s es = some t ∧ Runs.Along step ReadsOwn s es ∧
      Runs.trace step messages s es = [.tooLong c past] ∧ t.settled = u ∧ t.Between := by
  obtain ⟨hf, hhears, -⟩ := messageStep_eq_some.1 hm
  have hhears : Hears s.toGlobals c := hhears
  have hf : s.fault = none := hf
  have ha := h.empty c hhears.1
  have hun : Unfinished longHead := .inl (by decide)
  let q : ℕ → List SendResult := fun _ => []
  obtain ⟨v, hv, hhears', hf', ha', hmsg⟩ := exists_part (q := q) h.reachable hhears hf ha
    unfinished_nil longHead (by decide) (by decide +kernel) hun
  rw [List.nil_append] at ha'
  -- the rest of the head, or more than the buffer holds
  obtain ⟨n, hn, hpast, hlt⟩ : ∃ n, 6 ≤ n ∧ (decide (sizeofPkg < 6 + n) = past) ∧ n < 65535 := by
    cases past with
    | false => exact ⟨6, by decide⟩
    | true => exact ⟨1407, by decide⟩
  have hlen := len_longHead (n := n) (by omega)
  have hlength : (longHead ++ List.replicate n 0).length = 6 + n := by
    rw [List.length_append, List.length_replicate]
    rfl
  have htotal : (filled longHead).total = 65547 := by decide +kernel
  obtain ⟨t, ht⟩ := hhears'.step (q := q) hf' ha' hun (List.replicate n 0)
    (by rw [List.length_replicate]; omega) (by rw [hlength, htotal]; omega)
  have hr : Reachable v := h.reachable.snoc _ hv
  obtain ⟨-, hst, -⟩ := step_data hr.sound ht ha' hun
  have hlast := messages_tooLong q hst (by rw [hlength]; simp only [sizeofHead]; omega)
    (by rw [hlen]; decide)
  rw [hlength, hpast] at hlast
  have hrun : Runs.run step s [.recv c (.data longHead) q] = some v :=
    (Runs.run_cons_eq_some step).2 ⟨v, hv, rfl⟩
  apply h.realize_data hm hrun
  · exact fun w hw => ⟨fun _ d hd => by cases hd; exact hhears.1, trivial⟩
  · rw [Runs.trace_cons hv, hmsg]
    rfl
  · intro d hdc hd
    exact step_empty h.reachable.sound hv hd (h.empty d) (if_neg (Ne.symm hdc))
  · exact hhears'.1
  · exact ha'
  · exact hun
  · exact ht
  · rintro (hun | ⟨hgood, -⟩)
    · rw [hlength] at hun
      simp only [sizeofHead] at hun
      omega
    · rw [hlen] at hgood
      exact absurd hgood (by decide)
  · exact hlast

theorem Between.event (h : s.Between) (hm : s.settled.messageStep (.event e) = some u) :
    ∃ es t, Runs.run step s es = some t ∧ Runs.Along step ReadsOwn s es ∧
      Runs.trace step messages s es = [.event e] ∧ t.settled = u ∧ t.Between := by
  obtain ⟨hf, ⟨he, hen⟩, -⟩ := messageStep_eq_some.1 hm
  obtain ⟨t, ht⟩ : ∃ t, s.step e = some t :=
    ⟨_, step_eq_some.2 ⟨hf, (settled_enabled he).1 hen, rfl⟩⟩
  have hrun : Runs.run step s [e] = some t := (Runs.run_cons_eq_some step).2 ⟨t, ht, rfl⟩
  apply h.realize hm hrun
  · exact fun v hv => ⟨fun hdata => absurd hdata he, trivial⟩
  · rw [Runs.trace_cons ht, messages_event he]
    rfl
  · exact fun c hc => step_empty h.reachable.sound ht hc (h.empty c) (Event.input_of_not_data he c)

theorem realizes_messages :
    Runs.Realizes step messageStep messages settled ReadsOwn Between := by
  intro s m u h hm
  cases m with
  | frame c bytes q => exact h.frame hm
  | tooLong c past => exact h.tooLong hm
  | event e => exact h.event hm

theorem between_boot : boot.Between :=
  ⟨.refl _ _, fun c hc => by simp [Globals.Live, Server.boot] at hc⟩

/-! ## The two levels -/

/-- The frames that the server is told have arrived on `c`. -/
def framesOn (c : Slot) : List Message → List (List UInt8)
  | [] => []
  | .frame d bytes _ :: ms => (if d = c then [bytes] else []) ++ framesOn c ms
  | _ :: ms => framesOn c ms

theorem framesOn_append (c : Slot) (ms ns : List Message) :
    framesOn c (ms ++ ns) = framesOn c ms ++ framesOn c ns := by
  induction ms with
  | nil => rfl
  | cons m ms ih => cases m <;> simp [framesOn, ih]

/-- A message is of the channel that is read. -/
theorem framesOn_messages_of_ne (he : e.recvSlot ≠ some c) : framesOn c (s.messages e) = [] := by
  cases e with
  | recv d r q =>
    have hdc : d ≠ c := fun hdc => he (by rw [Event.recvSlot, hdc])
    cases r with
    | data bs =>
      simp only [messages]
      split
      · rfl
      · split
        · rfl
        · split
          · rfl
          · simp [framesOn, hdc]
    | _ => rfl
  | _ => rfl

/-- The bytes that arrive on `c` are the frames that the server is told of, and what is in the
receive buffer. -/
theorem step_frames (hr : Reachable s) (hst : s.step e = some t) (hc : s.Live c) (ht : t.Live c)
    (ha : s.Assembling c pre) (hu : Unfinished pre) :
    ∃ pre', Unfinished pre' ∧ t.Assembling c pre' ∧
      pre ++ e.input c = (framesOn c (s.messages e)).flatten ++ pre' := by
  -- the case that what is there does not make a frame
  have hmore : ∀ hin : framesOn c (s.messages e) = [], Unfinished (pre ++ e.input c) →
      ∃ pre', Unfinished pre' ∧ t.Assembling c pre' ∧
        pre ++ e.input c = (framesOn c (s.messages e)).flatten ++ pre' := by
    intro hin hun
    refine ⟨_, hun, ?_, by rw [hin]; rfl⟩
    cases (step_receives hr.sound hst hc ht ha hu).1 with
    | more _ ha _ => exact ha
    | done p hp hf _ _ => exact absurd (hf ▸ List.prefix_rfl) (hun.not_prefix hp)
  by_cases he : e.recvSlot = some c
  · cases e with
    | recv d r q =>
      obtain rfl := Option.some.inj he
      cases r with
      | data bs =>
        have hin : (Event.recv d (.data bs) q).input d = bs := if_pos rfl
        obtain ⟨-, hst', hcases⟩ := step_data hr.sound hst ha hu
        rw [hin] at hmore ⊢
        rcases hcases with ⟨hun, -⟩ | ⟨-, -, rfl⟩ | ⟨hlen, hframe, rfl⟩
        · exact hmore (by rw [messages_unfinished q hst' hun]; rfl) hun
        · exact absurd rfl (ne_of_freed ht)
        · refine ⟨[], unfinished_nil, ⟨by simp, by simp⟩, ?_⟩
          rw [messages_frame q hst' hlen hframe]
          simp [framesOn]
      | _ => exact hmore rfl (by simpa [Event.input] using hu)
    | _ => cases he
  · exact hmore (framesOn_messages_of_ne he) (by rwa [Event.input_eq_nil he, List.append_nil])

theorem run_frames {es : List Event} (hr : Reachable s) (hc : s.Live c) (ha : s.Assembling c [])
    (hrun : Runs.run step s es = some t) (hal : Runs.Along step (fun _ _ u => u.Live c) s es) :
    Reachable t ∧ t.Live c ∧ ∃ pre, Unfinished pre ∧ t.Assembling c pre ∧
      Event.inputs c es = (framesOn c (Runs.trace step messages s es)).flatten ++ pre := by
  refine Runs.along_induction step (P := fun es t => Reachable t ∧ t.Live c ∧ ∃ pre,
    Unfinished pre ∧ t.Assembling c pre ∧
      Event.inputs c es = (framesOn c (Runs.trace step messages s es)).flatten ++ pre)
    ⟨hr, hc, [], unfinished_nil, ha, rfl⟩ ?_ hrun hal
  intro es u e v hu ih hst hv
  obtain ⟨hr', hl, pre, hun, ha', hin⟩ := ih
  obtain ⟨pre', hun', ha'', hin'⟩ := step_frames hr' hst hl hv ha' hun
  refine ⟨hr'.snoc _ hst, hv, pre', hun', ha'', ?_⟩
  rw [Event.inputs_concat, hin, List.append_assoc, hin', Runs.trace_append hu, Runs.trace_cons hst,
    framesOn_append, framesOn_append, List.flatten_append, List.flatten_append, List.append_assoc,
    List.append_assoc]
  rfl

/-- However `recv` cuts the bytes, the server does what a server does that is told of the frames
only; and the frames that this one is told of are the bytes that arrive, but for the beginning of
one more. -/
theorem frames_whole {es : List Event} (hr : Reachable s) (hrun : Runs.run step s es = some t)
    (hal : Runs.Along step ReadsOwn s es) :
    Runs.run messageStep s.settled (Runs.trace step messages s es) = some t.settled ∧
    ∀ c, s.Live c → (s.channel c).recvCtx.len = 0 → Runs.Along step (fun _ _ u => u.Live c) s es →
      ∃ pre, Unfinished pre ∧ t.Assembling c pre ∧
        Event.inputs c es = (framesOn c (Runs.trace step messages s es)).flatten ++ pre := by
  refine ⟨(simulates_messages.run hr hrun hal).1, fun c hc h0 hlive => ?_⟩
  exact (run_frames hr hc (assembling_nil hr hc h0) hrun hlive).2.2

theorem frames_whole_inPieces :
    Runs.run messageStep (after [.accept 5]).settled
      (Runs.trace step messages (after [.accept 5]) inPieces) =
        some (after ([.accept 5] ++ inPieces)).settled ∧
    ∀ c, (after [.accept 5]).Live c → ((after [.accept 5]).channel c).recvCtx.len = 0 →
      Runs.Along step (fun _ _ u => u.Live c) (after [.accept 5]) inPieces →
      ∃ pre, Unfinished pre ∧ (after ([.accept 5] ++ inPieces)).Assembling c pre ∧
        Event.inputs c inPieces =
          (framesOn c (Runs.trace step messages (after [.accept 5]) inPieces)).flatten ++ pre :=
  frames_whole (reachable_after _ (by decide +kernel)) (run_after _ _ (by decide +kernel))
    (by decide +kernel)

/-- Nothing that the server without receive buffers can do is beyond the server: the messages that
lead the one to `m` are those of a run of the other to a state that is `m` but for the receive
buffers. -/
theorem frames_cut (ms : List Message) (m : Server) :
    Runs.run messageStep boot.settled ms = some m ↔ ∃ es t, Runs.run step boot es = some t ∧
      Runs.Along step ReadsOwn boot es ∧ Runs.trace step messages boot es = ms ∧ t.settled = m := by
  constructor
  · intro h
    obtain ⟨es, t, hrun, hal, htr, hm, -⟩ := realizes_messages.run between_boot h
    exact ⟨es, t, hrun, hal, htr, hm⟩
  · rintro ⟨es, t, hrun, hal, rfl, rfl⟩
    exact (simulates_messages.run (.refl _ _) hrun hal).1

end Server
end WawaServer
