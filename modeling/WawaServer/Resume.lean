import WawaServer.Accept
import WawaServer.Backpressure

/-!
# Resuming the source

At the end of a packet `server_send_cb` starts the receive watcher of `pSrcChannel`. Only `dispatch`
assigns that pointer, but `response` starts the send watcher too: when the packet was one of
`response`, the pointer is null or left from an earlier frame.
-/

namespace WawaServer
namespace Server

variable {s t : Server} {c d : Slot} {q : ℕ → List SendResult}

/-! ## Cut frames and the pointer -/

/-- While a frame that was cut short is in a send buffer, the pointer leads to its source. -/
def Traced (s : Server) : Prop :=
  ∀ d a, s.cut d = some a → (s.channel d).sendCtx.pSrcChannel = some a

theorem Traced.congr (h : s.Traced) (hcut : ∀ d a, t.cut d = some a → s.cut d = some a)
    (hsrc : ∀ d, (t.channel d).sendCtx.pSrcChannel = (s.channel d).sendCtx.pSrcChannel) :
    t.Traced := by
  intro d a hd
  rw [hsrc]
  exact h d a (hcut d a hd)

theorem Traced.freed (h : s.Traced) (c : Slot) : (s.freed c).Traced := by
  refine h.congr (fun d a hd => ?_) (freed_src s c)
  rw [freed_cut, update_none_eq_some] at hd
  exact hd.2

theorem Traced.effect (h : s.Traced) (he : Effect s t) : t.Traced := by
  cases he with
  | free c => exact h.freed c
  | breakFail fd r c p =>
    have hX : ((s.notifying fd c p).popped p.fd 0 p.total).Traced := by
      refine h.congr ?_ ?_ <;> simp [notifying]
    refine (hX.freed c).congr ?_ ?_ <;> simp [unbridged]
  | relayCut pkg srcfd dstfd a d k =>
    intro e b hcut
    by_cases hed : e = d
    · subst hed
      have hba : a = b := by simpa [relaying, pausing] using hcut
      simp [pausing, setSrcChannel, hba]
    · have hold : s.cut e = some b := by simpa [relaying, pausing, hed] using hcut
      rw [← h e b hold]
      simp [pausing, setSrcChannel, modify_channel_of_ne hed, relaying]
  | _ =>
    refine h.congr ?_ ?_ <;> simp [replying, relaying, sending, finishing, notifying, unbridged]

theorem traced_keeps : Keeps (fun _ _ _ => True) Traced where
  boot d a h := by cases h
  accepting {s fd c} _ h _ _ _ _ _ := by
    refine h.congr (fun d a hd => ?_) fun d => ?_
    · simp only [Server.accepting] at hd
      split at hd
      · cases hd
      · exact (update_none_eq_some.1 hd).2
    · rw [accepting_channel]
      split
      · rename_i hdc
        rw [hdc]
        rfl
      · rfl
  refusing _ h _ _ := h
  effect _ h he _ := h.effect he
  closing {s c} hs h hc _ := by
    have hX : (s.enter (.closed c)).Traced := h
    exact (hX.freed c).effect (closing_effect hs hc)
  routed _ _ _ h := h
  recvPkg c p h := by refine h.congr ?_ ?_ <;> simp
  recvLen c n h := by refine h.congr ?_ ?_ <;> simp

theorem Reachable.traced (hr : Reachable s) : s.Traced :=
  traced_keeps.reachable hr fun _ _ _ _ => trivial

/-- The frame that was cut short last is the last of those that `dispatch` cut short, if it is one
of them. -/
theorem cutSource_of_unfinished {l : History} {a : Slot} (h : l.unfinished c = some a) :
    l.cutSource c = some a := by
  induction l with
  | nil => cases h
  | cons k l ih =>
    obtain ⟨k, g⟩ := k
    cases k with
    | dispatch pkg srcfd dstfd =>
      rw [History.unfinished] at h
      rw [History.cutSource]
      split at h
      · rename_i hcut
        rwa [if_pos hcut]
      · rename_i hcut
        rw [if_neg hcut]
        exact ih h
    | response p =>
      rw [History.unfinished] at h
      split at h
      · cases h
      · exact ih h
    | _ => exact ih h

/-! ## The end of a packet -/

/-- From `s` to `t` `server_send_cb` came to the end of the packet in the send buffer of `c`: the
pointer was not null, and if a connection other than that of `c` was started, it is the one whose
frame is that packet, and `response` has left no packet unfinished on `c` since. -/
structure Resumes (s t : Server) (c : Slot) : Prop where
  noNull : t.fault ≠ some .nullSrcChannel
  only : ∀ a, a ≠ c → (s.channel a).recvCtx.io.active = false →
    (t.channel a).recvCtx.io.active = true → s.cut c = some a ∧ s.calls.unfinished c = some a

/-- The packet in the send buffer of `c` is a frame that `dispatch` has cut short, and `response`
has left none unfinished since; or there is a source to resume, and it is `c` or started already. -/
def SourceKnown (s : Server) (c : Slot) : Prop :=
  s.cut c ≠ none ∧ s.calls.unfinished c ≠ none ∨
    ∃ a, (s.channel c).sendCtx.pSrcChannel = some a ∧
      (a = c ∨ (s.channel a).recvCtx.io.active = true)

theorem exists_of_completes {g : Globals} (h : g.Completes c) :
    ∃ k, g.outcome (g.channel c).fd (g.sendCount c) = .sent k ∧
      (g.channel c).sendCtx.pkg.total ≤ (g.channel c).sendCtx.len + k := by
  unfold Globals.Completes at h
  split at h
  · rename_i k ho
    exact ⟨k, ho, h⟩
  · cases h

/-- Besides `c` only the channel that the pointer leads to is started. -/
theorem finishing_recvActive (s : Server) (c : Slot) (k : ℕ) (a d : Slot) :
    (((s.finishing c k).startRecv a).channel d).recvCtx.io.active = true ↔
      d = a ∨ d = c ∨ (s.channel d).recvCtx.io.active = true := by
  simp [finishing, sending]

theorem finishing_fault (s : Server) (c : Slot) (k : ℕ) (h : s.fault = none) :
    (s.finishing c k).fault ≠ some .nullSrcChannel := by
  have hfault : (s.finishing c k).fault = if sizeofPkg < (s.channel c).sendCtx.len + s.sendCount c
      then some .sendOverread else s.fault := rfl
  rw [hfault, h]
  split <;> simp

/-- The end of a packet resumes whom it should exactly if the source is known. -/
theorem resumes_iff (hr : Reachable s) (h : s.step (.send c q) = some t)
    (hk : Globals.Completes { s.toGlobals with results := q } c) :
    Resumes s t c ↔ s.SourceKnown c := by
  obtain ⟨hf, -, rfl⟩ := step_eq_some.1 h
  have htrace := hr.traced c
  have hsrc := hr.sourced c
  obtain ⟨k, ho, hle⟩ := exists_of_completes hk
  have heq := serverSendCb_of_sent (s := { s with results := q }) ho
  rw [if_neg (not_lt.2 hle)] at heq
  rw [exec, heq]
  cases ha : (s.channel c).sendCtx.pSrcChannel with
  | none =>
    -- null: the packet was none of `dispatch`
    have hnone : s.cut c = none := by
      cases hcut : s.cut c with
      | none => rfl
      | some b => cases ha.symm.trans (htrace b hcut)
    constructor
    · intro hres
      exact absurd rfl hres.noNull
    · rintro (⟨hcut, -⟩ | ⟨b, hb, -⟩)
      · exact absurd hnone hcut
      · cases ha.symm.trans hb
  | some a =>
    have hstart := finishing_recvActive { s with results := q } c k a
    constructor
    · intro hres
      by_cases hac : a = c ∨ (s.channel a).recvCtx.io.active = true
      · exact .inr ⟨a, ha, hac⟩
      · rw [not_or, Bool.not_eq_true] at hac
        obtain ⟨hcut, hun⟩ := hres.only a hac.1 hac.2 ((hstart a).2 (.inl rfl))
        refine .inl ⟨?_, ?_⟩
        · rw [hcut]
          exact Option.some_ne_none a
        · rw [hun]
          exact Option.some_ne_none a
    · intro hknown
      refine ⟨finishing_fault _ c k hf, fun d hdc hoff hon => ?_⟩
      -- the one that is started is the one that the pointer leads to
      obtain rfl : d = a := by
        rcases (hstart d).1 hon with hda | hdc' | hact
        · exact hda
        · exact absurd hdc' hdc
        · cases hoff.symm.trans hact
      rcases hknown with ⟨hcut, hun⟩ | ⟨b, hb, hbc⟩
      · obtain ⟨b, hb⟩ := Option.ne_none_iff_exists'.1 hcut
        obtain ⟨b', hb'⟩ := Option.ne_none_iff_exists'.1 hun
        have hfirst := (htrace b hb).symm.trans ha
        have hlast := (cutSource_of_unfinished hb').symm.trans (hsrc.symm.trans ha)
        rw [hb, hb', hfirst, hlast]
        exact ⟨rfl, rfl⟩
      · obtain rfl := Option.some.inj (hb.symm.trans ha)
        rcases hbc with hbc | hact
        · exact absurd hbc hdc
        · cases hoff.symm.trans hact

/-! ## Whole runs -/

/-- Every `server_send_cb` that comes to the end of a packet resumes whom it should. -/
def ResumesOk (s : Server) (e : Event) (t : Server) : Prop :=
  ∀ c q, e = .send c q → Globals.Completes { s.toGlobals with results := q } c → Resumes s t c

/-- Whenever `server_send_cb` comes to the end of a packet, its source is known. -/
def SourcesKnown (s : Server) (e : Event) (_ : Server) : Prop :=
  ∀ c q, e = .send c q → Globals.Completes { s.toGlobals with results := q } c → s.SourceKnown c

/-- The resume pointer is valid all along a run exactly if, all along it, the source is known at the
end of every packet. -/
theorem resume_valid (es : List Event) :
    Runs.Along step ResumesOk boot es ↔ Runs.Along step SourcesKnown boot es := by
  refine Runs.along_iff step (fun s e t hs hst => ?_) es
  have hr : Reachable s := hs
  constructor
  · rintro hok c q rfl hk
    exact (resumes_iff hr hst hk).1 (hok c q rfl hk)
  · rintro hknown c q rfl hk
    exact (resumes_iff hr hst hk).2 (hknown c q rfl hk)

/-- A client registers, and of the 48 bytes of the reply the kernel takes 5. -/
def replyCutShort : List Event := .accept 5 :: Event.register 0 .raspi fun _ => [.sent 5]

/-- The rest of the reply is sent, and there is no source. -/
theorem resume_null : ¬ ∀ es, Runs.Along step ResumesOk boot es := by
  intro h
  have hrun := run_after [] replyCutShort (by decide +kernel)
  have hok := (Runs.along_concat step (h (replyCutShort ++ [.send 0 Event.takesAll])) hrun
    (step_after _ _ (by decide +kernel))).2
  exact absurd (hok 0 _ rfl (by decide +kernel)).noNull (by decide +kernel)

end Server
end WawaServer
