import WawaServer.Receive

/-!
# Delivery of a message

One whole message that arrives on a connection, as two calls of `server_recv_cb`: a request is
handled, and any other message is dispatched to the connection last accepted under its
`stHead.fd`, or to nobody (`Delivers`). Nothing else is dispatched, and between two messages the
receive buffers are empty. An open descriptor has an owner in `channel_map`.
-/

namespace WawaServer
namespace Server

variable {s t u : Server} {c d : Slot} {p pkg : Pkg}

/-! ## Accepts -/

/-- What was called stays in the record of a run. -/
theorem reaches_calls_suffix (hs : s.Sound) (h : Runs.Reaches step s t) :
    s.calls <:+ t.calls := by
  obtain ⟨es, hes⟩ := h
  exact (Runs.run_invariant step (P := fun u => u.Sound ∧ s.calls <:+ u.calls)
    (fun u _ _ hu hst => ⟨hu.1.step hst, hu.2.trans (step_calls_suffix hu.1 hst)⟩) hes
    ⟨hs, List.suffix_rfl⟩).2

/-- `accept_cb` opens the descriptor, whether there is a slot or not. -/
theorem acceptCb_opened (s : Server) (fd : ℕ) :
    (s.acceptCb fd).opened = Function.update s.opened fd true := by
  obtain ⟨c, -, h⟩ | ⟨-, h⟩ := acceptCb_cases s fd <;> rw [h] <;> rfl

/-! ## What is dispatched -/

/-- Only `dispatch` dispatches. -/
theorem dispatched_of_inner (k : Call) (g : Globals) (l : History) (h : Inner (fun _ => True) k) :
    History.dispatched ((k, g) :: l) = l.dispatched := by
  cases k <;> first | rfl | cases h

/-- A request is not dispatched. -/
theorem handle_dispatched (s : Server) (pkg : Pkg) :
    (s.handle pkg).1.calls.dispatched = s.calls.dispatched :=
  handle_inner dispatched_of_inner (fun _ => trivial) (fun _ _ _ => rfl) (fun _ _ _ => rfl) s pkg

/-- It is recorded where the packet was written. -/
theorem dispatch_dispatched (s : Server) (pkg : Pkg) (srcfd dstfd : ℕ) :
    (s.dispatch pkg srcfd dstfd).1.calls.dispatched =
      (pkg, if s.Writes pkg srcfd dstfd then some (s.calls.conn dstfd) else none) ::
        s.calls.dispatched :=
  dispatch_inner dispatched_of_inner (fun _ => trivial) s pkg srcfd dstfd

/-- What `serverRecvCb` hands over: a request to `handle`, another packet to `dispatch`. -/
theorem route_dispatched (hs : s.Sound) (ha : s.Assembling c p.frame) (hp : p.len ≤ bufSize) :
    (s.route c).calls.dispatched = if p.fd = 0 then s.calls.dispatched else
      (Pkg.filled p.frame, if s.Writes (Pkg.filled p.frame) (s.channel c).fd p.fd then
        some (s.calls.conn p.fd) else none) :: s.calls.dispatched := by
  have hfd : (Pkg.filled p.frame).fd = p.fd := Pkg.fd_filled_frame hp
  unfold route
  simp only [ha.pkg, hfd, (hs.slot c).recvFd]
  split
  · rw [handle_dispatched]
    rfl
  · rw [dispatch_dispatched]
    rfl

theorem serverSendCb_dispatched (s : Server) (c : Slot) :
    (s.serverSendCb c).calls.dispatched = s.calls.dispatched :=
  serverSendCb_inner dispatched_of_inner (fun _ => trivial) s c

/-- What arrives is dispatched, and nothing else. -/
theorem step_dispatched {e : Event} (h : s.step e = some t)
    (he : ∀ c bs q, e ≠ .recv c (.data bs) q) : t.calls.dispatched = s.calls.dispatched := by
  obtain ⟨-, -, rfl⟩ := step_eq_some.1 h
  cases e with
  | accept fd =>
    rw [exec, acceptCb_calls]
    rfl
  | acceptError => rfl
  | recv c r q =>
    cases r with
    | closed => exact checkBreakFd_inner dispatched_of_inner (fun _ => trivial) _ _ _
    | again => rfl
    | error => rfl
    | data bs => exact absurd rfl (he c bs q)
  | send c q => exact serverSendCb_dispatched _ _

/-! ## Open descriptors -/

/-- Effects close descriptors and open none. -/
theorem Effect.opened_of (h : Effect s t) {fd : ℕ} (ho : t.opened fd = true) :
    s.opened fd = true := by
  cases h with
  | free c =>
    rw [freed_opened] at ho
    split at ho
    · cases ho
    · exact ho
  | breakFail fd' r c p =>
    have ho' : (((s.notifying fd' c p).popped p.fd 0 p.total).freed c).opened fd = true := ho
    rw [freed_opened] at ho'
    split at ho'
    · cases ho'
    · exact ho'
  | _ => exact ho

/-- Inside a callback no descriptor is opened. -/
theorem Update.opened_of (h : Update c s t) (hs : s.Sound) {fd : ℕ} (ho : t.opened fd = true) :
    s.opened fd = true := by
  cases h with
  | effect h => exact h.opened_of ho
  | closing h =>
    have hfreed := (closing_effect hs h).opened_of ho
    rw [freed_opened] at hfreed
    split at hfreed
    · cases hfreed
    · exact hfreed
  | _ => exact ho

/-- Induction on the updates of a callback. -/
theorem Updates.opened_of (h : Updates c s t) (hs : s.Sound) {fd : ℕ} (ho : t.opened fd = true) :
    s.opened fd = true := by
  induction h with
  | refl => exact ho
  | tail h' h ih => exact ih (h.opened_of (hs.updates h') ho)

/-- Every open descriptor is in `channel_map`. -/
def Owned (s : Server) : Prop :=
  s.fault = none → ∀ fd, s.opened fd = true → s.channelMap[fd]? ≠ none

/-- The descriptor is closed when its entry is erased. -/
theorem Owned.freed (h : s.Owned) (c : Slot) : (s.freed c).Owned := by
  intro hf fd ho
  rw [freed_opened] at ho
  split at ho
  · cases ho
  · rename_i hne
    rw [ne_eq, freed_channelMap_none, not_or]
    exact ⟨hne, h hf fd ho⟩

theorem Owned.congr (h : s.Owned) (hf : t.fault = none → s.fault = none)
    (ho : t.opened = s.opened) (hm : t.channelMap = s.channelMap) : t.Owned := by
  intro ht fd hfd
  rw [hm]
  exact h (hf ht) fd (ho ▸ hfd)

theorem fault_of_ite {P : Prop} [Decidable P] {f : Fault} {o : Option Fault}
    (h : (if P then some f else o) = none) : o = none := by
  split at h
  · cases h
  · exact h

/-- No effect mends a fault. -/
theorem Effect.fault_none (h : Effect s t) (ht : t.fault = none) : s.fault = none := by
  cases h <;> first | exact ht | exact fault_of_ite ht | cases ht

/-- An effect that closes a descriptor erases its entry. -/
theorem Owned.effect (h : s.Owned) (he : Effect s t) : t.Owned := by
  have hf := he.fault_none
  cases he with
  | free c => exact h.freed c
  | breakFail fd r c p =>
    have hX : ((s.notifying fd c p).popped p.fd 0 p.total).Owned :=
      h.congr fault_of_ite rfl rfl
    exact (hX.freed c).congr id rfl rfl
  | _ => exact h.congr hf rfl rfl

/-- Without a fault every part of a step keeps open descriptors in `channel_map`. -/
theorem owned_keeps : Keeps (fun _ _ _ => True) Owned where
  boot _ fd h := by simp [boot] at h
  accepting {s fd c} _ h _ _ hkey _ _ := by
    intro hf fd' ho
    rw [accepting_channelMap hkey]
    split
    · simp
    · rename_i hne
      exact h hf fd' (by simpa [accepting, hne] using ho)
  refusing _ _ _ _ := nofun
  effect _ h he _ := h.effect he
  closing hs h hc _ := Owned.effect (s := ((_ : Server).enter (.closed _)).freed _)
    (Owned.freed (s := (_ : Server).enter (.closed _)) h _) (closing_effect hs hc)
  routed _ _ _ h := h
  recvPkg _ _ h := h.congr id rfl rfl
  recvLen _ _ h := h.congr id rfl rfl

/-- The connection of an open descriptor. -/
theorem Reachable.owner (hr : Reachable s) (hf : s.fault = none) {fd : ℕ}
    (ho : s.opened fd = true) : ∃ c, s.Live c ∧ (s.channel c).fd = fd := by
  have h : s.Owned := owned_keeps.reachable hr fun _ _ _ _ => trivial
  obtain ⟨c, hc⟩ := Option.ne_none_iff_exists'.1 (h hf fd ho)
  exact ⟨c, hr.sound.live hc, hr.sound.fd_eq hc⟩

/-! ## Between two messages -/

/-- Effects bring no bytes. -/
theorem Effect.idle (h : Effect s t) (ha : s.Assembling d []) : t.Assembling d [] := by
  have hpkg : (t.channel d).recvCtx.pkg = (s.channel d).recvCtx.pkg := by
    cases h <;> simp [replying, notifying, unbridged, relaying, pausing, sending, finishing]
  refine ⟨hpkg.trans ha.pkg, ?_⟩
  have hlen : (s.channel d).recvCtx.len = 0 := ha.len
  cases h with
  | free c => exact freed_recvLen hlen
  | breakFail fd r c p =>
    have hfreed := freed_recvLen (c := c) (s := (s.notifying fd c p).popped p.fd 0 p.total)
      (d := d) (by simpa [notifying] using hlen)
    simpa [unbridged] using hfreed
  | _ =>
    simpa [replying, notifying, unbridged, relaying, pausing, sending, finishing] using hlen

/-- The callbacks of others leave an empty receive buffer empty. -/
theorem Update.idle (h : Update c s t) (hs : s.Sound) (hdc : d ≠ c) (ha : s.Assembling d []) :
    t.Assembling d [] := by
  cases h with
  | effect h => exact h.idle ha
  | closing h =>
    have hX : ((s.enter (.closed c)).freed c).Assembling d [] := by
      constructor <;> rw [freed_channel, if_neg hdc]
      · exact ha.pkg
      · exact ha.len
    exact (closing_effect hs h).idle hX
  | routed p => exact ⟨ha.pkg, ha.len⟩
  | recvPkg p => exact ⟨by simpa [modify_channel_of_ne hdc] using ha.pkg, by simpa using ha.len⟩
  | recvLen n => exact ⟨by simpa using ha.pkg, by simpa [modify_channel_of_ne hdc] using ha.len⟩

theorem Updates.idle (h : Updates c s t) (hs : s.Sound) (hdc : d ≠ c) (ha : s.Assembling d []) :
    t.Assembling d [] := by
  induction h with
  | refl => exact ha
  | tail h' h ih => exact h.idle (hs.updates h') hdc ih

/-- A new connection has an empty receive buffer. -/
theorem acceptCb_idle (fd : ℕ) (ha : s.Assembling d []) : (s.acceptCb fd).Assembling d [] := by
  obtain ⟨c, -, heq⟩ | ⟨-, heq⟩ := acceptCb_cases s fd
  · rw [heq]
    constructor <;> rw [accepting_channel] <;> split
    · rfl
    · exact ha.pkg
    · rfl
    · exact ha.len
  · rw [heq]
    exact ⟨ha.pkg, ha.len⟩

/-- `server_recv_cb` without data. -/
theorem serverRecvCb_idle (hs : s.Sound) (hact : (s.channel c).recvCtx.io.active = true)
    {r : RecvResult} (hr : ∀ bs, r ≠ .data bs) (ha : s.Assembling c []) :
    (s.serverRecvCb c r).Assembling c [] := by
  have hE := hs.enter (.serverRecvCb c)
  have hu := (hs.slot c).recvUsed hact
  have hfreed : ∀ u : Server, u.channel = s.channel → (u.freed c).Assembling c [] := by
    intro u hch
    constructor <;> rw [freed_channel, if_pos rfl]
    · exact (congrArg (fun f => (f c).recvCtx.pkg) hch).trans ha.pkg
    · rfl
  cases r with
  | closed =>
    simp only [serverRecvCb, (hE.enter (.closed c)).freeChannel_eq hu]
    exact (checkBreakFd_effect ((hE.enter (.closed c)).freed hu) _ _).idle (hfreed _ rfl)
  | again =>
    have hsame : s.serverRecvCb c .again = s.enter (.serverRecvCb c) := startRecv_of_active hact
    rw [hsame]
    exact ⟨ha.pkg, ha.len⟩
  | error =>
    simp only [serverRecvCb, hE.freeChannel_eq hu]
    exact hfreed _ rfl
  | data bs => exact absurd rfl (hr bs)

/-- A step without data leaves every receive buffer empty. -/
theorem step_idle (hs : s.Sound) {e : Event} (h : s.step e = some t)
    (he : ∀ c bs q, e ≠ .recv c (.data bs) q) (ha : ∀ d, s.Assembling d []) (d : Slot) :
    t.Assembling d [] := by
  rcases step_updates hs h with ⟨fd, rfl, -, rfl⟩ | hup
  · exact acceptCb_idle fd (ha d)
  · by_cases hrec : e.recvSlot = some d
    · obtain ⟨-, hen, rfl⟩ := step_eq_some.1 h
      cases e with
      | recv c r q =>
        obtain rfl := Option.some.inj hrec
        have hS : ({ s with results := q } : Server).Sound := hs.congr rfl rfl rfl
        exact serverRecvCb_idle hS hen.1 (fun bs hr => he c bs q (by rw [hr]))
          ⟨(ha c).pkg, (ha c).len⟩
      | _ => cases hrec
    · obtain ⟨c, hdc, hc⟩ := Event.exists_other hrec
      exact (hup c hc).idle hs hdc (ha d)

/-! ## A whole message -/

section Delivery

open Pkg

variable {pre bs : List UInt8} {q : ℕ → List SendResult}

/-- From `s` to `t` the message `p` was handled if it is a request, and dispatched if it is not. -/
structure Delivers (s t : Server) (p : Pkg) : Prop where
  request : p.fd = 0 → t.calls.dispatched = s.calls.dispatched
  relayed : p.fd ≠ 0 → ∃ o : Option Conn, (∀ κ ∈ o, κ = s.calls.conn p.fd) ∧
    t.calls.dispatched = (filled p.frame, o) :: s.calls.dispatched

/-- A whole packet is handled or dispatched, once. -/
theorem route_delivers (hs : s.Sound) (ha : s.Assembling c p.frame) (hp : p.len ≤ bufSize) :
    Delivers s (s.route c) p := by
  have hroute := route_dispatched hs ha hp
  refine ⟨fun h => by rw [hroute, if_pos h], fun h => ⟨_, ?_, by rw [hroute, if_neg h]⟩⟩
  intro κ hκ
  split at hκ
  · exact (Option.some.inj hκ).symm
  · cases hκ

/-- `recv` gets the rest of the frame. -/
theorem step_last (hs : s.Sound) (ha : s.Assembling c pre) (hu : Unfinished pre)
    (hp : p.len ≤ bufSize) (hf : p.frame = pre ++ bs)
    (h : s.step (.recv c (.data bs) q) = some t) : t.Assembling c [] ∧ Delivers s t p := by
  obtain ⟨hS, hst, heq⟩ := step_whole hs h ha hu hp hf
  have hdel := route_delivers hS hst hp
  rw [heq]
  refine ⟨⟨by simp, by simp⟩, fun h0 => (hdel.request h0).trans ?_, fun h0 => ?_⟩
  · rw [stored_calls]
    rfl
  · obtain ⟨o, ho, hd⟩ := hdel.relayed h0
    rw [stored_calls] at ho hd
    exact ⟨o, ho, hd⟩

/-- `recv` gets the head of a frame that has a body. -/
theorem step_head (hs : s.Sound) (ha : s.Assembling c []) (hp : p.len ≤ bufSize)
    (hlt : sizeofHead < p.total)
    (h : s.step (.recv c (.data (p.frame.take sizeofHead)) q) = some t) :
    t.Assembling c (p.frame.take sizeofHead) ∧ Unfinished (p.frame.take sizeofHead) ∧
      t.calls.dispatched = s.calls.dispatched := by
  have hlen : (p.frame.take sizeofHead).length = sizeofHead := by
    rw [List.length_take, length_frame]
    omega
  have hhead := len_filled_head hp
  obtain ⟨-, hst, hcases⟩ := step_data hs h ha unfinished_nil
  rcases hcases with ⟨hun, heq⟩ | ⟨-, hbad, -⟩ | ⟨-, hframe, -⟩
  · rw [heq]
    exact ⟨hst, hun, by rw [stored_calls]; rfl⟩
  · -- the length in the head fits
    rw [List.nil_append, hhead] at hbad
    omega
  · have hend := congrArg List.length hframe
    rw [List.nil_append, length_frame, total, hhead, hlen] at hend
    rw [total] at hlt
    omega

/-- The message `p` arrives on `c`. -/
theorem run_frame (hs : s.Sound) (ha : ∀ d, s.Assembling d []) (hp : p.len ≤ bufSize)
    (h : Runs.run step s (Event.frame c p.frame q) = some t) :
    s.opened (s.channel c).fd = true ∧ Updates c s t ∧ (∀ d, t.Assembling d []) ∧
      Delivers s t p := by
  have hups : ∀ {u v : Server} {bs : List UInt8}, u.Sound →
      u.step (.recv c (.data bs) q) = some v → Updates c u v := by
    intro u v bs hu hst
    rcases step_updates hu hst with ⟨fd, hfd, -⟩ | hup
    · cases hfd
    · exact hup c (by simp [Event.recvSlot])
  obtain ⟨u, hu, hrest⟩ := (Runs.run_cons_eq_some step).1 h
  have hopen : s.opened (s.channel c).fd = true := by
    rw [← (hs.slot c).recvFd]
    exact (step_eq_some.1 hu).2.1.2.1
  have hsu := hups hs hu
  -- no other channel is received from
  suffices Updates c s t ∧ t.Assembling c [] ∧ Delivers s t p by
    obtain ⟨hst, hc, hdel⟩ := this
    refine ⟨hopen, hst, fun d => ?_, hdel⟩
    by_cases hdc : d = c
    · rw [hdc]
      exact hc
    · exact hst.idle hs hdc (ha d)
  split at hrest
  · -- the head is the whole frame
    rename_i hnil
    obtain rfl : u = t := by simpa using hrest
    have hall : p.frame.take sizeofHead = p.frame :=
      List.take_of_length_le (List.drop_eq_nil_iff.1 hnil)
    obtain ⟨hc, hdel⟩ := step_last hs (ha c) unfinished_nil hp (by rw [hall]; rfl) hu
    exact ⟨hsu, hc, hdel⟩
  · -- the head, and then the body
    rename_i hbody
    have hlt : sizeofHead < p.total := by
      rw [← length_frame]
      exact not_le.1 fun hle => hbody (List.drop_eq_nil_iff.2 hle)
    obtain ⟨hhead, hun, hdis⟩ := step_head hs (ha c) hp hlt hu
    obtain ⟨v, hv, hlast⟩ := (Runs.run_cons_eq_some step).1 hrest
    obtain rfl : v = t := by simpa using hlast
    have hU := hs.updates hsu
    obtain ⟨hc, hdel⟩ := step_last hU hhead hun hp (List.take_append_drop _ _).symm hv
    refine ⟨hsu.trans (hups hU hv), hc, fun h0 => (hdel.request h0).trans hdis, fun h0 => ?_⟩
    obtain ⟨o, ho, hd⟩ := hdel.relayed h0
    rw [hdis] at hd
    refine ⟨o, fun κ hκ => (ho κ hκ).trans ?_, hd⟩
    rw [History.conn, History.conn, hsu.gen_eq hs]

end Delivery

end Server
end WawaServer
