import WawaServer.Receive

/-!
# Bounds of a request

The count `server_recv_cb` asks for is computed from a length field that may be incomplete, and only
the complete one is compared with `BUF_SIZE`. The bytes of the field that have not arrived are those
the receive buffer held before: zeros on a connection, but on a slot that was released in the middle
of a frame what is left of that frame, because `free_channel` resets the count and not the packet
and `server_send_cb` may start the watcher again. `recv_bounded` says when a request is too long.
-/

namespace WawaServer

/-- The head that is arriving as `pre` is that of `p`. -/
def Pkg.Announces (p : Pkg) (pre : List UInt8) : Prop :=
  pre.take sizeofHead <+: Buffer.slice p 0 sizeofHead

/-- The length field when the first `n` bytes of `p` have arrived in a buffer that held `b`. -/
def Pkg.cutLen (p b : Pkg) (n : ℕ) : ℕ := Pkg.len (Buffer.write b 0 (Buffer.slice p 0 n))

/-- The length field says no more than fits, and nothing when `p` has a body that is too long. -/
def Pkg.CutSafe (p b : Pkg) (n : ℕ) : Prop :=
  p.cutLen b n ≤ bufSize ∧ (bufSize < p.len → p.cutLen b n = 0)

namespace Server

open Pkg

variable {s t : Server} {c : Slot} {b p : Pkg} {pre : List UInt8} {es : List Event} {e : Event}

/-- In the run on `es` to `t` the bytes `pre` of a frame have arrived on `c` since the receive
buffer was last empty, when it held `b`. -/
structure Receiving (t : Server) (es : List Event) (c : Slot) (b : Pkg) (pre : List UInt8) :
    Prop where
  began : ∃ es₁ es₂ s, es = es₁ ++ es₂ ∧ Runs.run step boot es₁ = some s ∧
    (s.channel c).recvCtx.len = 0 ∧ (s.channel c).recvCtx.pkg = b ∧ Event.inputs c es₂ = pre
  pkg : (t.channel c).recvCtx.pkg = Buffer.write b 0 pre
  len : (t.channel c).recvCtx.len = pre.length
  incomplete : (t.channel c).recvCtx.Incomplete

/-- What a request for the packet `p`, of which `pre` has arrived, has to meet. -/
structure RequestSafe (t : Server) (c : Slot) (pre : List UInt8) (p : Pkg) : Prop where
  /-- It stays inside the buffer. -/
  inside : (t.channel c).recvCtx.len + t.recvCount c ≤ sizeofPkg
  /-- It stays inside the head of a packet that is too long. -/
  head : bufSize < p.len → (t.channel c).recvCtx.len + t.recvCount c ≤ sizeofHead
  /-- The head of a packet that is too long ends the connection. -/
  freed : bufSize < p.len → ∀ e u, t.step e = some u → p.Announces (pre ++ e.input c) →
    sizeofHead ≤ (pre ++ e.input c).length → ∃ g, u.calls.head? = some (.freeChannel c, g)

/-! ## The length field -/

/-- The bytes of the head that have arrived are those of the packet. -/
theorem getD_of_announces (h : p.Announces pre) {i : ℕ} (hi : i < sizeofHead)
    (hl : i < pre.length) : pre.getD i 0 = Buffer.get p i := by
  obtain ⟨x, hx⟩ := h
  have hget := congrArg (fun l => l.getD i 0) hx
  have htake : (pre.take sizeofHead).getD i 0 = pre.getD i 0 := by
    rw [List.getD_eq_getElem?_getD, List.getElem?_take_of_lt hi, List.getD_eq_getElem?_getD]
  simp only [List.getD_append _ _ _ _ (show i < (pre.take sizeofHead).length by simp [hi, hl]),
    htake, Buffer.getD_slice _ _ _ hi, zero_add] at hget
  exact hget

/-- The field is made of the bytes that arrived and of those that were there. -/
theorem len_of_announces (h : p.Announces pre) (b : Pkg) :
    Pkg.len (Buffer.write b 0 pre) = p.cutLen b pre.length := by
  apply Buffer.word_congr _ _ _ _
  intro k hk
  have hn : 4 + k < sizeofPkg := by simp only [sizeofPkg]; omega
  rw [Buffer.get_write _ _ _ _ hn, Buffer.get_write _ _ _ _ hn, Buffer.length_slice]
  by_cases hl : 4 + k < pre.length
  · have hget := getD_of_announces h (i := 4 + k) (by simp only [sizeofHead]; omega) hl
    rw [if_pos (by omega), if_pos (by omega), Nat.sub_zero, hget, Buffer.getD_slice _ _ _ hl, zero_add]
  · rw [if_neg (by omega), if_neg (by omega)]

/-- All of it is there with the head. -/
theorem cutLen_of_le (p b : Pkg) {n : ℕ} (hn : 8 ≤ n) : p.cutLen b n = p.len := by
  apply Buffer.word_congr _ _ _ _
  intro k hk
  have hlt : 4 + k < sizeofPkg := by simp only [sizeofPkg]; omega
  rw [Buffer.get_write _ _ _ _ hlt, Buffer.length_slice, if_pos (by omega), Nat.sub_zero,
    Buffer.getD_slice _ _ _ (by omega), zero_add]

/-- In an empty buffer the bytes that have not arrived count as zeros. -/
theorem get_cut_construct (p : Pkg) (n : ℕ) {i : ℕ} (hi : i < sizeofPkg) :
    Buffer.get (Buffer.write construct 0 (Buffer.slice p 0 n)) i =
      if i < n then Buffer.get p i else 0 := by
  rw [Buffer.get_write _ _ _ _ hi, Buffer.length_slice]
  by_cases hn : i < n
  · rw [if_pos (by omega), if_pos hn, Nat.sub_zero, Buffer.getD_slice _ _ _ hn, zero_add]
  · rw [if_neg (by omega), if_neg hn, construct, Buffer.get_zero]

/-- On a connection a request is safe unless some but not all bytes of a length that is too large
have arrived, and one of them is not zero. -/
theorem cutSafe_construct (p : Pkg) (n : ℕ) : p.CutSafe construct n ↔
    (bufSize < p.len → ∀ i, 4 ≤ i → i < 8 → i < n → Buffer.get p i = 0) := by
  have hget : ∀ k, k < 4 → Buffer.get (Buffer.write construct 0 (Buffer.slice p 0 n)) (4 + k) =
      if 4 + k < n then Buffer.get p (4 + k) else 0 :=
    fun k hk => get_cut_construct p n (by simp only [sizeofPkg]; omega)
  have hle : p.cutLen construct n ≤ p.len := by
    apply Buffer.word_mono _ _ _
    intro k hk
    rw [hget k hk]
    split
    · exact .inl rfl
    · exact .inr rfl
  have hzero : p.cutLen construct n = 0 ↔ ∀ i, 4 ≤ i → i < 8 → i < n → Buffer.get p i = 0 := by
    rw [cutLen, len, Buffer.word_eq_zero]
    constructor
    · intro hz i h4 h8 hn
      obtain ⟨k, rfl⟩ := Nat.exists_eq_add_of_le h4
      have hk := hz k (by omega)
      rwa [hget k (by omega), if_pos hn] at hk
    · intro hz k hk
      rw [hget k hk]
      split
      · rename_i hn
        exact hz _ (by omega) (by omega) hn
      · rfl
  constructor
  · intro h hbad
    exact hzero.1 (h.2 hbad)
  · intro h
    refine ⟨?_, fun hbad => hzero.2 (h hbad)⟩
    rcases lt_or_ge bufSize p.len with hbad | hgood
    · rw [hzero.2 (h hbad)]
      exact Nat.zero_le _
    · exact hle.trans hgood

/-! ## Steps -/

/-- What a step of the server does to the frame in reception on `c`: its bytes are added, or the
reception of a frame begins, on a connection in an empty buffer. -/
inductive Takes (s t : Server) (c : Slot) (bs : List UInt8) : Prop
  | more (hpkg : (t.channel c).recvCtx.pkg =
        Buffer.write (s.channel c).recvCtx.pkg (s.channel c).recvCtx.len bs)
      (hlen : (t.channel c).recvCtx.len = (s.channel c).recvCtx.len + bs.length)
      (hin : (t.channel c).recvCtx.Incomplete) (hlive : t.Live c → s.Live c)
  | anew (hlen : (t.channel c).recvCtx.len = 0)
      (hlive : t.Live c → (t.channel c).recvCtx.pkg = construct)

theorem Takes.of_leavesInput (h : LeavesInput s t c) (hin : (s.channel c).recvCtx.Incomplete) :
    Takes s t c [] := by
  rcases h.len with hlen | ⟨hzero, hdead⟩
  · refine .more ?_ hlen ?_ h.live
    · rw [h.pkg, Buffer.write_nil]
    · rwa [RecvCtx.Incomplete, h.pkg, hlen]
  · exact .anew hzero fun hc => absurd hc hdead

theorem acceptCb_takes (fd : ℕ) (hkey : s.channelMap[fd]? = none)
    (hin : (s.channel c).recvCtx.Incomplete) : Takes s (s.acceptCb fd) c [] := by
  rcases acceptCb_cases s fd with ⟨d, -, heq⟩ | ⟨-, heq⟩ <;> rw [heq]
  · by_cases hcd : c = d
    · exact .anew (by simp [accepting_channel, hcd, freshChannel])
        fun _ => by simp [accepting_channel, hcd, freshChannel]
    · refine .of_leavesInput ⟨?_, .inl ?_, fun hc => ?_⟩ hin
      · rw [accepting_channel, if_neg hcd]
      · rw [accepting_channel, if_neg hcd]
      · exact ((accepting_live hkey).1 hc).resolve_left hcd
  · exact .of_leavesInput ⟨rfl, .inl rfl, id⟩ hin

/-- `server_recv_cb` adds the bytes to the buffer, or begins a new frame. -/
theorem serverRecvCb_takes (hs : s.Sound) (hact : (s.channel c).recvCtx.io.active = true)
    (r : RecvResult) (q : ℕ → List SendResult) (hin : (s.channel c).recvCtx.Incomplete) :
    Takes s (s.serverRecvCb c r) c ((Event.recv c r q).input c) := by
  -- a call that is torn down leaves a count of 0 on a slot without a connection
  have htorn : r = .closed ∨ r = .error → Takes s (s.serverRecvCb c r) c [] := by
    intro hr
    refine .anew ?_ fun hc => absurd hc (serverRecvCb_torn hs hact hr)
    have hu := (hs.slot c).recvUsed hact
    have hfree : ∀ u : Server, ((u.freed c).channel c).recvCtx.len = 0 := fun u => by
      rw [freed_channel, if_pos rfl]
    rcases hr with rfl | rfl
    · have hE := (hs.enter (.serverRecvCb c)).enter (.closed c)
      simp only [serverRecvCb, hE.freeChannel_eq hu]
      have hleft := (checkBreakFd_effect (hE.freed hu) (((((s.enter (.serverRecvCb c)).enter
        (.closed c)).freed c).channel c).type) (((((s.enter (.serverRecvCb c)).enter
          (.closed c)).freed c).channel c).recvCtx.io.fd)).leavesInput c
      rcases hleft.len with hlen | ⟨hlen, -⟩
      · exact hlen.trans (hfree _)
      · exact hlen
    · simp only [serverRecvCb, (hs.enter (.serverRecvCb c)).freeChannel_eq hu]
      exact hfree _
  cases r with
  | closed => exact htorn (.inl rfl)
  | error => exact htorn (.inr rfl)
  | again =>
    have hsame : s.serverRecvCb c .again = s.enter (.serverRecvCb c) := startRecv_of_active hact
    rw [hsame]
    exact .of_leavesInput ⟨rfl, .inl rfl, id⟩ hin
  | data bs =>
    have hbytes : (Event.recv c (.data bs) q).input c = bs := if_pos rfl
    have hctx := store_recvCtx (s.enter (.serverRecvCb c)) c bs
    have hlive := store_live (d := c) (s.enter (.serverRecvCb c)) c bs
    rw [hbytes]
    rcases serverRecvCb_stored bs hs hact rfl with
      ⟨hun, heq⟩ | ⟨-, -, heq⟩ | ⟨-, -, heq⟩ <;> rw [heq]
    · exact .more (by rw [hctx]; rfl) (by rw [hctx]; rfl) hun hlive.1
    · refine .anew ?_ fun hc => absurd rfl (ne_of_freed hc)
      rw [freed_channel, if_pos rfl]
    · exact .anew (by simp) fun _ => by simp

/-- Every step adds what it brings to the slot, or a new frame begins there. -/
theorem step_takes (hs : s.Sound) (h : s.step e = some t)
    (hin : (s.channel c).recvCtx.Incomplete) : Takes s t c (e.input c) := by
  rcases step_updates hs h with ⟨fd, rfl, hen, rfl⟩ | hup
  · exact acceptCb_takes fd (hs.key_none hen.2.2) hin
  · by_cases hrec : e.recvSlot = some c
    · obtain ⟨-, hen, rfl⟩ := step_eq_some.1 h
      cases e with
      | recv d r q =>
        obtain rfl := Option.some.inj hrec
        have hS : ({ s with results := q } : Server).Sound := hs.congr rfl rfl rfl
        have htakes := serverRecvCb_takes hS hen.1 r q hin
        cases htakes with
        | more hpkg hlen hin hlive => exact .more hpkg hlen hin hlive
        | anew hlen hlive => exact .anew hlen hlive
      | _ => cases hrec
    · -- the callbacks of the others may free `c`, and do nothing else to its buffer
      obtain ⟨d, hcd, hd⟩ := Event.exists_other hrec
      rw [Event.input_eq_nil hrec]
      exact .of_leavesInput ((hup d hd).leavesInput hs hcd) hin

/-- The call that completes the head of a packet that is too long frees the channel. -/
theorem Receiving.head_frees (h : t.Receiving es c b pre) (hs : t.Sound) {u : Server}
    (hst : t.step e = some u) (hbad : bufSize < p.len) (hann : p.Announces (pre ++ e.input c))
    (hl : sizeofHead ≤ (pre ++ e.input c).length) : ∃ g, u.calls.head? = some (.freeChannel c, g) := by
  have hfield : Pkg.len (Buffer.write b 0 (pre ++ e.input c)) = p.len :=
    (len_of_announces hann b).trans (cutLen_of_le p b (by simp only [sizeofHead] at hl; omega))
  have hin : e.input c ≠ [] := by
    intro hnil
    rw [hnil, List.append_nil] at hl hfield
    have hinc := h.incomplete
    rw [RecvCtx.Incomplete, h.len, h.pkg, hfield] at hinc
    omega
  obtain ⟨-, hen, rfl⟩ := step_eq_some.1 hst
  cases e with
  | recv d r q =>
    cases r with
    | data bs =>
      have hdc : d = c := by
        by_contra hne
        exact hin (if_neg hne)
      subst hdc
      have hbytes : (Event.recv d (.data bs) q).input d = bs := if_pos rfl
      rw [hbytes] at hl hfield
      have hS : ({ t with results := q } : Server).Sound := hs.congr rfl rfl rfl
      have hctx := store_recvCtx (({ t with results := q } : Server).enter (.serverRecvCb d)) d bs
      have hlen : (((({ t with results := q } : Server).enter (.serverRecvCb d)).store d
          bs).channel d).recvCtx.len = (pre ++ bs).length := by
        rw [hctx, List.length_append, ← h.len]
        rfl
      have hpkg : (((({ t with results := q } : Server).enter (.serverRecvCb d)).store d
          bs).channel d).recvCtx.pkg.len = p.len := by
        rw [← hfield, ← Buffer.write_append, zero_add, ← h.pkg, ← h.len, hctx]
        rfl
      rcases serverRecvCb_stored bs hS hen.1 rfl with
        ⟨hun, -⟩ | ⟨-, -, heq⟩ | ⟨hgood, -, -⟩
      · rw [RecvCtx.Incomplete, hlen, hpkg] at hun
        omega
      · exact ⟨_, congrArg (fun u : Server => u.calls.head?) heq⟩
      · omega
    | _ => exact absurd rfl hin
  | _ => exact absurd rfl hin

/-! ## Runs -/

/-- With an empty buffer a frame begins. -/
theorem Receiving.anew (hrun : Runs.run step boot es = some t) (h0 : (t.channel c).recvCtx.len = 0) :
    t.Receiving es c (t.channel c).recvCtx.pkg [] where
  began := ⟨es, [], t, (List.append_nil es).symm, hrun, h0, rfl, rfl⟩
  pkg := (Buffer.write_nil _ _).symm
  len := h0
  incomplete := .inl (h0 ▸ by decide)

/-- Every slot is receiving a frame, and a connection began with an empty buffer. -/
theorem receiving (hrun : Runs.run step boot es = some t) (c : Slot) :
    ∃ b pre, t.Receiving es c b pre ∧ (t.Live c → b = construct) := by
  induction es using List.reverseRecOn generalizing t with
  | nil =>
    obtain rfl : boot = t := by simpa using hrun
    exact ⟨_, [], .anew hrun rfl, fun _ => rfl⟩
  | append_singleton es e ih =>
    obtain ⟨s, hs, hst⟩ := (Runs.run_concat_eq_some step).1 hrun
    obtain ⟨b, pre, h, hb⟩ := ih hs
    have hS : s.Sound := Reachable.sound ⟨es, hs⟩
    cases step_takes hS hst h.incomplete with
    | more hpkg hlen hin hlive =>
      obtain ⟨es₁, es₂, s₁, rfl, hs₁, h0, hb₁, hpre⟩ := h.began
      refine ⟨b, pre ++ e.input c, ⟨⟨es₁, es₂ ++ [e], s₁, ?_, hs₁, h0, hb₁, ?_⟩, ?_, ?_, hin⟩,
        fun hc => hb (hlive hc)⟩
      · rw [List.append_assoc]
      · rw [Event.inputs_concat, hpre]
      · rw [hpkg, h.pkg, h.len, ← Buffer.write_append, zero_add]
      · rw [hlen, h.len, List.length_append]
    | anew hlen hlive => exact ⟨_, [], .anew hrun hlen, hlive⟩

/-- In every run, on every slot, a request is as it should be exactly when the length field is: it
says no more than fits, and nothing when the head that is arriving announces too much. -/
theorem recv_bounded (hrun : Runs.run step boot es = some t) (c : Slot) :
    ∃ b pre, t.Receiving es c b pre ∧ (t.Live c → b = construct) ∧
      ∀ p : Pkg, p.Announces pre → (t.RequestSafe c pre p ↔ p.CutSafe b pre.length) := by
  obtain ⟨b, pre, h, hb⟩ := receiving hrun c
  refine ⟨b, pre, h, hb, fun p hp => ?_⟩
  have hS : t.Sound := Reachable.sound ⟨es, hrun⟩
  have hend := request_end_of_incomplete h.incomplete
  rw [h.pkg, total, len_of_announces hp b] at hend
  constructor
  · intro hsafe
    have hinside := hsafe.inside
    rw [hend] at hinside
    refine ⟨by simp only [bufSize, sizeofHead, sizeofPkg] at *; omega, fun hbad => ?_⟩
    have hhead := hsafe.head hbad
    rw [hend] at hhead
    omega
  · intro hcut
    refine ⟨?_, fun hbad => ?_, fun hbad e u hst hann hl => h.head_frees hS hst hbad hann hl⟩
    · rw [hend]
      have hle := hcut.1
      simp only [bufSize, sizeofHead, sizeofPkg] at *
      omega
    · rw [hend, hcut.2 hbad, zero_add]

/-- The head of a packet that is too long arrives with its length field cut after two zero
bytes. -/
def cutAtZeros : List Event := [.accept 5, .recv 0 (.data [3, 0, 0, 0, 0, 0]) Event.takesAll]

theorem recv_bounded_cutAtZeros : ∃ b pre, (after cutAtZeros).Receiving cutAtZeros 0 b pre ∧
    ((after cutAtZeros).Live 0 → b = construct) ∧ ∀ p : Pkg, p.Announces pre →
      ((after cutAtZeros).RequestSafe 0 pre p ↔ p.CutSafe b pre.length) :=
  recv_bounded (run_after [] cutAtZeros (by decide +kernel)) 0

/-- The length field is cut after two bytes that are not zero. -/
def cutAtOnes : List Event := [.accept 5, .recv 0 (.data [3, 0, 0, 0, 255, 255]) Event.takesAll]

/-- Two bytes of the length field have arrived, and make 65535. -/
theorem recv_unbounded : ¬ ∀ s, Reachable s → ∀ c, s.Live c → (s.channel c).recvCtx.io.active = true →
    (s.channel c).recvCtx.len + s.recvCount c ≤ sizeofPkg := by
  intro h
  have hle := h _ (reachable_after cutAtOnes (by decide +kernel)) 0 (by decide +kernel)
    (by decide +kernel)
  exact absurd hle (by decide +kernel)

end Server
end WawaServer
