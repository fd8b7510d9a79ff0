import WawaServer.Clients.Readers
import WawaServer.Clients.Sending

/-!
# Receiving one packet

A `recv_pkg` reads the head, and then as many bytes as the head announces. `remote.cpp` looks at the
length in between, after it was added to 12 as an unsigned number and made an `int` again;
`raspi.cpp` and `client.cpp` do not look at it. All three call `recv` for the body even where there
is none.
-/

namespace WawaServer

open Pkg
open Remote (recvRound)

variable {κ : Kernel} {fuel n m : ℕ} {k l : Socket} {p pkg : Pkg} {bs rest : List UInt8}
  {x : Reader}

/-! ## Rounds -/

/-- A round goes on after `recv` returned some bytes that are not the last ones. -/
theorem recvRound_inl {pkglen off off' : ℤ} {q : Pkg}
    (h : recvRound κ pkglen (off, pkg, k) = some (.inl (off', q, l))) :
    off' = off + κ.recv k.calls (sizeT (pkglen - off)) ∧
      0 < κ.recv k.calls (sizeT (pkglen - off)) ∧ off' ≠ pkglen := by
  simp only [recvRound, Socket.recv] at h
  split at h
  · cases h
  · rename_i hrecv
    split at hrecv
    · cases hrecv
    · cases hrecv
      split at h
      · rename_i hpos
        split at h
        · cases h
        · rename_i hne
          cases h
          exact ⟨rfl, hpos, hne⟩
      · cases h

/-- A round notes what it asks for, whichever way it ends. -/
theorem recvRound_requests {pkglen off : ℤ} :
    (∀ st, recvRound κ pkglen (off, pkg, k) = some (.inl st) →
      st.2.2.requests = k.requests ++ [(off, pkglen - off)]) ∧
    ∀ r, recvRound κ pkglen (off, pkg, k) = some (.inr r) →
      r.1.requests = k.requests ++ [(off, pkglen - off)] := by
  simp only [recvRound, Socket.recv]
  split
  · exact ⟨nofun, nofun⟩
  · rename_i hrecv
    split at hrecv
    · cases hrecv
    · cases hrecv
      split
      · split
        · exact ⟨nofun, fun r hr => by cases hr; rfl⟩
        · exact ⟨fun st hst => by cases hst; rfl, nofun⟩
      · exact ⟨nofun, fun r hr => by cases hr; rfl⟩

/-- A loop of a `recv_pkg` asks for what is missing in each state that it reaches. -/
theorem recvLoop_requests {pkglen off : ℤ} {r : Socket × Pkg × Bool}
    (h : Loop.run (recvRound κ pkglen) n (off, pkg, k) = some r) :
    ∃ rs, r.1.requests = k.requests ++ rs ∧ ∀ q, q ∈ rs ↔ ∃ m st,
      Loop.rounds (recvRound κ pkglen) m (off, pkg, k) = some st ∧ q = (st.1, pkglen - st.1) :=
  Loop.run_logs (recvRound κ pkglen) (fun st => (st.1, pkglen - st.1)) (fun st => st.2.2.requests)
    (fun r => r.1.requests) (fun _ => recvRound_requests.1) (fun _ => recvRound_requests.2) h

/-- A round that asks for nothing gets nothing, and leaves. -/
theorem recvRound_of_zero (h : κ.recv k.calls 0 ≤ 0) (off : ℤ) (pkg : Pkg) :
    ∃ l q, recvRound κ off (off, pkg, k) = some (.inr (l, q, false)) := by
  have hcount : sizeT (off - off) = 0 := by rw [Int.sub_self]; rfl
  have hnone : (κ.recv k.calls 0).toNat = 0 := Int.toNat_of_nonpos h
  refine ⟨{ k with
    input := k.input.drop 0
    calls := k.calls + 1
    requests := k.requests ++ [(off, off - off)] },
    Buffer.write pkg off.toNat (k.input.take 0), ?_⟩
  simp only [recvRound, Socket.recv, hcount, hnone]
  rw [if_neg (Nat.not_lt_zero _)]
  exact if_neg (not_lt.2 h)

/-- Rounds that start below `pkglen` stay below. -/
theorem rounds_lt (hκ : ∀ i n, κ.recv i n ≤ n) {a off off' : ℤ} {q : Pkg} (ha : 0 ≤ a)
    (hm : (m : ℤ) < 2 ^ 64) (hoff : a ≤ off) (hlt : off ≤ m)
    (h : Loop.rounds (recvRound κ m) n (off, pkg, k) = some (off', q, l)) :
    a ≤ off' ∧ (off' < m ∨ n = 0 ∧ off' = off) := by
  cases n with
  | zero =>
    obtain ⟨rfl, -⟩ := Prod.mk.inj (Option.some.inj h)
    exact ⟨hoff, .inr ⟨rfl, rfl⟩⟩
  | succ n =>
    have hround : ∀ st st' : ℤ × Pkg × Socket, a ≤ st.1 ∧ st.1 ≤ m →
        recvRound κ m st = some (.inl st') → a ≤ st'.1 ∧ st'.1 < m := by
      rintro ⟨off, pkg, k⟩ ⟨off', q, l⟩ ⟨hoff, hle⟩ hinl
      obtain ⟨heq, hpos, hne⟩ := recvRound_inl hinl
      have hcount : sizeT ((m : ℤ) - off) = ((m : ℤ) - off).toNat := by
        unfold sizeT
        omega
      have hrecv := hκ k.calls (sizeT ((m : ℤ) - off))
      rw [hcount] at hrecv heq hpos
      simp only at heq ⊢
      omega
    rw [Loop.rounds] at h
    split at h
    · cases h
    · rename_i st hst
      obtain ⟨hge, hle⟩ := hround _ _ ⟨hoff, hlt⟩ hst
      have hkeep := Loop.rounds_keeps (fun st => a ≤ st.1 ∧ st.1 < (m : ℤ))
        (fun s t hs ht => hround s t ⟨hs.1, hs.2.le⟩ ht) ⟨hge, hle⟩ h
      exact ⟨hkeep.1, .inl hkeep.2⟩
    · cases h

namespace Reader

/-! ## The two loops -/

instance (pkglen : ℤ) : Decidable (x.BadLen pkglen) :=
  match x with
  | remote => inferInstanceAs (Decidable (_ < _))
  | raspi => inferInstanceAs (Decidable False)
  | client => inferInstanceAs (Decidable False)

/-- The three programs do the same but for the test of the length. -/
theorem recvPkg_eq (x : Reader) (κ : Kernel) (fuel : ℕ) (k : Socket) : x.recvPkg κ fuel k =
    match Loop.run (recvRound κ sizeofHead) fuel (0, construct, k) with
    | none => none
    | some (l, pkg, false) => some (l, pkg, -1)
    | some (l, pkg, true) =>
      if x.BadLen (int32 (sizeofHead + pkg.len)) then some (l, pkg, -2)
      else
        match Loop.run (recvRound κ (int32 (sizeofHead + pkg.len))) fuel (sizeofHead, pkg, l) with
        | none => none
        | some (l, pkg, false) => some (l, pkg, -1)
        | some (l, pkg, true) => some (l, pkg, 0) := by
  cases x with
  | remote => rfl
  | raspi =>
    simp only [recvPkg, Raspi.recvPkg]
    rcases Loop.run (recvRound κ sizeofHead) fuel (0, construct, k) with _ | ⟨l, pkg, _ | _⟩
    · rfl
    · rfl
    · exact (if_neg id).symm
  | client =>
    simp only [recvPkg, Client.recvPkg]
    rcases Loop.run (recvRound κ sizeofHead) fuel (0, construct, k) with _ | ⟨l, pkg, _ | _⟩
    · rfl
    · rfl
    · exact (if_neg id).symm

theorem HeadReceived.unique {l' : Socket} {q : Pkg} (h : HeadReceived κ k l pkg)
    (h' : HeadReceived κ k l' q) : l = l' ∧ pkg = q := by
  obtain ⟨n, hn⟩ := h
  obtain ⟨m, hm⟩ := h'
  obtain ⟨rfl, hq⟩ := Prod.mk.inj (Loop.run_unique hn hm)
  exact ⟨rfl, (Prod.mk.inj hq).1⟩

/-- -2 means that the length was bad. -/
theorem badLen_of_returns {q : Pkg} (h : x.recvPkg κ fuel k = some (l, q, -2)) :
    HeadReceived κ k l q ∧ x.BadLen (int32 (sizeofHead + q.len)) := by
  rw [recvPkg_eq] at h
  split at h
  · cases h
  · cases h
  · rename_i hhead
    split at h
    · rename_i hbad
      cases h
      exact ⟨⟨fuel, hhead⟩, hbad⟩
    · split at h <;> cases h

theorem recvPkg_of_badLen (h : HeadReceived κ k l pkg)
    (hbad : x.BadLen (int32 (sizeofHead + pkg.len))) :
    ∃ fuel, x.recvPkg κ fuel k = some (l, pkg, -2) := by
  obtain ⟨n, hn⟩ := h
  refine ⟨n, ?_⟩
  rw [recvPkg_eq]
  simp only [hn]
  exact if_pos hbad

/-! ## What is asked for -/

/-- A call for the body asks for what is missing of `pkglen` bytes. -/
theorem Requests.cases (h : HeadReceived κ k l pkg) {r : ℤ × ℤ} (hr : x.Requests κ k r) :
    (∃ n off q l', Loop.rounds (recvRound κ sizeofHead) n (0, construct, k) = some (off, q, l') ∧
      r = (off, sizeofHead - off)) ∨
    ¬ x.BadLen (int32 (sizeofHead + pkg.len)) ∧ ∃ n off q l',
      Loop.rounds (recvRound κ (int32 (sizeofHead + pkg.len))) n (sizeofHead, pkg, l) =
        some (off, q, l') ∧ r = (off, int32 (sizeofHead + pkg.len) - off) := by
  cases hr with
  | head hrounds => exact .inl ⟨_, _, _, _, hrounds, rfl⟩
  | @body n pkglen off _ q _ l' hhead hlen hbad hrounds =>
    obtain ⟨rfl, rfl⟩ := h.unique hhead
    rw [← hlen]
    exact .inr ⟨hbad, n, off, q, l', hrounds, rfl⟩

/-- The calls for the head ask for no byte of the body. -/
theorem head_within (hκ : ∀ i n, κ.recv i n ≤ n) {off : ℤ} {q : Pkg}
    (h : Loop.rounds (recvRound κ sizeofHead) n (0, construct, k) = some (off, q, l)) :
    Within sizeofHead (off, sizeofHead - off) := by
  have hlt := rounds_lt hκ (m := sizeofHead) le_rfl (by decide) le_rfl (by decide) h
  refine ⟨hlt.1, ?_, by simp⟩
  have h12 : (sizeofHead : ℤ) = 12 := rfl
  simp only [h12] at hlt ⊢
  omega

/-- A first call for the body is made unless the length was bad. -/
theorem requests_body (h : HeadReceived κ k l pkg)
    (hbad : ¬ x.BadLen (int32 (sizeofHead + pkg.len))) :
    x.Requests κ k (sizeofHead, int32 (sizeofHead + pkg.len) - sizeofHead) :=
  .body (n := 0) h rfl hbad rfl

/-- Once `recv_pkg` has returned, the socket's record has the calls of `recv`. -/
def Records (x : Reader) (κ : Kernel) (k : Socket) : Prop :=
  ∀ fuel l pkg code, x.recvPkg κ fuel k = some (l, pkg, code) →
    ∃ rs, l.requests = k.requests ++ rs ∧ ∀ r, r ∈ rs ↔ x.Requests κ k r

theorem recvPkg_records (x : Reader) (κ : Kernel) (k : Socket) : x.Records κ k := by
  intro fuel l pkg code h
  rw [recvPkg_eq] at h
  split at h
  · cases h
  · -- the first loop has failed, and there are no calls for the body
    rename_i l' q hrun
    cases h
    obtain ⟨rs, hrs, hmem⟩ := recvLoop_requests hrun
    refine ⟨rs, hrs, fun r => (hmem r).trans ⟨?_, fun hr => ?_⟩⟩
    · rintro ⟨m, ⟨off, q, l'⟩, hrounds, rfl⟩
      exact .head hrounds
    · cases hr with
      | head hrounds => exact ⟨_, _, hrounds, rfl⟩
      | body hhead _ _ _ =>
        obtain ⟨m, hm⟩ := hhead
        cases Loop.run_unique hrun hm
  · rename_i l' q hrun
    have hhead : HeadReceived κ k l' q := ⟨fuel, hrun⟩
    obtain ⟨rs, hrs, hmem⟩ := recvLoop_requests hrun
    split at h
    · -- the length was bad
      rename_i hbad
      cases h
      refine ⟨rs, hrs, fun r => (hmem r).trans ⟨?_, fun hr => ?_⟩⟩
      · rintro ⟨m, ⟨off, q, l'⟩, hrounds, rfl⟩
        exact .head hrounds
      · rcases hr.cases hhead with ⟨m, off, q, l', hrounds, rfl⟩ | ⟨hgood, -⟩
        · exact ⟨m, _, hrounds, rfl⟩
        · exact absurd hbad hgood
    · rename_i hgood
      obtain ⟨b, hbody⟩ : ∃ b, Loop.run (recvRound κ (int32 (sizeofHead + q.len))) fuel
          (sizeofHead, q, l') = some (l, pkg, b) := by
        split at h
        · cases h
        · rename_i hrun'
          cases h
          exact ⟨_, hrun'⟩
        · rename_i hrun'
          cases h
          exact ⟨_, hrun'⟩
      obtain ⟨rs', hrs', hmem'⟩ := recvLoop_requests hbody
      simp only at hrs hrs'
      refine ⟨rs ++ rs', by rw [hrs', hrs, List.append_assoc], fun r => ?_⟩
      rw [List.mem_append, hmem, hmem']
      constructor
      · rintro (⟨m, ⟨off, q, l'⟩, hrounds, rfl⟩ | ⟨m, ⟨off, q, l'⟩, hrounds, rfl⟩)
        · exact .head hrounds
        · exact .body hhead rfl hgood hrounds
      · intro hr
        rcases hr.cases hhead with ⟨m, off, q, l', hrounds, rfl⟩ | ⟨-, m, off, q, l', hrounds, rfl⟩
        · exact .inl ⟨m, _, hrounds, rfl⟩
        · exact .inr ⟨m, _, hrounds, rfl⟩

end Reader

/-! ## Bytes that arrive -/

namespace Remote

/-- From `k` to `l` the bytes `bs` were received. -/
structure GotTo (k l : Socket) (bs : List UInt8) : Prop where
  input : k.input = bs ++ l.input
  output : l.output = k.output
  requests : ∃ rs, l.requests = k.requests ++ rs ∧ ∀ r ∈ rs, Within sizeofPkg r

theorem GotTo.refl (k : Socket) : GotTo k k [] := ⟨rfl, rfl, [], by simp⟩

theorem GotTo.recv (hκ : ∀ i n, 0 < n → 1 ≤ κ.recv i n ∧ κ.recv i n ≤ n) (h : GotTo k l bs)
    (hlt : bs.length < n) (hn : n ≤ sizeofPkg) (hin : n ≤ k.input.length) :
    ∃ cs l', 0 < cs.length ∧ bs.length + cs.length ≤ n ∧
      l.recv κ (filled bs) bs.length (n - bs.length) =
        some (l', filled (bs ++ cs), (cs.length : ℤ)) ∧ GotTo k l' (bs ++ cs) := by
  have hcount := sizeT_sub hlt.le (show n < 2 ^ 64 by simp only [sizeofPkg] at hn; omega)
  obtain ⟨hpos, hle⟩ := hκ l.calls (n - bs.length) (by omega)
  obtain ⟨m, hm⟩ := Int.eq_ofNat_of_zero_le (by omega : 0 ≤ κ.recv l.calls (n - bs.length))
  have hinput := congrArg List.length h.input
  rw [List.length_append] at hinput
  -- enough bytes are on their way
  have hlen : (l.input.take m).length = m := by
    rw [List.length_take]
    omega
  have hrecv : l.recv κ (filled bs) bs.length (n - bs.length) = some ({ l with
      input := l.input.drop m
      calls := l.calls + 1
      requests := l.requests ++ [((bs.length : ℤ), (n : ℤ) - bs.length)] },
      filled (bs ++ l.input.take m), ((l.input.take m).length : ℤ)) := by
    simp only [Socket.recv, hcount, hm, Int.toNat_natCast, hlen]
    rw [if_neg (by omega), write_filled]
  refine ⟨l.input.take m, _, by omega, by omega, hrecv, ?_, h.output, ?_⟩
  · rw [List.append_assoc, List.take_append_drop]
    exact h.input
  · obtain ⟨rs, hrs, hwithin⟩ := h.requests
    refine ⟨rs ++ [((bs.length : ℤ), (n : ℤ) - bs.length)], by simp [hrs], ?_⟩
    simp only [List.mem_append, List.mem_singleton]
    rintro r (hr | rfl)
    · exact hwithin r hr
    · exact ⟨by omega, by omega, by omega⟩

/-- A loop of a `recv_pkg` goes on until the packet holds `n` bytes. -/
theorem recvLoop_gotTo (hκ : ∀ i n, 0 < n → 1 ≤ κ.recv i n ∧ κ.recv i n ≤ n)
    (h : GotTo k l bs) (hlt : bs.length < n) (hn : n ≤ sizeofPkg) (hin : n ≤ k.input.length)
    (hfuel : sizeofPkg < fuel) :
    ∃ l', Loop.run (recvRound κ n) fuel (bs.length, filled bs, l) =
      some (l', filled (k.input.take n), true) ∧ GotTo k l' (k.input.take n) := by
  -- each round gets at least a byte, so that what is missing bounds the rounds
  have hrun := Loop.run_total (recvRound κ n) (s := ((bs.length : ℤ), filled bs, l))
    (n := fuel)
    (fun st => ∃ cs, cs.length < n ∧ st.1 = cs.length ∧ st.2.1 = filled cs ∧ GotTo k st.2.2 cs)
    (fun r => r.2 = (filled (k.input.take n), true) ∧ GotTo k r.1 (k.input.take n))
    (fun st => n - st.1.toNat) ?_ ⟨bs, hlt, rfl, rfl, h⟩ (by simp; omega)
  · obtain ⟨⟨l', r⟩, hr, rfl, hl⟩ := hrun
    exact ⟨l', hr, hl⟩
  · rintro ⟨-, -, u⟩ ⟨cs, hcs, rfl, rfl, hu⟩
    obtain ⟨ds, v, hpos, hle, hrecv, hv⟩ := hu.recv hκ hcs hn hin
    simp only [recvRound, hrecv]
    rw [if_pos (by omega)]
    by_cases hend : cs.length + ds.length = n
    · have htake : k.input.take n = cs ++ ds := by
        rw [hv.input, ← hend, ← List.length_append, List.take_left]
      refine .inr ⟨(v, filled (cs ++ ds), true), ?_, by rw [htake], htake ▸ hv⟩
      rw [if_pos (by omega)]
    · refine .inl ⟨((cs.length : ℤ) + ds.length, filled (cs ++ ds), v), ?_,
        ⟨cs ++ ds, by rw [List.length_append]; omega, by simp, rfl, hv⟩, ?_⟩
      · rw [if_neg (by omega)]
      · show n - ((cs.length : ℤ) + ds.length).toNat < n - (cs.length : ℤ).toNat
        omega

end Remote

namespace Reader

theorem headReceived_of_input (hκ : ∀ i n, 0 < n → 1 ≤ κ.recv i n ∧ κ.recv i n ≤ n)
    (hin : sizeofHead ≤ k.input.length) :
    ∃ l, HeadReceived κ k l (filled (k.input.take sizeofHead)) := by
  obtain ⟨l, hl, -⟩ := Remote.recvLoop_gotTo (n := sizeofHead) hκ (.refl k) (by decide) (by decide)
    hin (Nat.lt_succ_self sizeofPkg)
  exact ⟨l, _, by rw [← filled_nil]; exact hl⟩

/-! ## Lengths that are too large -/

/-- `recv_pkg` returns `code`, and no call asks for a byte of the body. -/
structure Refuses (x : Reader) (κ : Kernel) (k : Socket) (code : ℤ) : Prop where
  returns : ∃ fuel l pkg, x.recvPkg κ fuel k = some (l, pkg, code)
  head : ∀ r, x.Requests κ k r → Within sizeofHead r

/-- Nothing but the test of the length keeps the second loop from asking for a body. -/
theorem Refuses.badLen {code : ℤ} (h : x.Refuses κ k code) (hhead : HeadReceived κ k l pkg)
    (hlarge : sizeofHead < int32 (sizeofHead + pkg.len)) :
    x.BadLen (int32 (sizeofHead + pkg.len)) := by
  by_contra hgood
  have hwithin := (h.head _ (requests_body hhead hgood)).2.2
  simp only at hwithin
  omega

theorem refuses_of_badLen (hκ : ∀ i n, κ.recv i n ≤ n) (h : HeadReceived κ k l pkg)
    (hbad : x.BadLen (int32 (sizeofHead + pkg.len))) : x.Refuses κ k (-2) := by
  obtain ⟨fuel, hret⟩ := recvPkg_of_badLen h hbad
  refine ⟨⟨fuel, l, pkg, hret⟩, fun r hr => ?_⟩
  rcases Requests.cases h hr with ⟨n, off, q, l', hrounds, rfl⟩ | ⟨hgood, -⟩
  · exact head_within hκ hrounds
  · exact absurd hbad hgood

/-- The sum of a length and 12 that does not wrap around is a number that fits, or is too large, or
negative. -/
theorem remote_badLen_iff (hn : n + sizeofHead < 2 ^ 32) :
    remote.BadLen (int32 (sizeofHead + n)) ↔ bufSize < n := by
  simp only [BadLen, int32, sizeT, Int.bmod, bufSize, sizeofHead] at *
  omega

/-- A sum that does wrap around is less than 12. -/
theorem int32_wrapped (hn : n < 2 ^ 32) (hwrap : 2 ^ 32 ≤ n + sizeofHead) :
    int32 (sizeofHead + n) = ((n + sizeofHead - 2 ^ 32 : ℕ) : ℤ) := by
  simp only [int32, Int.bmod, sizeofHead] at *
  omega

/-- The length `len` is refused exactly if it is larger than `BUF_SIZE`, and every call asks for
bytes of the packet. -/
structure RejectsOversize (κ : Kernel) (k : Socket) (len : ℕ) : Prop where
  refuses : remote.Refuses κ k (-2) ↔ bufSize < len
  inside : ∀ r, remote.Requests κ k r → 0 ≤ r.1 ∧ 0 ≤ r.2 ∧ r.1 + r.2 ≤ sizeofPkg

/-- The length of a packet that fits is the same as an `int`. -/
theorem int32_head (hp : p.len ≤ bufSize) : int32 ((sizeofHead : ℤ) + p.len) = p.total := by
  rw [Int.add_comm]
  exact int32_total hp

/-- Of a length that fits, the calls for the body ask for the rest of the frame. -/
theorem body_inside (hκ : ∀ i n, κ.recv i n ≤ n) (hp : pkg.len ≤ bufSize) {off : ℤ} {q : Pkg}
    {l' : Socket} (h : Loop.rounds (recvRound κ (int32 (sizeofHead + pkg.len))) n
      (sizeofHead, pkg, l) = some (off, q, l')) :
    0 ≤ off ∧ 0 ≤ int32 (sizeofHead + pkg.len) - off ∧
      off + (int32 (sizeofHead + pkg.len) - off) ≤ sizeofPkg := by
  have htotal := total_le hp
  have h12 : ((sizeofHead : ℕ) : ℤ) ≤ pkg.total := Int.ofNat_le.2 pkg.twelve_le_total
  rw [int32_head hp] at h ⊢
  have hlt := rounds_lt hκ (Int.natCast_nonneg sizeofHead)
    (by simp only [sizeofPkg] at htotal; omega) le_rfl h12 h
  have hpos : (0 : ℤ) ≤ sizeofHead := Int.natCast_nonneg _
  refine ⟨by omega, by omega, by omega⟩

/-- `recv_pkg` of `remote.cpp` rejects a length that is too large, and reads inside of the packet,
exactly if the length and 12 do not wrap around. The calls it is judged by are those it makes. -/
theorem rejects_oversize_iff (hκ : ∀ i n, κ.recv i n ≤ n) (h : HeadReceived κ k l pkg) :
    (RejectsOversize κ k pkg.len ↔ pkg.len + sizeofHead < 2 ^ 32) ∧ remote.Records κ k := by
  refine ⟨?_, recvPkg_records remote κ k⟩
  constructor
  · intro hrej
    by_contra hwrap
    -- the sum is small, so that the count of the first call for the body is negative
    have hlt : pkg.len < 4294967296 := Buffer.word_lt pkg 4
    have hsum := int32_wrapped (n := pkg.len) hlt (not_lt.1 hwrap)
    have hbad : ¬ remote.BadLen (int32 (sizeofHead + pkg.len)) := by
      rw [hsum]
      simp only [BadLen, sizeT, bufSize, sizeofHead] at *
      omega
    have hcount := (hrej.inside _ (requests_body h hbad)).2.1
    rw [hsum] at hcount
    simp only [sizeofHead] at hcount hwrap
    omega
  · intro hsum
    have hiff := remote_badLen_iff hsum
    refine ⟨⟨fun href => ?_, fun hlen => refuses_of_badLen hκ h (hiff.2 hlen)⟩, fun r hr => ?_⟩
    · obtain ⟨fuel, l', q, hret⟩ := href.returns
      obtain ⟨hhead, hbad⟩ := badLen_of_returns hret
      obtain ⟨-, rfl⟩ := h.unique hhead
      exact hiff.1 hbad
    · rcases Requests.cases h hr with ⟨n, off, q, l', hrounds, rfl⟩ | ⟨hgood, n, off, q, l', hrounds, rfl⟩
      · obtain ⟨hoff, hcount, hend⟩ := head_within hκ hrounds
        exact ⟨hoff, hcount.le, hend.trans (by decide)⟩
      · exact body_inside hκ (not_lt.1 fun hlen => hgood (hiff.2 hlen)) hrounds

/-- The head of a frame that is announced to have `len` bytes. -/
def headOf (len : ℕ) : List UInt8 :=
  Buffer.wordBytes PkgCmdType.streamDataNtf.code ++ Buffer.wordBytes len ++ Buffer.wordBytes 6

theorem atMost_recv_le (m i n : ℕ) : (Kernel.atMost m).recv i n ≤ n := by
  simp only [Kernel.atMost]
  omega

theorem rejects_oversize_1401 :
    (RejectsOversize (.atMost 5) ⟨headOf 1401, [], 0, []⟩ (filled (headOf 1401)).len ↔
      (filled (headOf 1401)).len + sizeofHead < 2 ^ 32) ∧
    remote.Records (.atMost 5) ⟨headOf 1401, [], 0, []⟩ := by
  obtain ⟨l, hl⟩ := headReceived_of_input (k := ⟨headOf 1401, [], 0, []⟩)
    (Kernel.atMost_progresses (m := 5) (by decide)).recv (by decide)
  exact rejects_oversize_iff (atMost_recv_le 5) hl

/-- The head announces `2 ^ 32 - 1` bytes: with the head that makes 11, which is not too large, and
the count of the next call is -1. -/
theorem oversize_not_rejected : ¬ ∀ (κ : Kernel) k l pkg, (∀ i n : ℕ, κ.recv i n ≤ n) →
    HeadReceived κ k l pkg → RejectsOversize κ k pkg.len := by
  intro h
  obtain ⟨l, hl⟩ := headReceived_of_input (k := ⟨headOf (2 ^ 32 - 1), [], 0, []⟩)
    (Kernel.atMost_progresses (m := 5) (by decide)).recv (by decide)
  have hrej := h (.atMost 5) _ l _ (atMost_recv_le 5) hl
  exact absurd (hrej.inside _ (requests_body hl (by decide +kernel))).2.1 (by decide +kernel)

/-- A program that does not test the length asks for a body that is too large, and does not refuse
it. -/
theorem overruns (hhead : HeadReceived κ k l pkg)
    (hgood : ¬ x.BadLen (int32 (sizeofHead + pkg.len)))
    (hlarge : sizeofPkg < int32 (sizeofHead + pkg.len)) :
    (∀ code, ¬ x.Refuses κ k code) ∧ ∃ r, x.Requests κ k r ∧ sizeofPkg < r.1 + r.2 := by
  refine ⟨fun code h => hgood (h.badLen hhead ?_), _, requests_body hhead hgood, ?_⟩
  · simp only [sizeofPkg, sizeofHead] at *
    omega
  · show (sizeofPkg : ℤ) < sizeofHead + (int32 (sizeofHead + pkg.len) - sizeofHead)
    omega

/-- A head announces more than fits, but not so much that the length is no `int`: `remote.cpp`
refuses it, and the other two ask for bytes past the packet, in calls that they make. -/
theorem oversize_refused (hκ : ∀ i n, κ.recv i n ≤ n) (hpos : ∀ i n, 0 < n → 1 ≤ κ.recv i n)
    (hin : sizeofHead ≤ k.input.length) (hp : p = filled (k.input.take sizeofHead))
    (hbig : bufSize < p.len) (hlt : p.len ≤ 2 ^ 31 - 13) :
    remote.Refuses κ k (-2) ∧ (∀ x : Reader, x.Records κ k) ∧ ∀ x, x ≠ remote →
      (∀ code, ¬ x.Refuses κ k code) ∧ ∃ r, x.Requests κ k r ∧ sizeofPkg < r.1 + r.2 := by
  obtain ⟨l, hhead⟩ := headReceived_of_input (fun i n h => ⟨hpos i n h, hκ i n⟩) hin
  rw [← hp] at hhead
  have hlen : p.len + sizeofHead < 2 ^ 32 := by
    simp only [sizeofHead]
    omega
  have hsum : int32 ((sizeofHead : ℤ) + p.len) = ((sizeofHead + p.len : ℕ) : ℤ) := by
    rw [← Nat.cast_add]
    apply int32_natCast
    simp only [sizeofHead]
    omega
  have hlarge : (sizeofPkg : ℤ) < int32 (sizeofHead + p.len) := by
    rw [hsum]
    simp only [bufSize, sizeofPkg, sizeofHead] at *
    omega
  refine ⟨refuses_of_badLen hκ hhead ((remote_badLen_iff hlen).2 hbig),
    fun x => recvPkg_records x κ k, fun x hx => ?_⟩
  cases x with
  | remote => exact absurd rfl hx
  | raspi => exact overruns hhead id hlarge
  | client => exact overruns hhead id hlarge

theorem oversize_refused_1401 : remote.Refuses (.atMost 5) ⟨headOf 1401, [], 0, []⟩ (-2) ∧
    (∀ x : Reader, x.Records (.atMost 5) ⟨headOf 1401, [], 0, []⟩) ∧
    ∀ x, x ≠ remote → (∀ code, ¬ x.Refuses (.atMost 5) ⟨headOf 1401, [], 0, []⟩ code) ∧
      ∃ r, x.Requests (.atMost 5) ⟨headOf 1401, [], 0, []⟩ r ∧ sizeofPkg < r.1 + r.2 :=
  oversize_refused (p := filled (headOf 1401)) (atMost_recv_le 5)
    (fun i n hn => ((Kernel.atMost_progresses (by decide)).recv i n hn).1) (by decide) rfl
    (by decide +kernel) (by decide +kernel)

/-- The head announces 1401 bytes. -/
theorem oversize_not_refused : ¬ ∀ (x : Reader) (κ : Kernel) k p, (∀ i n : ℕ, κ.recv i n ≤ n) →
    (∀ i n : ℕ, 0 < n → 1 ≤ κ.recv i n) → sizeofHead ≤ k.input.length →
    p = filled (k.input.take sizeofHead) → bufSize < p.len → p.len ≤ 2 ^ 31 - 13 →
    ∃ code, x.Refuses κ k code := by
  intro h
  obtain ⟨l, hl⟩ := headReceived_of_input (k := ⟨headOf 1401, [], 0, []⟩)
    (Kernel.atMost_progresses (m := 5) (by decide)).recv (by decide)
  obtain ⟨code, href⟩ := h raspi (.atMost 5) ⟨headOf 1401, [], 0, []⟩ _ (atMost_recv_le 5)
    (fun i n hn => ((Kernel.atMost_progresses (by decide)).recv i n hn).1) (by decide) rfl
    (by decide +kernel) (by decide +kernel)
  exact href.badLen hl (by decide +kernel)

/-! ## Frames -/

/-- A length that fits is not bad. -/
theorem not_badLen (hp : p.len ≤ bufSize) : ¬ x.BadLen p.total := by
  have htotal := total_le hp
  cases x with
  | remote =>
    rw [BadLen, sizeT_natCast (show p.total < 2 ^ 64 by simp only [sizeofPkg] at htotal; omega)]
    simp only [total]
    omega
  | raspi => exact id
  | client => exact id

/-- `recv_pkg` gets a frame that has a body and fits. -/
theorem recvPkg_gotTo (hκ : ∀ i n, 0 < n → 1 ≤ κ.recv i n ∧ κ.recv i n ≤ n) (hpos : 0 < p.len)
    (hp : p.len ≤ bufSize) (hin : k.input = p.frame ++ rest) (hfuel : sizeofPkg < fuel) :
    ∃ l, x.recvPkg κ fuel k = some (l, filled p.frame, 0) ∧ Remote.GotTo k l p.frame := by
  have htotal := total_le hp
  have hlen : k.input.length = p.total + rest.length := by
    rw [hin, List.length_append, length_frame]
  have hhead : k.input.take sizeofHead = p.frame.take sizeofHead := by
    rw [hin, List.take_append_of_le_length (by rw [length_frame]; exact p.twelve_le_total)]
  have hframe : k.input.take p.total = p.frame := by
    rw [hin, ← length_frame, List.take_left]
  -- the first loop gets the head, and the second the rest
  obtain ⟨l, hl, hgot⟩ := Remote.recvLoop_gotTo (n := sizeofHead) hκ (.refl k) (by decide)
    (by decide) (by rw [hlen]; exact p.twelve_le_total.trans (Nat.le_add_right _ _)) hfuel
  rw [hhead] at hl hgot
  have hgl : (p.frame.take sizeofHead).length = sizeofHead := by
    rw [List.length_take, length_frame]
    exact Nat.min_eq_left p.twelve_le_total
  obtain ⟨l', hl', hgot'⟩ := Remote.recvLoop_gotTo (n := p.total) hκ hgot
    (by rw [hgl, total]; omega) htotal (by omega) hfuel
  rw [hgl, hframe] at hl'
  rw [hframe] at hgot'
  refine ⟨l', ?_, hgot'⟩
  have hstart : Loop.run (recvRound κ sizeofHead) fuel (0, construct, k) =
      some (l, filled (p.frame.take sizeofHead), true) := by
    rw [← filled_nil]
    exact hl
  rw [recvPkg_eq]
  simp only [hstart, len_filled_head hp, int32_head hp, hl']
  exact if_neg (not_badLen hp)

/-- `recv_pkg` fails on a frame without a body: its second loop asks for no byte, and gets none. -/
theorem recvPkg_of_empty (hκ : ∀ i n, 0 < n → 1 ≤ κ.recv i n ∧ κ.recv i n ≤ n)
    (hzero : ∀ i, κ.recv i 0 ≤ 0) (hp : p.len = 0) (hin : k.input = p.frame ++ rest)
    (hfuel : sizeofPkg < fuel) : ∃ l q, x.recvPkg κ fuel k = some (l, q, -1) := by
  have hle : p.len ≤ bufSize := by omega
  have htotal : p.total = sizeofHead := by rw [total, hp, Nat.zero_add]
  have hlen : sizeofHead ≤ k.input.length := by
    rw [hin, List.length_append, length_frame, htotal]
    omega
  obtain ⟨l, hl, -⟩ := Remote.recvLoop_gotTo (n := sizeofHead) hκ (.refl k) (by decide) (by decide)
    hlen hfuel
  have htake : k.input.take sizeofHead = p.frame := by
    rw [hin, ← htotal, ← length_frame, List.take_left]
  rw [htake] at hl
  have hstart : Loop.run (recvRound κ sizeofHead) fuel (0, construct, k) =
      some (l, filled p.frame, true) := by
    rw [← filled_nil]
    exact hl
  have hround : ∃ l' q, recvRound κ p.total (sizeofHead, filled p.frame, l) =
      some (.inr (l', q, false)) := by
    rw [htotal]
    exact recvRound_of_zero (hzero l.calls) sizeofHead (filled p.frame)
  obtain ⟨l', q, hround⟩ := hround
  obtain ⟨m, rfl⟩ := Nat.exists_eq_add_of_lt hfuel
  refine ⟨l', q, ?_⟩
  rw [recvPkg_eq]
  simp only [hstart, len_filled_frame hle, int32_head hle, Loop.run_of_inr hround]
  exact if_neg (not_badLen hle)

/-- `recv_pkg` returns 0 with the packet `p` and leaves `rest`. -/
def Accepts (x : Reader) (κ : Kernel) (fuel : ℕ) (k : Socket) (p : Pkg) (rest : List UInt8) : Prop :=
  ∃ l, x.recvPkg κ fuel k = some (l, filled p.frame, 0) ∧ l.input = rest

/-- Each of the three programs accepts a frame that the server relays, however `recv` cuts it, if
and only if it has a body. -/
theorem accepts_iff (hκ : ∀ i n, 0 < n → 1 ≤ κ.recv i n ∧ κ.recv i n ≤ n)
    (hzero : ∀ i, κ.recv i 0 ≤ 0) (hp : p.len ≤ bufSize) (hin : k.input = p.frame ++ rest)
    (hfuel : sizeofPkg < fuel) : x.Accepts κ fuel k p rest ↔ 0 < p.len := by
  constructor
  · rintro ⟨l, hl, -⟩
    by_contra hpos
    obtain ⟨l', q, hfail⟩ := recvPkg_of_empty (x := x) hκ hzero (Nat.eq_zero_of_not_pos hpos) hin
      hfuel
    cases hl.symm.trans hfail
  · intro hpos
    obtain ⟨l, hl, hgot⟩ := recvPkg_gotTo (x := x) hκ hpos hp hin hfuel
    exact ⟨l, hl, (List.append_cancel_left (hin.symm.trans hgot.input)).symm⟩

/-- A frame without a body, for the connection under the descriptor 6. -/
def emptyFrame : Pkg := (construct.setCmd .streamDataNtf).setFd 6

theorem accepts_inPieces : remote.Accepts (.atMost 5) 1500
    ⟨(emptyFrame.setLen 7).frame ++ [1], [], 0, []⟩ (emptyFrame.setLen 7) [1] ↔
      0 < (emptyFrame.setLen 7).len :=
  accepts_iff (Kernel.atMost_progresses (by decide)).recv (fun i => atMost_recv_le 5 i 0)
    (by decide +kernel) rfl (by decide)

theorem empty_not_accepted : ¬ ∀ (x : Reader) (κ : Kernel) fuel k p rest,
    (∀ i n : ℕ, 0 < n → 1 ≤ κ.recv i n ∧ κ.recv i n ≤ n) → (∀ i, κ.recv i 0 ≤ 0) →
    p.len ≤ bufSize → k.input = p.frame ++ rest → sizeofPkg < fuel →
    x.Accepts κ fuel k p rest := by
  intro h
  have hrecv := (Kernel.atMost_progresses (m := 5) (by decide)).recv
  obtain ⟨l, hl, -⟩ := h remote (.atMost 5) 1500 ⟨emptyFrame.frame ++ [], [], 0, []⟩ emptyFrame []
    hrecv (fun i => atMost_recv_le 5 i 0) (by decide +kernel) rfl (by decide)
  have hempty : emptyFrame.len = 0 := by decide +kernel
  obtain ⟨l', q, hfail⟩ := recvPkg_of_empty (x := remote) hrecv (fun i => atMost_recv_le 5 i 0) hempty
    (show Socket.input ⟨emptyFrame.frame ++ [], [], 0, []⟩ = emptyFrame.frame ++ [] from rfl)
    (show sizeofPkg < 1500 by decide)
  cases hl.symm.trans hfail

end Reader
end WawaServer
