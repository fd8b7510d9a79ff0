import WawaServer.Clients.Raspi
import WawaServer.Clients.Remote
import WawaServer.Receive

/-!
# Sending one packet

The loops of the three `send_pkg`. In `raspi.cpp` and `client.cpp` each call of `send` asks for the
rest of the frame, and the frame is sent however the calls cut it. In `remote.cpp` each call asks
for the whole length again, so that the loop is right only if it ends in its first round.
-/

namespace WawaServer

open Pkg

variable {κ : Kernel} {fuel n : ℕ} {k l : Socket} {p : Pkg}

theorem int32_natCast (h : n < 2 ^ 31) : int32 n = n := by
  simp only [int32, Int.bmod]
  omega

theorem sizeT_natCast (hn : n < 2 ^ 64) : sizeT n = n := by
  unfold sizeT
  omega

theorem sizeT_sub {m : ℕ} (hmn : m ≤ n) (hn : n < 2 ^ 64) : sizeT ((n : ℤ) - m) = n - m := by
  unfold sizeT
  omega

/-- The offset and the count of a call lie inside the first `n` bytes. -/
def Within (n : ℕ) (r : ℤ × ℤ) : Prop := 0 ≤ r.1 ∧ 0 < r.2 ∧ r.1 + r.2 ≤ n

/-- The length of the frame of a packet that fits is no larger as an `int`. -/
theorem int32_total (hp : p.len ≤ bufSize) : int32 ((p.len : ℤ) + sizeofHead) = p.total := by
  have htotal := total_le hp
  exact int32_natCast (show p.total < 2 ^ 31 by simp only [sizeofPkg] at htotal; omega)

/-! ## `send_pkg` -/

namespace Raspi

/-- From `k` to `l` the first `n` bytes of `p` were sent. -/
structure SentTo (k l : Socket) (p : Pkg) (n : ℕ) : Prop where
  output : l.output = k.output ++ Buffer.slice p 0 n
  input : l.input = k.input
  requests : ∃ rs, l.requests = k.requests ++ rs ∧ ∀ r ∈ rs, Within p.total r

theorem SentTo.refl (k : Socket) (p : Pkg) : SentTo k k p 0 where
  output := by rw [Buffer.slice_zero_length, List.append_nil]
  input := rfl
  requests := ⟨[], by simp⟩

theorem SentTo.send (hκ : ∀ i n, 0 < n → 1 ≤ κ.send i n ∧ κ.send i n ≤ n) (h : SentTo k l p n)
    (hn : n < p.total) (hp : p.total ≤ sizeofPkg) : ∃ m l', 0 < m ∧ n + m ≤ p.total ∧
      l.send κ p n (p.total - n) = (l', (m : ℤ)) ∧ SentTo k l' p (n + m) := by
  -- the count does not wrap, because the offset is inside the frame
  have hcount := sizeT_sub hn.le (show p.total < 2 ^ 64 by simp only [sizeofPkg] at hp; omega)
  obtain ⟨hpos, hle⟩ := hκ l.calls (p.total - n) (by omega)
  obtain ⟨m, hm⟩ := Int.eq_ofNat_of_zero_le (by omega : 0 ≤ κ.send l.calls (p.total - n))
  have hsend : l.send κ p n (p.total - n) = ({ l with
      output := l.output ++ Buffer.slice p n m
      calls := l.calls + 1
      requests := l.requests ++ [((n : ℤ), (p.total : ℤ) - n)] }, (m : ℤ)) := by
    simp only [Socket.send, hcount, hm, Int.toNat_natCast]
  refine ⟨m, _, by omega, by omega, hsend, ?_, h.input, ?_⟩
  · simp only [h.output, List.append_assoc, slice_zero_add]
  · obtain ⟨rs, hrs, hin⟩ := h.requests
    refine ⟨rs ++ [((n : ℤ), (p.total : ℤ) - n)], by simp [hrs], ?_⟩
    simp only [List.mem_append, List.mem_singleton]
    rintro r (hr | rfl)
    · exact hin r hr
    · exact ⟨by omega, by omega, by omega⟩

/-- `send_pkg` sends the frame of a packet that fits. -/
theorem sendPkg_sent (hκ : ∀ i n, 0 < n → 1 ≤ κ.send i n ∧ κ.send i n ≤ n) (hp : p.len ≤ bufSize)
    (hfuel : sizeofPkg < fuel) (k : Socket) :
    ∃ l, sendPkg κ fuel k p = some (l, 0) ∧ SentTo k l p p.total := by
  have htotal := total_le hp
  -- each round sends at least a byte, so that the rest of the frame bounds the rounds
  have hrun := Loop.run_total (sendRound κ p p.total) (s := (0, k)) (n := fuel)
    (fun st => ∃ n : ℕ, st.1 = n ∧ n < p.total ∧ SentTo k st.2 p n)
    (fun r => r.2 = 0 ∧ SentTo k r.1 p p.total) (fun st => p.total - st.1.toNat) ?_
    ⟨0, rfl, p.total_pos, .refl k p⟩ (by simp; omega)
  · obtain ⟨⟨l, r⟩, hr, rfl, hl⟩ := hrun
    refine ⟨l, ?_, hl⟩
    rw [sendPkg, int32_total hp]
    exact hr
  · rintro ⟨-, l⟩ ⟨n, rfl, hn, h⟩
    obtain ⟨m, l', hm, hle, hsend, h'⟩ := h.send hκ hn htotal
    simp only [sendRound, hsend]
    rw [if_pos (by omega)]
    by_cases hend : n + m = p.total
    · refine .inr ⟨(l', 0), ?_, rfl, hend ▸ h'⟩
      rw [if_pos (by omega)]
    · refine .inl ⟨((n : ℤ) + m, l'), ?_, ⟨n + m, by simp, by omega, h'⟩, ?_⟩
      · rw [if_neg (by omega)]
      · show p.total - ((n : ℤ) + m).toNat < p.total - (n : ℤ).toNat
        omega

end Raspi

/-- `send_pkg` returned 0 after it sent the frame of `p`, and asked for nothing outside of it. -/
def FrameSent (k : Socket) (p : Pkg) (r : Option (Socket × ℤ)) : Prop :=
  ∃ l, r = some (l, 0) ∧ Raspi.SentTo k l p p.total

theorem Client.sendPkg_eq (κ : Kernel) (fuel : ℕ) (k : Socket) (p : Pkg) :
    Client.sendPkg κ fuel k p = Raspi.sendPkg κ fuel k p := rfl

namespace Remote

/-- Some call of `send` after `k` asked for bytes that are not in the frame. -/
def Overreads (k l : Socket) (p : Pkg) : Prop :=
  ∃ rs, l.requests = k.requests ++ rs ∧ ∃ r ∈ rs, ¬ Within p.total r

/-- A round that does not start at the head of the frame reads past its end. -/
theorem send_overreads {off : ℤ} (hoff : 0 < off) (hl : ∃ rs, l.requests = k.requests ++ rs) :
    Overreads k (l.send κ p off p.total).1 p := by
  obtain ⟨rs, hrs⟩ := hl
  refine ⟨rs ++ [(off, (p.total : ℤ))], by simp [Socket.send, hrs], (off, (p.total : ℤ)), by simp,
    ?_⟩
  rintro ⟨-, -, hend⟩
  simp only at hend
  omega

/-- After a first call of `send` that accepted only part of the frame, `send_pkg` never returns
without having read past the end of it. -/
theorem sendLoop_overreads {off : ℤ} (hoff : 0 < off) (hl : ∃ rs, l.requests = k.requests ++ rs)
    {r : Socket × ℤ} (h : Loop.run (sendRound κ p p.total) n (off, l) = some r) :
    Overreads k r.1 p := by
  refine Loop.run_keeps (fun st => 0 < st.1 ∧ ∃ rs, st.2.requests = k.requests ++ rs)
    (fun r => Overreads k r.1 p) ?_ ?_ ⟨hoff, hl⟩ h
  · rintro ⟨off, l⟩ t ⟨hoff, hl⟩ ht
    obtain ⟨rs, hrs, -⟩ := send_overreads (κ := κ) (p := p) hoff hl
    simp only [sendRound] at ht
    split at ht
    · rename_i hs
      split at ht
      · cases ht
      · cases ht
        exact ⟨by omega, rs, hrs⟩
    · cases ht
  · rintro ⟨off, l⟩ r ⟨hoff, hl⟩ hr
    have hover := send_overreads (κ := κ) (p := p) hoff hl
    simp only [sendRound] at hr
    split at hr
    · split at hr
      · cases hr
        exact hover
      · cases hr
    · cases hr
      exact hover

theorem Overreads.not_sentTo (h : Overreads k l p) : ¬ Raspi.SentTo k l p n := by
  intro hsent
  obtain ⟨rs, hrs, r, hr, hover⟩ := h
  obtain ⟨rs', hrs', hin⟩ := hsent.requests
  obtain rfl : rs = rs' := List.append_cancel_left (hrs.symm.trans hrs')
  exact hover (hin r hr)

/-- A first call that accepts the whole frame ends the loop. -/
theorem sendPkg_of_whole (hp : p.len ≤ bufSize) (hfuel : 0 < fuel)
    (hwhole : κ.send k.calls p.total = p.total) : FrameSent k p (sendPkg κ fuel k p) := by
  have htotal := total_le hp
  have hcount : sizeT p.total = p.total :=
    sizeT_natCast (show p.total < 2 ^ 64 by simp only [sizeofPkg] at htotal; omega)
  have hround : sendRound κ p p.total (0, k) = some (.inr ({ k with
      output := k.output ++ Buffer.slice p 0 p.total
      calls := k.calls + 1
      requests := k.requests ++ [(0, (p.total : ℤ))] }, 0)) := by
    simp only [sendRound, Socket.send, hcount, hwhole, Int.toNat_natCast, Int.toNat_zero]
    rw [if_pos (Int.natCast_nonneg _), if_pos (Int.zero_add _)]
  obtain ⟨m, rfl⟩ := Nat.exists_eq_succ_of_ne_zero hfuel.ne'
  refine ⟨_, (congrArg (fun len => Loop.run (sendRound κ p len) (m + 1) (0, k))
    (int32_total hp)).trans (Loop.run_of_inr hround m), rfl, rfl, _, rfl, ?_⟩
  intro r hr
  obtain rfl := List.mem_singleton.1 hr
  exact ⟨le_rfl, by have := p.total_pos; simp only; omega, by simp⟩

/-- A first call that accepts part of the frame spoils it. -/
theorem sendPkg_of_part (hp : p.len ≤ bufSize) (hpos : 0 < κ.send k.calls p.total)
    (hpart : κ.send k.calls p.total ≠ p.total) : ¬ FrameSent k p (sendPkg κ fuel k p) := by
  have htotal := total_le hp
  have hcount : sizeT p.total = p.total :=
    sizeT_natCast (show p.total < 2 ^ 64 by simp only [sizeofPkg] at htotal; omega)
  rintro ⟨l, hl, hsent⟩
  have hround : sendRound κ p p.total (0, k) =
      some (.inl (κ.send k.calls p.total, (k.send κ p 0 p.total).1)) := by
    simp only [sendRound, Socket.send, hcount]
    rw [if_pos hpos.le, if_neg (by omega), Int.zero_add]
  cases fuel with
  | zero => cases hl
  | succ m =>
    rw [sendPkg, int32_total hp, Loop.run_of_inl hround] at hl
    exact (sendLoop_overreads hpos ⟨_, rfl⟩ hl).not_sentTo hsent

/-- On one schedule of `send`, the loops of `raspi.cpp` and `client.cpp` send the frame, and the one
of `remote.cpp` sends it if and only if the first call accepts all of it. -/
theorem sendPkg_sent_iff (hκ : ∀ i n, 0 < n → 1 ≤ κ.send i n ∧ κ.send i n ≤ n)
    (hp : p.len ≤ bufSize) (hfuel : sizeofPkg < fuel) (k : Socket) :
    FrameSent k p (Raspi.sendPkg κ fuel k p) ∧ FrameSent k p (Client.sendPkg κ fuel k p) ∧
      (FrameSent k p (sendPkg κ fuel k p) ↔ κ.send k.calls p.total = p.total) := by
  have hraspi : FrameSent k p (Raspi.sendPkg κ fuel k p) := Raspi.sendPkg_sent hκ hp hfuel k
  refine ⟨hraspi, (Client.sendPkg_eq κ fuel k p).symm ▸ hraspi, fun h => ?_,
    sendPkg_of_whole hp (Nat.zero_lt_of_lt hfuel)⟩
  by_contra hpart
  have hpos := (hκ k.calls p.total p.total_pos).1
  exact sendPkg_of_part hp (by omega) hpart h

end Remote

/-- At most `m` bytes move in a call. -/
def Kernel.atMost (m : ℕ) : Kernel where
  send _ n := min m n
  recv _ n := min m n
  write _ n := n

theorem Kernel.atMost_progresses {m : ℕ} (h : 0 < m) : (Kernel.atMost m).Progresses where
  send _ n hn := by
    simp only [Kernel.atMost]
    omega
  recv _ n hn := by
    simp only [Kernel.atMost]
    omega
  write _ _ := rfl

namespace Remote

/-- The register request of `remote.cpp`. -/
def registerReq : Pkg := ((Pkg.construct.setCmd .registerClientReq).setLen sizeofInt).setReserve 1

theorem sendPkg_sent_registerReq :
    FrameSent ⟨[], [], 0, []⟩ registerReq
        (Raspi.sendPkg (.atMost 10) 1500 ⟨[], [], 0, []⟩ registerReq) ∧
      FrameSent ⟨[], [], 0, []⟩ registerReq
        (Client.sendPkg (.atMost 10) 1500 ⟨[], [], 0, []⟩ registerReq) ∧
      (FrameSent ⟨[], [], 0, []⟩ registerReq
        (sendPkg (.atMost 10) 1500 ⟨[], [], 0, []⟩ registerReq) ↔
        (Kernel.atMost 10).send 0 registerReq.total = registerReq.total) :=
  sendPkg_sent_iff (Kernel.atMost_progresses (by decide)).send (by decide +kernel) (by decide) _

/-- Of the 16 bytes of a register request `send` accepts 10: the next call asks for 16 bytes again,
and `byte_sent` skips the length. -/
theorem sendPkg_unsent : (∀ i n, 0 < n → 1 ≤ (Kernel.atMost 10).send i n ∧
      (Kernel.atMost 10).send i n ≤ n) ∧ registerReq.len ≤ bufSize ∧
    ∀ fuel, ¬ FrameSent ⟨[], [], 0, []⟩ registerReq
      (sendPkg (.atMost 10) fuel ⟨[], [], 0, []⟩ registerReq) :=
  ⟨(Kernel.atMost_progresses (by decide)).send, by decide +kernel, fun _ =>
    sendPkg_of_part (by decide +kernel) (by decide +kernel) (by decide +kernel)⟩

end Remote
end WawaServer
