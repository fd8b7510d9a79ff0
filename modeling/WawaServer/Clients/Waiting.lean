import WawaServer.Clients.Video

/-!
# A part of the packets has arrived

A client that calls `recv_pkg` in a loop takes the packets that have arrived whole, one in each
round, and waits for the rest of the next one, wherever the stream is cut.
-/

namespace WawaServer

open Pkg
open Remote (recvRound)

variable {κ : Kernel} {fuel n : ℕ} {k l : Socket} {p : Pkg} {ps : List Pkg} {x : Reader}

/-- A loop of `recv_pkg` that needs more bytes than there are waits. -/
theorem Remote.recvLoop_waits (hκ : ∀ i n, 0 < n → 1 ≤ κ.recv i n ∧ κ.recv i n ≤ n) {off : ℕ}
    {pkg : Pkg} (hn : n ≤ sizeofPkg) (hin : off + k.input.length < n) (fuel : ℕ) :
    Loop.run (recvRound κ n) fuel ((off : ℤ), pkg, k) = none := by
  -- a byte that is read moves from the input to the offset
  refine Loop.run_eq_none_of_keeps (fun st : ℤ × Pkg × Socket =>
    ∃ off : ℕ, st.1 = (off : ℤ) ∧ off + st.2.2.input.length < n) ?_ ⟨off, rfl, hin⟩ fuel
  rintro ⟨-, pkg, l⟩ ⟨off, rfl, hlt⟩
  simp only at hlt
  have hcount := sizeT_sub (show off ≤ n by omega) (show n < 2 ^ 64 by
    simp only [sizeofPkg] at hn
    omega)
  obtain ⟨hpos, hle⟩ := hκ l.calls (n - off) (by omega)
  obtain ⟨m, hm⟩ := Int.eq_ofNat_of_zero_le (by omega : 0 ≤ κ.recv l.calls (n - off))
  by_cases hmore : l.input.length < m
  · left
    simp only [recvRound, Socket.recv, hcount, hm, Int.toNat_natCast, if_pos hmore]
  · right
    simp only [recvRound, Socket.recv, hcount, hm, Int.toNat_natCast, if_neg hmore]
    rw [if_pos (by omega), if_neg (by omega)]
    refine ⟨_, rfl, off + m, by simp, ?_⟩
    simp only [List.length_drop]
    omega

namespace Reader

/-- `recv_pkg` waits for the rest of a packet. -/
theorem recvPkg_waits (hκ : ∀ i n, 0 < n → 1 ≤ κ.recv i n ∧ κ.recv i n ≤ n) (hp : p.len ≤ bufSize)
    (hin : k.input <+: p.frame) (hlt : k.input.length < p.total) (hfuel : sizeofPkg < fuel) :
    x.recvPkg κ fuel k = none := by
  rw [recvPkg_eq]
  by_cases hhead : k.input.length < sizeofHead
  · -- the head is not complete
    have hwait : Loop.run (recvRound κ sizeofHead) fuel (((0 : ℕ) : ℤ), construct, k) = none :=
      Remote.recvLoop_waits hκ (by decide) (by omega) fuel
    rw [Nat.cast_zero] at hwait
    rw [hwait]
  · obtain ⟨l, hl, hgot⟩ := Remote.recvLoop_gotTo (n := sizeofHead) hκ (.refl k) (by decide)
      (by decide) (not_lt.1 hhead) hfuel
    have htake : k.input.take sizeofHead = p.frame.take sizeofHead := by
      obtain ⟨rest, hrest⟩ := hin
      rw [← hrest, List.take_append_of_le_length (not_lt.1 hhead)]
    have hstart : Loop.run (recvRound κ sizeofHead) fuel (0, construct, k) =
        some (l, filled (p.frame.take sizeofHead), true) := by
      rw [← filled_nil, ← htake]
      exact hl
    have hlen : k.input.length = sizeofHead + l.input.length := by
      have hsum := congrArg List.length hgot.input
      rw [List.length_append, List.length_take] at hsum
      omega
    simp only [hstart, len_filled_head hp, int32_head hp]
    rw [Remote.recvLoop_waits hκ (total_le hp) (by omega)]
    exact if_neg (not_badLen hp)

/-- Nothing has arrived. -/
theorem recvPkg_waits_nil (hκ : ∀ i n, 0 < n → 1 ≤ κ.recv i n ∧ κ.recv i n ≤ n)
    (hin : k.input = []) (hfuel : sizeofPkg < fuel) : x.recvPkg κ fuel k = none := by
  apply recvPkg_waits (p := construct) hκ
  · rw [len_construct]
    exact Nat.zero_le _
  · rw [hin]
    exact List.nil_prefix
  · rw [hin]
    exact construct.total_pos
  · exact hfuel

/-- A round of a loop that calls `recv_pkg` and goes on as long as that returns 0. The state has the
packets so far. -/
def inboxRound (x : Reader) (κ : Kernel) (fuel : ℕ) :
    Socket × List Pkg → Option ((Socket × List Pkg) ⊕ (Socket × ℤ))
  | (k, pkgs) =>
    match x.recvPkg κ fuel k with
    | none => none
    | some (k, pkg, iRet) => if iRet ≠ 0 then some (.inr (k, iRet)) else some (.inl (k, pkgs ++ [pkg]))

end Reader

namespace Remote

variable {v w : Viewer}

/-- However much of the packets has arrived, the viewer writes those that are complete and waits
for the next one. -/
theorem writeLoop_prefix (v : Viewer) (ps : List Pkg) (hκ : κ.Progresses) (hfuel : sizeofPkg < fuel)
    (hfits : ∀ p ∈ ps, 0 < p.len ∧ p.len ≤ bufSize)
    (hin : v.sock.input <+: (ps.map frame).flatten) :
    ∃ n w, Loop.rounds (writeRound κ fuel) n v = some w ∧ writeRound κ fuel w = none ∧
      w.file = v.file ++ ((ps.take n).map streamData).flatten ∧
      ((ps.map frame).flatten <+: v.sock.input → n = ps.length) := by
  have hwaits : ∀ v : Viewer, Reader.recvPkg .remote κ fuel v.sock = none →
      writeRound κ fuel v = none := by
    intro v hv
    have hrecv : recvPkg κ fuel v.sock = none := hv
    simp only [writeRound, hrecv]
  apply Loop.rounds_of_prefix (writeRound κ fuel) (fun v => v.sock.input) Viewer.file frame
    streamData ps []
  · intro p hp v rest hrest
    obtain ⟨hpos, hlen⟩ := hfits p hp
    exact writeRound_written hκ hpos hlen hrest hfuel
  · intro p hp v hpre hshort
    rw [length_frame] at hshort
    exact hwaits v (Reader.recvPkg_waits hκ.recv (hfits p hp).2 hpre hshort hfuel)
  · intro v hpre
    exact hwaits v (Reader.recvPkg_waits_nil hκ.recv (List.prefix_nil.1 hpre) hfuel)
  · rwa [List.append_nil]

end Remote
end WawaServer
