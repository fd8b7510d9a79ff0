import WawaServer.Clients.Process
import WawaServer.Clients.Video

/-!
# The headers do not arrive

The two loops of `camera_thread` that cut a buffer into packets differ in one `memcpy`. The lengths
are right in both. The stream loop sends the buffer; the header loop copies once more after it has
lowered `byte_left`, and its last packet holds what is in memory after the buffer.
-/

namespace WawaServer
namespace Raspi

open Pkg

variable {κ : Kernel} {fuel n m : ℕ} {c d e : Camera} {pkg p : Pkg} {ps : List Pkg}
  {buf beyond : List UInt8}

/-- From `c` to `e` the buffer `buf` was cut into the packets `ps`. -/
structure Chunked (c e : Camera) (ps : List Pkg) (buf : List UInt8) : Prop where
  pkgs : e.pkgs = c.pkgs ++ ps
  fits : ∀ p ∈ ps, 1 ≤ p.len ∧ p.len ≤ bufSize
  total : (ps.map len).sum = buf.length
  bodies : (ps.map streamData).flatten = buf
  inside : e.overread = false

theorem length_streamData (p : Pkg) : p.streamData.length = p.len := Buffer.length_slice _ _ _

/-- The stream loop cuts a picture into packets. -/
theorem Streamed.chunked (h : Streamed c e ps buf) (hc : c.overread = false) :
    Chunked c e ps buf where
  pkgs := h.pkgs
  fits := h.fits
  total := by
    have hlen : len = List.length ∘ streamData := funext fun p => (length_streamData p).symm
    rw [← h.data, List.length_flatten, List.map_map, hlen]
  bodies := h.data
  inside := h.overread.trans hc

/-! ## One packet of the headers -/

theorem copyHeader_len (c : Camera) (p : Pkg) (off : ℤ) :
    (c.copyHeader p buf beyond off n).2.len = p.len :=
  Buffer.word_write_of_outside _ _ _ (.inl (by decide))

/-- The copy at the end of the buffer reads what is after it. -/
theorem copyHeader_overread (c : Camera) (p : Pkg) (hn : 0 < n) :
    (c.copyHeader p buf beyond (buf.length - (0 : ℕ)) n).1.overread = true := by
  have hend : (buf.length : ℤ) - (0 : ℕ) < 0 ∨
      (buf.length : ℤ) < (buf.length : ℤ) - (0 : ℕ) + n := by omega
  rw [Camera.copyHeader, decide_eq_true hend, Bool.or_true]

/-- The two copies of a packet with `n` bytes, of `m` bytes that are left before it. -/
def copyTwice (c : Camera) (p : Pkg) (buf beyond : List UInt8) (m n : ℕ) : Camera × Pkg :=
  let once := c.copyHeader (p.setLen n) buf beyond (buf.length - m) (p.setLen n).len
  once.1.copyHeader once.2 buf beyond (buf.length - (m - n : ℕ)) once.2.len

theorem copyTwice_len (c : Camera) (p : Pkg) (buf beyond : List UInt8) (hn : n ≤ bufSize) :
    (copyTwice c p buf beyond m n).2.len = n := by
  rw [copyTwice, copyHeader_len, copyHeader_len]
  exact len_setLen (by simp only [bufSize] at hn; omega)

/-- When nothing is left after the packet, the second copy reads what is after the buffer. -/
theorem copyTwice_overread (c : Camera) (p : Pkg) (hpos : 0 < n) (hn : n ≤ bufSize) :
    (copyTwice c p buf beyond n n).1.overread = true := by
  rw [copyTwice, Nat.sub_self]
  apply copyHeader_overread _ _
  rwa [copyHeader_len, len_setLen (by simp only [bufSize] at hn; omega)]

/-- A round after which `send_pkg` has returned 0. -/
theorem headerRound_of_sent (c : Camera) (p : Pkg) (hpos : 0 < m) (hn : n = min m bufSize)
    (hsend : (copyTwice c p buf beyond m n).1.sendPkg κ fuel (copyTwice c p buf beyond m n).2 =
      some (d, 0)) :
    headerRound κ fuel buf beyond (p, m, c) =
      some (.inl ((copyTwice c p buf beyond m n).2, ((m - n : ℕ) : ℤ), d)) := by
  have hpos' : (0 : ℤ) < m := by omega
  by_cases hbig : bufSize ≤ m
  · obtain rfl : n = bufSize := by omega
    have hleft : ((m - bufSize : ℕ) : ℤ) = m - bufSize := by omega
    simp only [copyTwice, hleft] at hsend
    simp only [headerRound, if_pos hpos', if_pos (Int.ofNat_le.2 hbig), hsend, hleft, copyTwice]
    rfl
  · obtain rfl : m = n := by omega
    have hsmall : ¬ ((bufSize : ℤ) ≤ m) := by omega
    simp only [copyTwice, Nat.sub_self, Nat.cast_zero] at hsend
    simp only [headerRound, if_pos hpos', if_neg hsmall, Int.toNat_natCast, hsend, copyTwice,
      Nat.sub_self]
    rfl

/-- The packet is the one that a camera thread of the process sends. -/
theorem copyTwice_nextHeaderChunk (c : Camera) (p : Pkg) (hn : n = min m bufSize) :
    nextHeaderChunk p buf beyond m = ((copyTwice c p buf beyond m n).2, ((m - n : ℕ) : ℤ)) := by
  by_cases hbig : bufSize ≤ m
  · obtain rfl : n = bufSize := by omega
    have hleft : ((m - bufSize : ℕ) : ℤ) = m - bufSize := by omega
    simp only [nextHeaderChunk, nextChunk, if_pos (Int.ofNat_le.2 hbig), copyTwice, hleft]
    rfl
  · obtain rfl : m = n := by omega
    have hsmall : ¬ ((bufSize : ℤ) ≤ m) := by omega
    simp only [nextHeaderChunk, nextChunk, if_neg hsmall, copyTwice, Int.toNat_natCast,
      Nat.sub_self]
    rfl

/-- A round sends a packet, and if it is the last one then what it holds is not from the buffer. -/
theorem headerRound_sent (hκ : ∀ i n, 0 < n → 1 ≤ κ.send i n ∧ κ.send i n ≤ n)
    (hfuel : sizeofPkg < fuel) (buf beyond : List UInt8) (c : Camera) (p : Pkg) (hpos : 0 < m) :
    ∃ pkg e, 0 < pkg.len ∧ pkg.len ≤ m ∧ pkg.len ≤ bufSize ∧
      nextHeaderChunk p buf beyond m = (pkg, ((m - pkg.len : ℕ) : ℤ)) ∧
      headerRound κ fuel buf beyond (p, m, c) = some (.inl (pkg, ((m - pkg.len : ℕ) : ℤ), e)) ∧
      e.pkgs = c.pkgs ++ [pkg] ∧ (pkg.len = m → e.overread = true) := by
  obtain ⟨n, hn⟩ : ∃ n, n = min m bufSize := ⟨_, rfl⟩
  have hle : n ≤ bufSize := hn.le.trans (Nat.min_le_right m bufSize)
  have hlen := copyTwice_len (m := m) c p buf beyond hle
  obtain ⟨l, hsend, -⟩ := Camera.sendPkg_sent hκ hfuel (copyTwice c p buf beyond m n).1
    (p := (copyTwice c p buf beyond m n).2) (by omega)
  refine ⟨(copyTwice c p buf beyond m n).2, { (copyTwice c p buf beyond m n).1 with
    sock := l
    pkgs := c.pkgs ++ [(copyTwice c p buf beyond m n).2] }, ?_, ?_, ?_, ?_, ?_, rfl, ?_⟩
  · simp only [bufSize] at hn
    omega
  · omega
  · omega
  · rw [hlen]
    exact copyTwice_nextHeaderChunk c p hn
  · rw [hlen]
    exact headerRound_of_sent c p hpos hn hsend
  · intro hlast
    obtain rfl : n = m := by omega
    exact copyTwice_overread c p hpos hle

/-! ## The whole loop -/

/-- From `c` to `e` the packets `ps` were sent for `n` bytes of a buffer. -/
structure Sized (c e : Camera) (ps : List Pkg) (n : ℕ) : Prop where
  pkgs : e.pkgs = c.pkgs ++ ps
  fits : ∀ p ∈ ps, 1 ≤ p.len ∧ p.len ≤ bufSize
  total : (ps.map len).sum = n

theorem Sized.snoc (h : Sized c d ps n) (hpkgs : e.pkgs = d.pkgs ++ [p]) (hpos : 0 < p.len)
    (hp : p.len ≤ bufSize) : Sized c e (ps ++ [p]) (n + p.len) where
  pkgs := by rw [hpkgs, h.pkgs, List.append_assoc]
  fits q hq := by
    rcases List.mem_append.1 hq with hq | hq
    · exact h.fits q hq
    · obtain rfl := List.mem_singleton.1 hq
      exact ⟨hpos, hp⟩
  total := by simp [h.total]

/-- The header loop ends with packets of the right lengths, and has read past the buffer. -/
theorem headerLoop_overreads (hκ : ∀ i n, 0 < n → 1 ≤ κ.send i n ∧ κ.send i n ≤ n)
    (hfuel : sizeofPkg < fuel) (beyond : List UInt8) (hbuf : buf.length < fuel)
    (hpos : 0 < buf.length) (c : Camera) :
    ∃ e ps, headerLoop κ fuel c buf beyond = some (e, true) ∧ Sized c e ps buf.length ∧
      e.overread = true := by
  -- the invariant: packets were sent for all but `m` bytes, and the last one is an overread
  have hrun := Loop.run_total (headerRound κ fuel buf beyond) (n := fuel)
    (s := (construct.setCmd .streamDataNtf, (buf.length : ℤ), c))
    (fun st => ∃ (m : ℕ) (ps : List Pkg), st.2.1 = m ∧ m ≤ buf.length ∧
      Sized c st.2.2 ps (buf.length - m) ∧ (m = 0 → st.2.2.overread = true))
    (fun r => r.2 = true ∧ (∃ ps, Sized c r.1 ps buf.length) ∧ r.1.overread = true)
    (fun st => st.2.1.toNat) ?_
    ⟨buf.length, [], rfl, le_rfl, ⟨by simp, by simp, by simp⟩, by omega⟩ (by simpa using hbuf)
  · obtain ⟨⟨e, r⟩, hr, rfl, ⟨ps, h⟩, hover⟩ := hrun
    exact ⟨e, ps, hr, h, hover⟩
  · rintro ⟨pkg, -, d⟩ ⟨m, ps, rfl, hm, h, hover⟩
    rcases Nat.eq_zero_or_pos m with rfl | hleft
    · exact .inr ⟨(d, true), by simp [headerRound], rfl, ⟨ps, h⟩, hover rfl⟩
    · obtain ⟨p, e, hp, hpm, hfits, -, hround, hpkgs, hlast⟩ :=
        headerRound_sent hκ hfuel buf beyond d pkg hleft
      refine .inl ⟨_, hround, ⟨m - p.len, ps ++ [p], rfl, by omega, ?_, fun hnone => hlast (by omega)⟩,
        ?_⟩
      · have hsum : buf.length - (m - p.len) = buf.length - m + p.len := by omega
        rw [hsum]
        exact h.snoc hpkgs hp hfits
      · show ((m - p.len : ℕ) : ℤ).toNat < (m : ℤ).toNat
        omega

/-- However `send` cuts the packets, the header loop sends every buffer that is not empty in packets
of the right lengths, and has read behind the buffer for them; the stream loop would send it and
read nothing else. -/
theorem headerLoop_not_chunked (hκ : κ.Progresses) (hfuel : sizeofPkg < fuel)
    (hbuf : buf.length < fuel) (hne : buf ≠ []) (hc : c.overread = false) (remotefd : ℕ) :
    (∃ e ps, headerLoop κ fuel c buf beyond = some (e, true) ∧ Sized c e ps buf.length ∧
      ∀ qs, ¬ Chunked c e qs buf) ∧
    ∃ e ps, streamLoop κ fuel c remotefd buf = some (e, true) ∧ Chunked c e ps buf := by
  obtain ⟨e, ps, hrun, hsized, hover⟩ := headerLoop_overreads hκ.send hfuel beyond hbuf
    (List.length_pos_iff.2 hne) c
  obtain ⟨e', ps', hrun', h⟩ := streamLoop_streamed hκ hfuel hbuf c remotefd
  refine ⟨⟨e, ps, hrun, hsized, fun qs hqs => ?_⟩, e', ps', hrun', h.chunked hc⟩
  exact Bool.false_ne_true (hqs.inside.symm.trans hover)

theorem headerLoop_not_chunked_two :
    (∃ e ps, headerLoop (.atMost 5) 2900 ⟨⟨[], [], 0, []⟩, [], false⟩ (List.replicate 2800 1) [] =
        some (e, true) ∧
      Sized ⟨⟨[], [], 0, []⟩, [], false⟩ e ps (List.replicate 2800 (1 : UInt8)).length ∧
      ∀ qs, ¬ Chunked ⟨⟨[], [], 0, []⟩, [], false⟩ e qs (List.replicate 2800 1)) ∧
    ∃ e ps, streamLoop (.atMost 5) 2900 ⟨⟨[], [], 0, []⟩, [], false⟩ 7 (List.replicate 2800 1) =
        some (e, true) ∧ Chunked ⟨⟨[], [], 0, []⟩, [], false⟩ e ps (List.replicate 2800 1) :=
  headerLoop_not_chunked (Kernel.atMost_progresses (by decide)) (by decide)
    (by rw [List.length_replicate]; decide) (by decide) rfl 7

/-- The headers are the three bytes 1, 2, 3. -/
theorem headers_not_chunked : ¬ ∀ (κ : Kernel) fuel c buf beyond, κ.Progresses → sizeofPkg < fuel →
    buf.length < fuel → buf ≠ [] → c.overread = false →
    ∃ e ps, headerLoop κ fuel c buf beyond = some (e, true) ∧ Chunked c e ps buf := by
  intro h
  have hκ := Kernel.atMost_progresses (m := 5) (by decide)
  obtain ⟨e, ps, hrun, hps⟩ := h (.atMost 5) 1500 ⟨⟨[], [], 0, []⟩, [], false⟩ [1, 2, 3] [9, 9, 9] hκ
    (by decide) (by decide) (by decide) rfl
  obtain ⟨e', ps', hrun', -, hover⟩ := headerLoop_overreads hκ.send
    (show sizeofPkg < 1500 by decide) [9, 9, 9] (show [1, 2, 3].length < 1500 by decide) (by decide)
    ⟨⟨[], [], 0, []⟩, [], false⟩
  obtain ⟨rfl, -⟩ := Prod.mk.inj (Option.some.inj (hrun.symm.trans hrun'))
  exact Bool.false_ne_true (hps.inside.symm.trans hover)

end Raspi
end WawaServer
