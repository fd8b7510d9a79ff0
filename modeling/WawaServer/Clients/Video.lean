import WawaServer.Clients.Receiving

/-!
# The video arrives

What `camera_thread` reads from the encoder is what `remote.cpp` writes to the file, however `send`
and `recv` cut the packets. The bytes are followed through the four loops: `Streamed` says what the
stream loop has sent.
-/

namespace WawaServer

open Pkg

variable {κ : Kernel} {fuel n : ℕ} {k l : Socket} {p : Pkg} {bs cs rest : List UInt8}

/-- `stStreamDataNtf.buf[0..len)` -/
def Pkg.streamData (p : Pkg) : List UInt8 := Buffer.slice p sizeofHead p.len

theorem Pkg.streamData_eq (p : Pkg) : p.streamData = p.frame.drop sizeofHead := by
  rw [frame, total, Buffer.drop_slice _ _ _ _ (Nat.le_add_left sizeofHead p.len),
    Nat.add_sub_cancel, Nat.zero_add, streamData]

theorem Pkg.streamData_filled (hp : p.len ≤ bufSize) : (filled p.frame).streamData =
    p.streamData := by
  have hlen : (filled p.frame).len ≤ bufSize := by rwa [len_filled_frame hp]
  rw [streamData_eq, streamData_eq,
    frame_filled hlen (by rw [length_frame, total_filled_frame hp])]

/-! ## The stream loop -/

namespace Raspi

/-- From `c` to `e` the packets `ps` were sent, and `bs` is what they hold. -/
structure Streamed (c e : Camera) (ps : List Pkg) (bs : List UInt8) : Prop where
  pkgs : e.pkgs = c.pkgs ++ ps
  output : e.sock.output = c.sock.output ++ (ps.map frame).flatten
  data : (ps.map streamData).flatten = bs
  fits : ∀ p ∈ ps, 0 < p.len ∧ p.len ≤ bufSize
  overread : e.overread = c.overread

variable {c d e : Camera} {ps qs : List Pkg} {encBuf : List UInt8}

theorem Streamed.refl (c : Camera) : Streamed c c [] [] := ⟨by simp, by simp, rfl, by simp, rfl⟩

theorem Streamed.trans (h : Streamed c d ps bs) (h' : Streamed d e qs cs) :
    Streamed c e (ps ++ qs) (bs ++ cs) where
  pkgs := by rw [h'.pkgs, h.pkgs, List.append_assoc]
  output := by simp [h'.output, h.output]
  data := by rw [List.map_append, List.flatten_append, h.data, h'.data]
  fits p hp := (List.mem_append.1 hp).elim (h.fits p) (h'.fits p)
  overread := h'.overread.trans h.overread

/-! ### One packet -/

theorem len_chunk (p : Pkg) (hn : n ≤ bufSize) (bs : List UInt8) :
    Pkg.len (Buffer.write (p.setLen n) sizeofHead bs) = n := by
  rw [len, Buffer.word_write_of_outside _ _ _ (.inl (by decide))]
  exact len_setLen (by simp only [bufSize] at hn; omega)

theorem streamData_chunk (p : Pkg) (hn : bs.length ≤ bufSize) :
    Pkg.streamData (Buffer.write (p.setLen bs.length) sizeofHead bs) = bs := by
  rw [streamData, len_chunk p hn]
  exact Buffer.slice_write_self _ _ _ (by simp only [bufSize, sizeofHead, sizeofPkg] at *; omega)

/-- The copy of `n` of the last `m` bytes of a picture stays inside. -/
theorem copy_inside {m : ℕ} (c : Camera) (p : Pkg) (hnm : n ≤ m) (hm : m ≤ encBuf.length) :
    c.copy p encBuf ((encBuf.length : ℤ) - m) n =
      (c, Buffer.write p sizeofHead ((encBuf.drop (encBuf.length - m)).take n)) := by
  have hoff : ((encBuf.length : ℤ) - m).toNat = encBuf.length - m := by omega
  have hinside : ¬ ((encBuf.length : ℤ) - m < 0 ∨
      (encBuf.length : ℤ) < (encBuf.length : ℤ) - m + n) := by omega
  rw [Camera.copy, hoff, decide_eq_false hinside, Bool.or_false]

/-- The thread sends a packet that fits. -/
theorem Camera.sendPkg_sent (hκ : ∀ i n, 0 < n → 1 ≤ κ.send i n ∧ κ.send i n ≤ n)
    (hfuel : sizeofPkg < fuel) (c : Camera) (hp : p.len ≤ bufSize) :
    ∃ l, c.sendPkg κ fuel p = some ({ c with sock := l, pkgs := c.pkgs ++ [p] }, 0) ∧
      SentTo c.sock l p p.total := by
  obtain ⟨l, hl, hsent⟩ := Raspi.sendPkg_sent hκ hp hfuel c.sock
  refine ⟨l, ?_, hsent⟩
  rw [Camera.sendPkg, hl]
  rfl

/-- The packet that holds them is sent. -/
theorem sendChunk_streamed {m : ℕ} (hκ : κ.Progresses) (hfuel : sizeofPkg < fuel) (c : Camera)
    (p : Pkg) (hpos : 0 < n) (hn : n ≤ bufSize) (hnm : n ≤ m) (hm : m ≤ encBuf.length) :
    ∃ pkg, c.copy (p.setLen n) encBuf ((encBuf.length : ℤ) - m) (p.setLen n).len = (c, pkg) ∧
      ∃ e, c.sendPkg κ fuel pkg = some (e, 0) ∧
        Streamed c e [pkg] ((encBuf.drop (encBuf.length - m)).take n) := by
  have hlen : (p.setLen n).len = n := len_setLen (by simp only [bufSize] at hn; omega)
  have hbs : ((encBuf.drop (encBuf.length - m)).take n).length = n := by
    rw [List.length_take, List.length_drop]
    omega
  have hdata := streamData_chunk p (hbs.le.trans hn)
  rw [hbs] at hdata
  have hchunk := len_chunk p hn ((encBuf.drop (encBuf.length - m)).take n)
  refine ⟨_, by rw [hlen]; exact copy_inside c _ hnm hm, ?_⟩
  generalize Buffer.write (p.setLen n) sizeofHead _ = pkg at *
  obtain ⟨l, hsend, hsent⟩ := Camera.sendPkg_sent hκ.send hfuel c (p := pkg) (by omega)
  exact ⟨_, hsend, rfl, by simp [hsent.output], by simp [hdata], by simp [hchunk, hpos, hn], rfl⟩

theorem streamRound_streamed {m : ℕ} (hκ : κ.Progresses) (hfuel : sizeofPkg < fuel) (c : Camera)
    (p : Pkg) (hpos : 0 < m) (hm : m ≤ encBuf.length) :
    ∃ n pkg e, 0 < n ∧ n ≤ m ∧
      streamRound κ fuel encBuf (p, m, c) = some (.inl (pkg, ((m - n : ℕ) : ℤ), e)) ∧
      Streamed c e [pkg] ((encBuf.drop (encBuf.length - m)).take n) := by
  have hpos' : (0 : ℤ) < m := by omega
  -- a packet that is full, or the last one
  by_cases hbig : bufSize ≤ m
  · obtain ⟨pkg, hcopy, e, hsend, h⟩ :=
      sendChunk_streamed hκ hfuel c p (n := bufSize) (by decide) le_rfl hbig hm
    refine ⟨bufSize, pkg, e, by decide, hbig, ?_, h⟩
    have hleft : (m : ℤ) - bufSize = ((m - bufSize : ℕ) : ℤ) := by omega
    simp only [streamRound, if_pos hpos', if_pos (Int.ofNat_le.2 hbig), hcopy, hsend, hleft]
    rfl
  · obtain ⟨pkg, hcopy, e, hsend, h⟩ :=
      sendChunk_streamed hκ hfuel c p (n := m) hpos (by omega) le_rfl hm
    refine ⟨m, pkg, e, hpos, le_rfl, ?_, h⟩
    have hsmall : ¬ ((bufSize : ℤ) ≤ m) := by omega
    simp only [streamRound, if_pos hpos', if_neg hsmall, Int.toNat_natCast, hcopy, hsend,
      Nat.sub_self]
    rfl

/-! ### All packets -/

/-- The stream loop sends the whole picture. -/
theorem streamLoop_streamed (hκ : κ.Progresses) (hfuel : sizeofPkg < fuel)
    (henc : encBuf.length < fuel) (c : Camera) (remotefd : ℕ) :
    ∃ e ps, streamLoop κ fuel c remotefd encBuf = some (e, true) ∧ Streamed c e ps encBuf := by
  -- the invariant: what was sent is the picture but for its last `m` bytes
  have hrun := Loop.run_total (streamRound κ fuel encBuf) (n := fuel)
    (s := ((construct.setFd remotefd).setCmd .streamDataNtf, (encBuf.length : ℤ), c))
    (fun st => ∃ (m : ℕ) (ps : List Pkg), st.2.1 = m ∧ m ≤ encBuf.length ∧
      Streamed c st.2.2 ps (encBuf.take (encBuf.length - m)))
    (fun r => r.2 = true ∧ ∃ ps, Streamed c r.1 ps encBuf) (fun st => st.2.1.toNat) ?_
    ⟨encBuf.length, [], rfl, le_rfl, by simpa using Streamed.refl c⟩ (by simpa using henc)
  · obtain ⟨⟨e, r⟩, hr, rfl, ps, h⟩ := hrun
    exact ⟨e, ps, hr, h⟩
  · rintro ⟨pkg, -, d⟩ ⟨m, ps, rfl, hm, h⟩
    rcases Nat.eq_zero_or_pos m with rfl | hpos
    · refine .inr ⟨(d, true), by simp [streamRound], rfl, ps, ?_⟩
      rwa [Nat.sub_zero, List.take_length] at h
    · obtain ⟨n, pkg', e, hn, hnm, hround, h'⟩ := streamRound_streamed hκ hfuel d pkg hpos hm
      refine .inl ⟨_, hround, ⟨m - n, ps ++ [pkg'], rfl, by omega, ?_⟩, ?_⟩
      · -- the bytes of this round follow those of the rounds before
        have hsplit : encBuf.take (encBuf.length - (m - n)) = encBuf.take (encBuf.length - m) ++
            (encBuf.drop (encBuf.length - m)).take n := by
          rw [← List.take_add]
          congr 1
          omega
        rw [hsplit]
        exact h.trans h'
      · show ((m - n : ℕ) : ℤ).toNat < (m : ℤ).toNat
        omega

/-- `camera_thread` sends all pictures, one after the other. -/
theorem streamLoops_streamed {encs : List (ℕ × List UInt8)} (hκ : κ.Progresses)
    (hfuel : sizeofPkg < fuel) (hencs : ∀ enc ∈ encs, enc.2.length < fuel) (c : Camera) :
    ∃ e ps, streamLoops κ fuel c encs = some (e, true) ∧
      Streamed c e ps (encs.flatMap Prod.snd) := by
  induction encs generalizing c with
  | nil => exact ⟨c, [], rfl, .refl c⟩
  | cons enc encs ih =>
    have hrest := fun d => ih (fun x hx => hencs x (List.mem_cons_of_mem enc hx)) d
    rw [List.flatMap_cons]
    by_cases hempty : enc.2.length ≤ 0
    · have hnil : enc.2 = [] := List.eq_nil_of_length_eq_zero (by omega)
      obtain ⟨e, ps, he, h⟩ := hrest c
      refine ⟨e, ps, ?_, by simpa [hnil] using h⟩
      rw [streamLoops, if_pos hempty]
      exact he
    · obtain ⟨d, ps, hd, h⟩ :=
        streamLoop_streamed hκ hfuel (hencs enc List.mem_cons_self) c enc.1
      obtain ⟨e, qs, he, h'⟩ := hrest d
      refine ⟨e, ps ++ qs, ?_, h.trans h'⟩
      rw [streamLoops, if_neg hempty]
      simp only [hd, he]

end Raspi

/-! ## The file -/

namespace Remote

variable {v : Viewer} {ps : List Pkg}

/-- A packet that arrives is written. -/
theorem writeRound_written (hκ : κ.Progresses) (hpos : 0 < p.len) (hp : p.len ≤ bufSize)
    (hin : v.sock.input = p.frame ++ rest) (hfuel : sizeofPkg < fuel) :
    ∃ w, writeRound κ fuel v = some (.inl w) ∧ w.sock.input = rest ∧
      w.file = v.file ++ p.streamData := by
  obtain ⟨l, hl, hgot⟩ := Reader.recvPkg_gotTo (x := .remote) hκ.recv hpos hp hin hfuel
  refine ⟨Viewer.write κ { v with sock := l } (filled p.frame), ?_, ?_, ?_⟩
  · have hl' : recvPkg κ fuel v.sock = some (l, filled p.frame, 0) := hl
    simp only [writeRound, hl']
    rfl
  · exact (List.append_cancel_left (hin.symm.trans hgot.input)).symm
  · simp only [Viewer.write, hκ.write, Int.toNat_natCast]
    rw [← streamData_filled hp]
    rfl

/-- The viewer waits when all is written. -/
theorem writeRound_waits (hκ : κ.Progresses) (hin : v.sock.input = []) (hfuel : sizeofPkg < fuel) :
    writeRound κ fuel v = none := by
  obtain ⟨n, rfl⟩ := Nat.exists_eq_add_of_lt hfuel
  obtain ⟨hpos, -⟩ := hκ.recv v.sock.calls (sizeT ((sizeofHead : ℤ) - 0)) (by decide)
  have hrecv : v.sock.recv κ construct 0 ((sizeofHead : ℤ) - 0) = none := by
    simp only [Socket.recv, hin]
    rw [if_pos (by rw [List.length_nil]; omega)]
  have hround : recvRound κ sizeofHead (0, construct, v.sock) = none := by
    simp only [recvRound, hrecv]
  simp only [writeRound, recvPkg, Loop.run_of_none hround]

/-- All packets are written, one after the other. -/
theorem writeLoop_written (hκ : κ.Progresses) (hfits : ∀ p ∈ ps, 0 < p.len ∧ p.len ≤ bufSize)
    (hin : v.sock.input = (ps.map frame).flatten) (hfuel : sizeofPkg < fuel) :
    ∃ w, Loop.rounds (writeRound κ fuel) ps.length v = some w ∧ w.sock.input = [] ∧
      w.file = v.file ++ (ps.map streamData).flatten := by
  let P : List Pkg → Viewer → Prop := fun qs u => (∀ p ∈ qs, 0 < p.len ∧ p.len ≤ bufSize) ∧
    u.sock.input = (qs.map frame).flatten ∧
      u.file ++ (qs.map streamData).flatten = v.file ++ (ps.map streamData).flatten
  have hrounds := Loop.rounds_of_each (writeRound κ fuel) P ?_ ⟨hfits, hin, rfl⟩
  · obtain ⟨w, hw, -, hinw, hfile⟩ := hrounds
    exact ⟨w, hw, hinw, by simpa using hfile⟩
  · rintro p qs u ⟨hfits, hin, hfile⟩
    obtain ⟨hpos, hp⟩ := hfits p List.mem_cons_self
    obtain ⟨w, hw, hinw, hfilew⟩ := writeRound_written hκ hpos hp hin hfuel
    refine ⟨w, hw, fun q hq => hfits q (List.mem_cons_of_mem p hq), hinw, ?_⟩
    rw [hfilew, List.append_assoc]
    exact hfile

end Remote

/-- The video survives from the thread in the state `c` on to `e`: the thread copies nothing from
outside of a picture, the packets `ps` that it sends have a body and fit, and whoever receives their
bytes gets every packet and writes the pictures. -/
structure Survives (κ : Kernel) (fuel : ℕ) (c e : Raspi.Camera) (ps : List Pkg)
    (encs : List (ℕ × List UInt8)) : Prop where
  inside : e.overread = c.overread
  pkgs : e.pkgs = c.pkgs ++ ps
  fits : ∀ p ∈ ps, 1 ≤ p.len ∧ p.len ≤ bufSize
  written : ∃ bytes, e.sock.output = c.sock.output ++ bytes ∧
    ∀ v : Remote.Viewer, v.sock.input = bytes →
      (∃ w, Loop.rounds (Remote.writeRound κ fuel) ps.length v = some w ∧ w.sock.input = [] ∧
        w.file = v.file ++ encs.flatMap Prod.snd) ∧
      Remote.writeLoop κ fuel v = none

/-- The video survives, whatever the encoder puts out and however `send` and `recv` cut it. -/
theorem video_survives {κ' : Kernel} {encs : List (ℕ × List UInt8)} (hκ : κ.Progresses)
    (hκ' : κ'.Progresses) (hfuel : sizeofPkg < fuel) (hencs : ∀ enc ∈ encs, enc.2.length < fuel)
    (c : Raspi.Camera) :
    ∃ e ps, Raspi.streamLoops κ fuel c encs = some (e, true) ∧ Survives κ' fuel c e ps encs := by
  obtain ⟨e, ps, he, h⟩ := Raspi.streamLoops_streamed hκ hfuel hencs c
  refine ⟨e, ps, he, h.overread, h.pkgs, h.fits, _, h.output, fun v hv => ?_⟩
  obtain ⟨w, hw, hin, hfile⟩ := Remote.writeLoop_written hκ' h.fits hv hfuel
  rw [h.data] at hfile
  exact ⟨⟨w, hw, hin, hfile⟩, Loop.run_eq_none hw (Remote.writeRound_waits hκ' hin hfuel) fuel⟩

theorem video_survives_atMost : ∃ e ps,
    Raspi.streamLoops (.atMost 1000) 3000 ⟨⟨[], [], 0, []⟩, [], false⟩
      [(7, List.replicate 2801 1), (7, [2, 3])] = some (e, true) ∧
    Survives (.atMost 5) 3000 ⟨⟨[], [], 0, []⟩, [], false⟩ e ps
      [(7, List.replicate 2801 1), (7, [2, 3])] :=
  video_survives (Kernel.atMost_progresses (by decide)) (Kernel.atMost_progresses (by decide))
    (by decide) (by decide +kernel) _

end WawaServer
