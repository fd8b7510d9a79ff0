import WawaServer.Clients.Headers

/-!
# What the camera thread sends

The loop in `camera_thread` around the two loops that send: in each round the packed headers, and
then a picture. The packets of the headers have no descriptor, those of a picture have `remotefd`;
all of them have a body and fit (`cameraLoop_airs`).
-/

namespace WawaServer
namespace Raspi

/-- What a round of the loop in `camera_thread` gets once there is a frame to encode: the outputs of
`pack_get`, each with the memory after it, and then `remotefd` and the output of `encode_do`. -/
structure Shot where
  headers : List (List UInt8 × List UInt8)
  remotefd : ℕ
  encBuf : List UInt8

/-- The header loops of one round. -/
def headerLoops (κ : Kernel) (fuel : ℕ) :
    Camera → List (List UInt8 × List UInt8) → Option (Camera × Bool)
  | c, [] => some (c, true)
  | c, (pacBuf, beyond) :: rest =>
    match headerLoop κ fuel c pacBuf beyond with
    | none => none
    | some (c, false) => some (c, false)
    | some (c, true) => headerLoops κ fuel c rest

/-- The rounds of the loop in `camera_thread`. It leaves with `false` when the thread returns
because `send_pkg` has failed. -/
def cameraLoop (κ : Kernel) (fuel : ℕ) : Camera → List Shot → Option (Camera × Bool)
  | c, [] => some (c, true)
  | c, shot :: rest =>
    match headerLoops κ fuel c shot.headers with
    | none => none
    | some (c, false) => some (c, false)
    | some (c, true) =>
      match streamLoops κ fuel c [(shot.remotefd, shot.encBuf)] with
      | none => none
      | some (c, false) => some (c, false)
      | some (c, true) => cameraLoop κ fuel c rest

open Pkg

variable {κ : Kernel} {fuel n m : ℕ} {c d e : Camera} {pkg p q : Pkg} {ps qs : List Pkg}
  {buf beyond bs cs : List UInt8} {R : ℕ}

/-- A packet of the stream for the connection with the descriptor `R`. -/
structure IsStream (R : ℕ) (p : Pkg) : Prop where
  cmd : p.cmd = PkgCmdType.streamDataNtf.code
  fd : p.fd = R

theorem isStream_pkg (hR : R < 2 ^ 32) :
    IsStream R ((construct.setFd R).setCmd .streamDataNtf) where
  cmd := cmd_setCmd ..
  fd := (fd_setCmd ..).trans (fd_setFd hR)

theorem isStream_headerPkg : IsStream 0 (construct.setCmd .streamDataNtf) where
  cmd := cmd_setCmd ..
  fd := (fd_setCmd ..).trans fd_construct

/-- Neither the length nor the body of a packet is part of its address. -/
theorem IsStream.chunk (h : IsStream R p) (n : ℕ) (bs : List UInt8) :
    IsStream R (Buffer.write (p.setLen n) sizeofHead bs) where
  cmd := (Buffer.word_write_of_outside _ _ _ (.inl (by decide))).trans ((cmd_setLen p n).trans h.cmd)
  fd := (Buffer.word_write_of_outside _ _ _ (.inl le_rfl)).trans ((fd_setLen p n).trans h.fd)

theorem IsStream.copy (h : IsStream R p) (bs : List UInt8) :
    IsStream R (Buffer.write p sizeofHead bs) where
  cmd := (Buffer.word_write_of_outside _ _ _ (.inl (by decide))).trans h.cmd
  fd := (Buffer.word_write_of_outside _ _ _ (.inl le_rfl)).trans h.fd

/-! ## The two loops that send -/

/-- From `c` to `d` the packets `ps` of the stream for `R` were sent. -/
structure Aired (R : ℕ) (c d : Camera) (ps : List Pkg) : Prop where
  pkgs : d.pkgs = c.pkgs ++ ps
  output : d.sock.output = c.sock.output ++ (ps.map frame).flatten
  stream : ∀ p ∈ ps, IsStream R p

theorem Aired.refl (R : ℕ) (c : Camera) : Aired R c c [] where
  pkgs := by simp
  output := by simp
  stream := by simp

theorem Aired.snoc (h : Aired R c d ps) (hpkgs : e.pkgs = d.pkgs ++ [p])
    (hout : e.sock.output = d.sock.output ++ p.frame) (hp : IsStream R p) :
    Aired R c e (ps ++ [p]) where
  pkgs := by rw [hpkgs, h.pkgs, List.append_assoc]
  output := by rw [hout, h.output, List.append_assoc]; simp
  stream q hq := by
    rcases List.mem_append.1 hq with hq | hq
    · exact h.stream q hq
    · rwa [List.mem_singleton.1 hq]

/-- A call of `send_pkg` that returns has sent the frame, and returns 0. -/
theorem Camera.sendPkg_eq_some {iRet : ℤ} (hκ : κ.Progresses) (hfuel : sizeofPkg < fuel)
    (hp : p.len ≤ bufSize) (h : c.sendPkg κ fuel p = some (d, iRet)) :
    iRet = 0 ∧ d.pkgs = c.pkgs ++ [p] ∧ d.sock.output = c.sock.output ++ p.frame := by
  obtain ⟨l, hl, hsent⟩ := Camera.sendPkg_sent hκ.send hfuel c hp
  rw [hl] at h
  cases h
  exact ⟨rfl, rfl, hsent.output⟩

/-- What a round of either loop leaves: it goes on after it sent the packet that it hands on, or it
ends the loop and has sent nothing. -/
def RoundSends (R : ℕ) (c : Camera) : (Pkg × ℤ × Camera) ⊕ (Camera × Bool) → Prop
  | .inl (q, _, d) => IsStream R q ∧ d.pkgs = c.pkgs ++ [q] ∧
    d.sock.output = c.sock.output ++ q.frame
  | .inr (d, ok) => d = c ∧ ok = true

/-- The end of a round of either loop. -/
def sendRest (κ : Kernel) (fuel : ℕ) (c : Camera) (pkg : Pkg) (byteLeft : ℤ) :
    Option ((Pkg × ℤ × Camera) ⊕ (Camera × Bool)) :=
  match c.sendPkg κ fuel pkg with
  | none => none
  | some (c, iRet) => if iRet ≠ 0 then some (.inr (c, false)) else some (.inl (pkg, byteLeft, c))

/-- A `memcpy` has put a chunk in the packet, and changed nothing of the thread but perhaps
`overread`. -/
structure Copied (R : ℕ) (c : Camera) (r : Camera × Pkg) : Prop where
  pkgs : r.1.pkgs = c.pkgs
  sock : r.1.sock = c.sock
  stream : IsStream R r.2
  fits : r.2.len ≤ bufSize

theorem copied_copy (hp : IsStream R p) (hn : n ≤ bufSize) (off : ℤ) (m : ℕ) :
    Copied R c (c.copy (p.setLen n) buf off m) where
  pkgs := rfl
  sock := rfl
  stream := hp.chunk n _
  fits := (len_chunk p hn _).le.trans hn

theorem copied_copyHeader (hp : IsStream R p) (hn : n ≤ bufSize) (off : ℤ) (m : ℕ) :
    Copied R c (c.copyHeader (p.setLen n) buf beyond off m) where
  pkgs := rfl
  sock := rfl
  stream := hp.chunk n _
  fits := (len_chunk p hn _).le.trans hn

theorem Copied.again {r : Camera × Pkg} (h : Copied R c r) (off : ℤ) (m : ℕ) :
    Copied R c (r.1.copyHeader r.2 buf beyond off m) where
  pkgs := h.pkgs
  sock := h.sock
  stream := h.stream.copy _
  fits := (copyHeader_len r.1 r.2 off).le.trans h.fits

theorem Copied.sends {x : Camera × Pkg} {left : ℤ} {r : (Pkg × ℤ × Camera) ⊕ (Camera × Bool)}
    (hκ : κ.Progresses) (hfuel : sizeofPkg < fuel) (h : Copied R c x)
    (hr : sendRest κ fuel x.1 x.2 left = some r) : RoundSends R c r := by
  rw [sendRest] at hr
  split at hr
  · cases hr
  · rename_i d iRet hsend
    obtain ⟨rfl, hpkgs, hout⟩ := Camera.sendPkg_eq_some hκ hfuel h.fits hsend
    rw [if_neg (not_not.2 rfl)] at hr
    cases hr
    rw [h.pkgs] at hpkgs
    rw [h.sock] at hout
    exact ⟨h.stream, hpkgs, hout⟩

theorem streamRound_sends {left : ℤ} {r : (Pkg × ℤ × Camera) ⊕ (Camera × Bool)}
    (hκ : κ.Progresses) (hfuel : sizeofPkg < fuel) (hp : IsStream R p)
    (h : streamRound κ fuel buf (p, left, c) = some r) : RoundSends R c r := by
  by_cases hleft : 0 < left
  · by_cases hbig : (bufSize : ℤ) ≤ left
    · simp only [streamRound, if_pos hleft, if_pos hbig] at h
      exact (copied_copy hp le_rfl _ _).sends hκ hfuel h
    · have hn : left.toNat ≤ bufSize := by omega
      simp only [streamRound, if_pos hleft, if_neg hbig] at h
      exact (copied_copy hp hn _ _).sends hκ hfuel h
  · simp only [streamRound, if_neg hleft] at h
    cases h
    exact ⟨rfl, rfl⟩

theorem headerRound_sends {left : ℤ} {r : (Pkg × ℤ × Camera) ⊕ (Camera × Bool)}
    (hκ : κ.Progresses) (hfuel : sizeofPkg < fuel) (hp : IsStream R p)
    (h : headerRound κ fuel buf beyond (p, left, c) = some r) : RoundSends R c r := by
  by_cases hleft : 0 < left
  · by_cases hbig : (bufSize : ℤ) ≤ left
    · simp only [headerRound, if_pos hleft, if_pos hbig] at h
      exact ((copied_copyHeader hp le_rfl _ _).again _ _).sends hκ hfuel h
    · have hn : left.toNat ≤ bufSize := by omega
      simp only [headerRound, if_pos hleft, if_neg hbig] at h
      exact ((copied_copyHeader hp hn _ _).again _ _).sends hκ hfuel h
  · simp only [headerRound, if_neg hleft] at h
    cases h
    exact ⟨rfl, rfl⟩

/-- A loop whose rounds send sends packets for `R`. -/
theorem loop_aired {body : Pkg × ℤ × Camera → Option ((Pkg × ℤ × Camera) ⊕ (Camera × Bool))}
    {left : ℤ} {ok : Bool}
    (hbody : ∀ p left c r, IsStream R p → body (p, left, c) = some r → RoundSends R c r)
    (hp : IsStream R p) (h : Loop.run body n (p, left, c) = some (e, ok)) :
    ∃ ps, Aired R c e ps := by
  refine Loop.run_keeps (fun st => IsStream R st.1 ∧ ∃ ps, Aired R c st.2.2 ps)
    (fun r => ∃ ps, Aired R c r.1 ps) ?_ ?_ ⟨hp, [], .refl R c⟩ h
  · rintro ⟨p, left, d⟩ ⟨q, left', e⟩ ⟨hp, ps, hps⟩ hinl
    obtain ⟨hq, hpkgs, hout⟩ := hbody p left d _ hp hinl
    exact ⟨hq, ps ++ [q], hps.snoc hpkgs hout hq⟩
  · rintro ⟨p, left, d⟩ ⟨e, ok⟩ ⟨hp, ps, hps⟩ hinr
    obtain ⟨rfl, -⟩ := hbody p left d _ hp hinr
    exact ⟨ps, hps⟩

/-- The header loop sends packets without a descriptor, which have a body and fit. -/
theorem headerLoop_aired (hκ : κ.Progresses) (hfuel : sizeofPkg < fuel) (hbuf : buf.length < fuel)
    (beyond : List UInt8) (c : Camera) :
    ∃ e ps, headerLoop κ fuel c buf beyond = some (e, true) ∧ Aired 0 c e ps ∧
      ∀ p ∈ ps, 0 < p.len ∧ p.len ≤ bufSize := by
  by_cases hne : buf = []
  · subst hne
    obtain ⟨m, rfl⟩ := Nat.exists_eq_add_of_lt hfuel
    have hround : headerRound κ (sizeofPkg + m + 1) [] beyond
        (construct.setCmd .streamDataNtf, (0 : ℕ), c) = some (.inr (c, true)) := by
      simp [headerRound]
    exact ⟨c, [], Loop.run_of_inr hround (sizeofPkg + m), .refl 0 c, by simp⟩
  · obtain ⟨e, ps, hrun, hsized, -⟩ := headerLoop_overreads hκ.send hfuel beyond hbuf
      (List.length_pos_iff.2 hne) c
    obtain ⟨qs, hqs⟩ := loop_aired (fun _ _ _ _ hp h => headerRound_sends hκ hfuel hp h)
      isStream_headerPkg hrun
    obtain rfl : ps = qs := List.append_cancel_left (hsized.pkgs.symm.trans hqs.pkgs)
    exact ⟨e, ps, hrun, hqs, hsized.fits⟩

/-- The stream loop sends the picture in packets for `R`. -/
theorem streamLoop_aired (hκ : κ.Progresses) (hfuel : sizeofPkg < fuel) (hbuf : buf.length < fuel)
    (hR : R < 2 ^ 32) (c : Camera) :
    ∃ e ps, streamLoop κ fuel c R buf = some (e, true) ∧ Aired R c e ps ∧ Streamed c e ps buf := by
  obtain ⟨e, ps, hrun, hps⟩ := streamLoop_streamed hκ hfuel hbuf c R
  obtain ⟨qs, hqs⟩ := loop_aired (fun _ _ _ _ hp h => streamRound_sends hκ hfuel hp h)
    (isStream_pkg hR) hrun
  obtain rfl : ps = qs := List.append_cancel_left (hps.pkgs.symm.trans hqs.pkgs)
  exact ⟨e, ps, hrun, hqs, hps⟩

/-! ## The rounds of the thread -/

/-- The pictures for the descriptor `fd`. -/
def pictures (fd : ℕ) (shots : List Shot) : List UInt8 :=
  (shots.filter fun x => x.remotefd = fd).flatMap Shot.encBuf

/-- From `c` to `d` the packets `ps` were sent: those with a descriptor hold the pictures of `shots`
for it, and the others are the headers. -/
structure Airs (c d : Camera) (ps : List Pkg) (shots : List Shot) : Prop where
  pkgs : d.pkgs = c.pkgs ++ ps
  output : d.sock.output = c.sock.output ++ (ps.map frame).flatten
  cmd : ∀ p ∈ ps, p.cmd = PkgCmdType.streamDataNtf.code
  fits : ∀ p ∈ ps, 0 < p.len ∧ p.len ≤ bufSize
  fd : ∀ p ∈ ps, p.fd = 0 ∨ ∃ shot ∈ shots, p.fd = shot.remotefd
  data : ∀ fd ≠ 0, ((ps.filter fun p => p.fd = fd).map streamData).flatten = pictures fd shots

variable {shots shots' : List Shot}

theorem Airs.refl (c : Camera) : Airs c c [] [] := ⟨by simp, by simp, by simp, by simp, by simp,
  fun _ _ => rfl⟩

theorem Airs.trans (h : Airs c d ps shots) (h' : Airs d e qs shots') :
    Airs c e (ps ++ qs) (shots ++ shots') where
  pkgs := by rw [h'.pkgs, h.pkgs, List.append_assoc]
  output := by simp [h'.output, h.output]
  cmd p hp := (List.mem_append.1 hp).elim (h.cmd p) (h'.cmd p)
  fits p hp := (List.mem_append.1 hp).elim (h.fits p) (h'.fits p)
  fd p hp := by
    rcases List.mem_append.1 hp with hp | hp
    · refine (h.fd p hp).imp_right fun ⟨shot, hshot, hfd⟩ => ⟨shot, ?_, hfd⟩
      exact List.mem_append_left _ hshot
    · refine (h'.fd p hp).imp_right fun ⟨shot, hshot, hfd⟩ => ⟨shot, ?_, hfd⟩
      exact List.mem_append_right _ hshot
  data fd hfd := by
    rw [List.filter_append, List.map_append, List.flatten_append, h.data fd hfd, h'.data fd hfd,
      pictures, pictures, pictures, List.filter_append, List.flatMap_append]

/-- Packets of headers are for nobody. -/
theorem Aired.airs_headers (h : Aired 0 c d ps) (hfits : ∀ p ∈ ps, 0 < p.len ∧ p.len ≤ bufSize) :
    Airs c d ps [] where
  pkgs := h.pkgs
  output := h.output
  cmd p hp := (h.stream p hp).cmd
  fits := hfits
  fd p hp := .inl (h.stream p hp).fd
  data fd hfd := by
    have hnone : ps.filter (fun p => p.fd = fd) = [] := by
      rw [List.filter_eq_nil_iff]
      intro p hp heq
      have hp0 := (h.stream p hp).fd
      exact hfd ((of_decide_eq_true heq).symm.trans hp0)
    rw [hnone]
    rfl

/-- Those of a picture are for its descriptor. -/
theorem Aired.airs_picture {shot : Shot} (h : Aired shot.remotefd c d ps)
    (hps : Streamed c d ps shot.encBuf) : Airs c d ps [shot] where
  pkgs := h.pkgs
  output := h.output
  cmd p hp := (h.stream p hp).cmd
  fits := hps.fits
  fd p hp := .inr ⟨shot, List.mem_singleton_self shot, (h.stream p hp).fd⟩
  data fd _ := by
    by_cases hfd : shot.remotefd = fd
    · have hall : ps.filter (fun p => p.fd = fd) = ps := by
        rw [List.filter_eq_self]
        intro p hp
        exact decide_eq_true ((h.stream p hp).fd.trans hfd)
      rw [hall, hps.data]
      simp [pictures, hfd]
    · have hnone : ps.filter (fun p => p.fd = fd) = [] := by
        rw [List.filter_eq_nil_iff]
        intro p hp heq
        exact hfd ((h.stream p hp).fd.symm.trans (of_decide_eq_true heq))
      rw [hnone]
      simp [pictures, hfd]

/-- The outputs of `pack_get` and of `encode_do` are shorter than `fuel`. -/
structure Shot.Bounded (shot : Shot) (fuel : ℕ) : Prop where
  headers : ∀ x ∈ shot.headers, x.1.length < fuel
  remotefd : shot.remotefd < 2 ^ 32
  encBuf : shot.encBuf.length < fuel

theorem headerLoops_airs (hκ : κ.Progresses) (hfuel : sizeofPkg < fuel)
    {headers : List (List UInt8 × List UInt8)} (hheaders : ∀ x ∈ headers, x.1.length < fuel)
    (c : Camera) : ∃ e ps, headerLoops κ fuel c headers = some (e, true) ∧ Airs c e ps [] := by
  induction headers generalizing c with
  | nil => exact ⟨c, [], rfl, .refl c⟩
  | cons x headers ih =>
    obtain ⟨d, ps, hd, hps, hfits⟩ :=
      headerLoop_aired hκ hfuel (hheaders x List.mem_cons_self) x.2 c
    obtain ⟨e, qs, he, hqs⟩ := ih (fun y hy => hheaders y (List.mem_cons_of_mem x hy)) d
    refine ⟨e, ps ++ qs, ?_, (hps.airs_headers hfits).trans hqs⟩
    simp only [headerLoops, hd, he]

theorem picture_airs (hκ : κ.Progresses) (hfuel : sizeofPkg < fuel) {shot : Shot}
    (hshot : shot.Bounded fuel) (c : Camera) :
    ∃ e ps, streamLoops κ fuel c [(shot.remotefd, shot.encBuf)] = some (e, true) ∧
      Airs c e ps [shot] := by
  by_cases hempty : shot.encBuf.length ≤ 0
  · have hnil : shot.encBuf = [] := List.eq_nil_of_length_eq_zero (by omega)
    refine ⟨c, [], ?_, ?_⟩
    · rw [streamLoops, if_pos hempty]
      rfl
    · apply Aired.airs_picture (.refl shot.remotefd c)
      rw [hnil]
      exact .refl c
  · obtain ⟨e, ps, he, hps, hdata⟩ := streamLoop_aired hκ hfuel hshot.encBuf hshot.remotefd c
    refine ⟨e, ps, ?_, hps.airs_picture hdata⟩
    rw [streamLoops, if_neg hempty]
    simp only [he, streamLoops]

/-- However `send` cuts the packets, the thread sends the headers and the pictures. -/
theorem cameraLoop_airs (hκ : κ.Progresses) (hfuel : sizeofPkg < fuel)
    (hshots : ∀ shot ∈ shots, shot.Bounded fuel) (c : Camera) :
    ∃ e ps, cameraLoop κ fuel c shots = some (e, true) ∧ Airs c e ps shots := by
  induction shots generalizing c with
  | nil => exact ⟨c, [], rfl, .refl c⟩
  | cons shot shots ih =>
    have hshot := hshots shot List.mem_cons_self
    obtain ⟨d₁, ps₁, hd₁, hps₁⟩ := headerLoops_airs hκ hfuel hshot.headers c
    obtain ⟨d₂, ps₂, hd₂, hps₂⟩ := picture_airs hκ hfuel hshot d₁
    obtain ⟨e, ps, he, hps⟩ := ih (fun x hx => hshots x (List.mem_cons_of_mem shot hx)) d₂
    refine ⟨e, ps₁ ++ (ps₂ ++ ps), ?_, hps₁.trans (hps₂.trans hps)⟩
    simp only [cameraLoop, hd₁, hd₂, he]

end Raspi
end WawaServer
