import WawaServer.Clients.Inbox
import WawaServer.Clients.Requests
import WawaServer.Listing

/-!
# The session of a viewer

The whole of `main` in `remote.cpp`: it registers, prints the list of raspis, asks for one of them,
and writes the bodies of all packets after the answer to a file. Only the answer to the choose
request is looked at, and none of the loops looks at `stHead.cmd`. Whatever the server sends, and
however it is cut, `main` is where the packets that have arrived take it (`viewer_follows`).
-/

namespace WawaServer
namespace Remote

/-- Where `main` of `remote.cpp` is when it waits. -/
inductive MainAt
  /-- in the `recv_pkg` after the register request -/
  | registered
  /-- in the `recv_pkg` after the choose request -/
  | chosen
  /-- in the loop that writes the file -/
  | watching
deriving DecidableEq

/-- `main` of `remote.cpp`. `printed` are the descriptors that it has printed as registered raspis,
`none` when it read them from memory behind `recvpkg`. -/
structure Main where
  here : MainAt
  viewer : Viewer
  printed : Option (List ℕ)

/-- The descriptors in `stRegisterClientRes.fd` from `i` on up to the first that is 0. There are `n`
words left in `recvpkg`. -/
def fdsFrom (recvpkg : Pkg) : ℕ → ℕ → Option (List ℕ)
  | 0, _ => none
  | n + 1, i =>
    if recvpkg.raspiFd i ≠ 0 then
      (fdsFrom recvpkg n (i + 1)).map fun fds => recvpkg.raspiFd i :: fds
    else some []

/-- What `main` prints of the answer to the register request. -/
def printedFds (recvpkg : Pkg) : Option (List ℕ) :=
  if recvpkg.cmd = PkgCmdType.registerClientRes.code then fdsFrom recvpkg ((sizeofPkg - 16) / 4) 0
  else some []

/-- `main` up to the first `recv_pkg`. -/
def start (κ : Kernel) (fuel : ℕ) (pkg : Pkg) (v : Viewer) : Option (Main ⊕ (Main × ℤ)) :=
  match sendPkg κ fuel v.sock (registerClientReq pkg) with
  | none => none
  | some (k, iRet) =>
    let m : Main := ⟨.registered, { v with sock := k }, some []⟩
    if iRet ≠ 0 then some (.inr (m, -1)) else some (.inl m)

/-- What `main` does with a packet that it has received. `choise` is what `scanf` reads, and
`sendPkg` is the memory that the choose request is built in. -/
def Main.received (κ : Kernel) (fuel choise : ℕ) (pkg : Pkg) (m : Main) (recvpkg : Pkg) :
    Option (Main ⊕ (Main × ℤ)) :=
  match m.here with
  | .registered =>
    let m := { m with printed := printedFds recvpkg }
    match sendPkg κ fuel m.viewer.sock (chooseServerReq choise pkg) with
    | none => none
    | some (k, iRet) =>
      let m := { m with viewer := { m.viewer with sock := k } }
      if iRet ≠ 0 then some (.inr (m, -1)) else some (.inl { m with here := .chosen })
  | .chosen =>
    if recvpkg.result ≠ 0 then some (.inr (m, -1)) else some (.inl { m with here := .watching })
  | .watching => some (.inl { m with viewer := m.viewer.write κ recvpkg })

/-- `main` from one `recv_pkg` to the next. -/
def mainRound (κ : Kernel) (fuel choise : ℕ) (pkg : Pkg) (m : Main) : Option (Main ⊕ (Main × ℤ)) :=
  match recvPkg κ fuel m.viewer.sock with
  | none => none
  | some (k, recvpkg, iRet) =>
    let m := { m with viewer := { m.viewer with sock := k } }
    if iRet ≠ 0 then some (.inr (m, -1)) else m.received κ fuel choise pkg recvpkg

open Pkg

variable {κ : Kernel} {fuel choise n : ℕ} {pkg p q : Pkg} {ps : List Pkg} {v w : Viewer}
  {m : Main} {rest part : List UInt8}

/-! ## What the packets say -/

/-- `main` returns at the packet `p`, which comes after the packets `ps`: it has no body, or it is
the answer to the choose request and refuses. -/
def Refused (ps : List Pkg) (p : Pkg) : Prop := p.len = 0 ∨ ps.length = 1 ∧ p.result ≠ 0

instance (ps : List Pkg) (p : Pkg) : Decidable (Refused ps p) :=
  inferInstanceAs (Decidable (_ ∨ _ ∧ _))

/-- After `n` packets. -/
def mainAt : ℕ → MainAt
  | 0 => .registered
  | 1 => .chosen
  | _ => .watching

/-- After the packets `ps`, `main` has sent the requests, has printed what the first packet says,
and has written the bodies of those after the second. -/
structure Main.Follows (choise : ℕ) (pkg : Pkg) (v : Viewer) (ps : List Pkg) (m : Main) : Prop where
  here : m.here = mainAt ps.length
  output : m.viewer.sock.output = v.sock.output ++ (registerClientReq pkg).frame ++
    if ps = [] then [] else (chooseServerReq choise pkg).frame
  printed : m.printed = ps.head?.elim (some []) printedFds
  file : m.viewer.file = v.file ++ ((ps.drop 2).map streamData).flatten
  answer : ∀ res, ps[1]? = some res → res.result = 0
  bodies : ∀ p ∈ ps, p.len ≠ 0

/-- If `p` is a list of raspis, `main` has printed it, and has read nothing behind it. -/
def Main.Prints (m : Main) (p : Pkg) : Prop :=
  p.cmd = PkgCmdType.registerClientRes.code → p.len = sizeofRegisterClientRes →
    m.printed = some p.readFds

/-- `main` returns -1, and has written nothing. -/
structure Main.Returns (m : Main) (r : Main × ℤ) : Prop where
  code : r.2 = -1
  file : r.1.viewer.file = m.viewer.file

/-! ## The rounds -/

/-- Where every `send` takes all bytes, the requests are sent. -/
theorem sendPkg_whole (hκ : ∀ i n, κ.send i n = n) (hfuel : 0 < fuel) (hp : p.len ≤ bufSize)
    (k : Socket) : ∃ l, sendPkg κ fuel k p = some (l, 0) ∧ l.output = k.output ++ p.frame ∧
      l.input = k.input := by
  obtain ⟨l, hl, hsent⟩ := sendPkg_of_whole hp hfuel (hκ k.calls p.total)
  exact ⟨l, hl, hsent.output, hsent.input⟩

theorem len_registerClientReq (pkg : Pkg) : (registerClientReq pkg).len ≤ bufSize := by
  rw [registerClientReq, len_fillReq]
  decide

theorem len_chooseServerReq (choise : ℕ) (pkg : Pkg) :
    (chooseServerReq choise pkg).len ≤ bufSize := by
  rw [chooseServerReq, len_fillReq]
  decide

theorem start_follows (hκ : ∀ i n, κ.send i n = n) (hfuel : 0 < fuel) (choise : ℕ) (pkg : Pkg)
    (v : Viewer) : ∃ m, start κ fuel pkg v = some (.inl m) ∧ m.Follows choise pkg v [] ∧
      m.viewer.sock.input = v.sock.input := by
  obtain ⟨l, hl, hout, hin⟩ := sendPkg_whole hκ hfuel (len_registerClientReq pkg) v.sock
  refine ⟨⟨.registered, { v with sock := l }, some []⟩, ?_, ?_, hin⟩
  · simp only [start, hl]
    rfl
  · exact ⟨rfl, by simp [hout], rfl, by simp, by simp, by simp⟩

/-- A round with a packet that has a body. -/
theorem mainRound_of_received {l : Socket} (h : recvPkg κ fuel m.viewer.sock = some (l, p, 0)) :
    mainRound κ fuel choise pkg m =
      { m with viewer := { m.viewer with sock := l } }.received κ fuel choise pkg p := by
  simp only [mainRound, h]
  rfl

theorem received_follows (hκ : ∀ i n, κ.send i n = n) (hwrite : ∀ i n, κ.write i n = n)
    (hfuel : 0 < fuel) (h : m.Follows choise pkg v ps) (hp : p.len ≠ 0) :
    (∃ t, m.received κ fuel choise pkg p = some (.inl t) ∧
        t.viewer.sock.input = m.viewer.sock.input ∧ t.Follows choise pkg v (ps ++ [p])) ∨
      ∃ r, m.received κ fuel choise pkg p = some (.inr r) ∧ Refused ps p ∧ m.Returns r := by
  have hhere := h.here
  have hbodies : ∀ x ∈ ps ++ [p], x.len ≠ 0 :=
    List.forall_mem_append.2 ⟨h.bodies, List.forall_mem_singleton.2 hp⟩
  cases ps with
  | nil =>
    -- the answer to the register request
    obtain ⟨l, hl, hout, hin⟩ :=
      sendPkg_whole hκ hfuel (len_chooseServerReq choise pkg) m.viewer.sock
    left
    refine ⟨⟨.chosen, { m.viewer with sock := l }, printedFds p⟩, ?_, hin, ?_⟩
    · simp only [Main.received, hhere, mainAt, List.length_nil, hl]
      rfl
    · exact ⟨rfl, by simp [hout, h.output], rfl, by simp [h.file], by simp, hbodies⟩
  | cons list ps =>
    cases ps with
    | nil =>
      -- the answer to the choose request
      by_cases hres : p.result = 0
      · left
        refine ⟨{ m with here := .watching }, ?_, rfl, ?_⟩
        · simp [Main.received, hhere, mainAt, hres]
        · exact ⟨rfl, by simp [h.output], by simp [h.printed], by simp [h.file], by simp [hres],
            hbodies⟩
      · right
        refine ⟨(m, -1), ?_, .inr ⟨rfl, hres⟩, rfl, rfl⟩
        simp [Main.received, hhere, mainAt, hres]
    | cons res data =>
      left
      refine ⟨{ m with viewer := m.viewer.write κ p }, ?_, rfl, ?_⟩
      · simp [Main.received, hhere, mainAt]
      · refine ⟨by simp [hhere, mainAt], by simp [h.output, Viewer.write],
          by simp [h.printed], ?_, by simpa using h.answer, hbodies⟩
        simp only [Viewer.write, hwrite, Int.toNat_natCast, h.file]
        simp [streamData]

/-- A whole packet has arrived: `main` follows, or returns. -/
theorem mainRound_follows (hκ : κ.Progresses) (hzero : ∀ i, κ.recv i 0 ≤ 0)
    (hwhole : ∀ i n, κ.send i n = n) (hfuel : sizeofPkg < fuel) (h : m.Follows choise pkg v ps)
    (hp : p.len ≤ bufSize) (hin : m.viewer.sock.input = p.frame ++ rest) :
    (∃ t, mainRound κ fuel choise pkg m = some (.inl t) ∧ t.viewer.sock.input = rest ∧
        t.Follows choise pkg v (ps ++ [filled p.frame])) ∨
      ∃ r, mainRound κ fuel choise pkg m = some (.inr r) ∧ Refused ps (filled p.frame) ∧
        m.Returns r := by
  have hlen := len_filled_frame hp
  by_cases hpos : p.len = 0
  · obtain ⟨l, q, hl⟩ := Reader.recvPkg_of_empty (x := .remote) hκ.recv hzero hpos hin hfuel
    have hrecv : recvPkg κ fuel m.viewer.sock = some (l, q, -1) := hl
    right
    refine ⟨({ m with viewer := { m.viewer with sock := l } }, -1), ?_, .inl (hlen.trans hpos), rfl,
      rfl⟩
    simp only [mainRound, hrecv]
    rfl
  · obtain ⟨l, hl, hgot⟩ :=
      Reader.recvPkg_gotTo (x := .remote) hκ.recv (Nat.pos_of_ne_zero hpos) hp hin hfuel
    have hrest : l.input = rest := (List.append_cancel_left (hin.symm.trans hgot.input)).symm
    rw [mainRound_of_received hl]
    have hfol : Main.Follows choise pkg v ps { m with viewer := { m.viewer with sock := l } } :=
      ⟨h.here, hgot.output.trans h.output, h.printed, h.file, h.answer, h.bodies⟩
    rcases received_follows hwhole hκ.write (Nat.zero_lt_of_lt hfuel) hfol
      (p := filled p.frame) (by rwa [hlen]) with ⟨t, ht, hint, hfolt⟩ | ⟨r, hr, href, hret⟩
    · exact .inl ⟨t, ht, hint.trans hrest, hfolt⟩
    · exact .inr ⟨r, hr, href, hret.code, hret.file⟩

/-! ## The list -/

theorem fdsFrom_eq (hend : p.raspiFd 8 = 0) (j : ℕ) : ∀ i, i + j = 8 → ∀ n, j < n →
    fdsFrom p n i = some (((List.range' i j).map p.raspiFd).takeWhile (· ≠ 0)) := by
  induction j with
  | zero =>
    intro i hi n hn
    obtain ⟨m, rfl⟩ := Nat.exists_eq_add_of_lt hn
    obtain rfl : i = 8 := hi
    simp [fdsFrom, hend]
  | succ j ih =>
    intro i hi n hn
    obtain ⟨m, rfl⟩ : ∃ m, n = m + 1 := ⟨n - 1, by omega⟩
    rw [fdsFrom, List.range'_succ, List.map_cons, List.takeWhile_cons]
    by_cases hfd : p.raspiFd i = 0
    · simp [hfd]
    · rw [if_pos hfd, ih (i + 1) (by omega) m (by omega)]
      simp [hfd]

/-- A viewer prints the list that `handle_register_client_req` sends, and stays inside the packet.
-/
theorem printedFds_of_list (hcmd : p.cmd = PkgCmdType.registerClientRes.code)
    (hlen : p.len = sizeofRegisterClientRes) :
    printedFds (filled p.frame) = some p.readFds := by
  have hle : p.len ≤ bufSize := by
    rw [hlen]
    decide
  have htotal : p.total = 48 := by
    rw [total, hlen]
    rfl
  have hcmd' : (filled p.frame).cmd = p.cmd := word_copyFrame construct p hle (by omega)
  have hfds : (filled p.frame).raspiFds = p.raspiFds := by
    apply List.map_congr_left
    intro i hi
    rw [List.mem_range] at hi
    exact word_copyFrame construct p hle (by omega)
  have hend : (filled p.frame).raspiFd 8 = 0 := by
    have hzero : (filled p.frame).raspiFd 8 = construct.raspiFd 8 := by
      apply Buffer.word_congr
      intro k hk
      rw [get_filled _ (by simp only [sizeofPkg]; omega), List.getD_eq_default]
      · simp [construct]
      · rw [length_frame, htotal]
        omega
    rw [hzero]
    exact Buffer.word_zero _
  rw [printedFds, if_pos (hcmd'.trans hcmd), fdsFrom_eq hend 8 0 rfl _ (by decide), readFds, ← hfds,
    raspiFds, List.range_eq_range']

end Remote
namespace Server

open Pkg
open Remote (start mainRound)

variable {κ : Kernel} {fuel : ℕ} {s : Server} {c : Slot} {v : Remote.Viewer}

/-- While the output of the server is framed, `main` of a viewer follows the messages of its outbox
as far as their bytes have arrived. It waits for the next one, or returns because of it. -/
theorem viewer_follows (hκ : κ.Progresses) (hzero : ∀ i, κ.recv i 0 ≤ 0)
    (hwhole : ∀ i n, κ.send i n = n) (hfuel : sizeofPkg < fuel) (hr : Reachable s)
    (hG : s.Heeds FrameSafe) (hc : s.Live c) (hin : v.sock.input <+: s.sent (s.channel c).fd)
    (choise : ℕ) (pkg : Pkg) :
    ∃ m₀ n m, start κ fuel pkg v = some (.inl m₀) ∧
      Loop.rounds (mainRound κ fuel choise pkg) n m₀ = some m ∧
      n ≤ (s.calls.inbox (s.channel c).fd).length ∧
      m.Follows choise pkg v ((s.calls.inbox (s.channel c).fd).take n) ∧
      (0 < n → ∀ x, (s.calls.outbox (s.channel c).fd).head? = some x → m.Prints x.1) ∧
      (mainRound κ fuel choise pkg m = none ∧ (v.sock.input = s.sent (s.channel c).fd →
          n = (s.calls.inbox (s.channel c).fd).length) ∨
        ∃ p r, (s.calls.inbox (s.channel c).fd)[n]? = some p ∧
          mainRound κ fuel choise pkg m = some (.inr r) ∧
          Remote.Refused ((s.calls.inbox (s.channel c).fd).take n) p ∧ m.Returns r) := by
  obtain ⟨m₀, hm₀, hfollows, hin₀⟩ :=
    Remote.start_follows hwhole (Nat.zero_lt_of_lt hfuel) choise pkg v
  have hfeeds := inbox_feeds (s := s) (c := c) (mainRound κ fuel choise pkg)
    (fun m => m.viewer.sock) (fun ps m => m.Follows choise pkg v ps)
    (fun ps m p r => Remote.Refused ps p ∧ m.Returns r) .remote m₀ hκ hfuel hr hG hc ?_ ?_ hfollows
    (hin₀ ▸ hin)
  · obtain ⟨n, m, hrounds, hn, hm, hend⟩ := hfeeds
    refine ⟨m₀, n, m, hm₀, hrounds, hn, hm, ?_, ?_⟩
    · intro hpos x hx hcmd hlen
      obtain ⟨j, rfl⟩ : ∃ j, n = j + 1 := ⟨n - 1, by omega⟩
      rw [hm.printed, List.head?_take, if_neg (Nat.succ_ne_zero j), History.inbox, List.head?_map,
        hx]
      exact Remote.printedFds_of_list hcmd hlen
    · rwa [hin₀] at hend
  · intro m hnone
    have hrecv : Remote.recvPkg κ fuel m.viewer.sock = none := hnone
    simp only [mainRound, hrecv]
  · intro ps y _ m rest hm hlen hrest
    exact Remote.mainRound_follows hκ hzero hwhole hfuel hm hlen hrest

/-- `send` blocks until it has sent all bytes, and `recv` returns at most `m` of them. -/
def Kernel.blocking (m : ℕ) : Kernel := { Kernel.atMost m with send := fun _ n => n }

/-- The viewer got its two answers, and waits for the rest of a frame. -/
theorem viewer_follows_watched : ∃ m₀ m,
    start (Kernel.blocking 5) 1500 construct ⟨⟨(after watched).sent 6, [], 0, []⟩, [8], 0⟩ =
      some (.inl m₀) ∧
    Loop.rounds (mainRound (Kernel.blocking 5) 1500 5 construct) 2 m₀ = some m ∧
    mainRound (Kernel.blocking 5) 1500 5 construct m = none ∧ m.here = .watching ∧
    m.printed = some [5] ∧ m.viewer.file = [8] := by
  have hfd : ((after watched).channel 1).fd = 6 := by decide +kernel
  have hκ : (Kernel.blocking 5).Progresses := by
    refine ⟨?_, (Kernel.atMost_progresses (m := 5) (by decide)).recv, fun _ _ => rfl⟩
    intro i n hn
    simp only [Kernel.blocking]
    omega
  obtain ⟨m₀, n, m, hm₀, hrounds, hn, hfol, hprints, hend⟩ :=
    viewer_follows (s := after watched) (c := 1)
      (v := ⟨⟨(after watched).sent 6, [], 0, []⟩, [8], 0⟩) hκ (fun i => Reader.atMost_recv_le 5 i 0)
      (fun _ _ => rfl) (show sizeofPkg < 1500 by decide) (reachable_after _ (by decide +kernel))
      (by decide +kernel) (by decide +kernel) (by rw [hfd]) 5 construct
  rw [hfd] at hn hfol hprints hend
  have hlen : ((after watched).calls.inbox 6).length = 2 := by decide +kernel
  have hn2 : n = 2 := by
    rcases hend with ⟨-, hall⟩ | ⟨p, r, hp, -, href, -⟩
    · exact (hall rfl).trans hlen
    · have hnone : ∀ n < 2, ∀ p ∈ ((after watched).calls.inbox 6)[n]?,
          ¬ Remote.Refused (((after watched).calls.inbox 6).take n) p := by decide +kernel
      exact absurd href (hnone n (by
        obtain ⟨hlt, -⟩ := List.getElem?_eq_some_iff.1 hp
        omega) p hp)
  subst hn2
  rw [List.take_of_length_le hlen.le] at hfol hend
  have hhere := hfol.here
  rw [hlen] at hhere
  have hwait : mainRound (Kernel.blocking 5) 1500 5 construct m = none := by
    rcases hend with ⟨hnone, -⟩ | ⟨p, r, hp, -, -, -⟩
    · exact hnone
    · rw [List.getElem?_eq_none hlen.le] at hp
      cases hp
  refine ⟨m₀, m, hm₀, hrounds, hwait, hhere, ?_, ?_⟩
  · obtain ⟨x, hx, hcmd, hbody, hfds⟩ : ∃ x, ((after watched).calls.outbox 6).head? = some x ∧
        x.1.cmd = PkgCmdType.registerClientRes.code ∧ x.1.len = sizeofRegisterClientRes ∧
        x.1.readFds = [5] := by
      refine ⟨_, rfl, ?_, ?_, ?_⟩ <;> decide +kernel
    rw [hprints (by decide) x hx hcmd hbody, hfds]
  · rw [hfol.file, List.drop_of_length_le hlen.le]
    rfl

end Server

end WawaServer
