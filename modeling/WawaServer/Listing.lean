import WawaServer.Answers
import WawaServer.Registry
import Mathlib.Data.List.Sort

/-!
# The list of raspis

`handle_register_client_req` builds its reply in the requester's own send buffer. It writes the
head, the result and the first entries of `fd[8]`, one for each raspi, and leaves the entries after
them as they were; when it has written the eighth entry it gives up without a reply.
-/

namespace WawaServer

/-- What `remote.cpp` reads of `stRegisterClientRes.fd`: the entries before the first that is 0. -/
def Pkg.readFds (p : Pkg) : List ℕ := p.raspiFds.takeWhile (· ≠ 0)

/-- What is in `fd[n..8)` of the send buffer of `c`, byte for byte. -/
def Globals.leftover (s : Globals) (c : Slot) (n : ℕ) : List UInt8 :=
  Buffer.slice (s.channel c).sendCtx.pkg (16 + 4 * n) (32 - 4 * n)

namespace Pkg

/-- The entries are written one after the other. -/
theorem setRaspiFds_eq (p : Pkg) (i : ℕ) (fds : List ℕ) :
    p.setRaspiFds i fds = Buffer.write p (16 + 4 * i) (fds.flatMap Buffer.wordBytes) := by
  induction fds generalizing p i with
  | nil => exact (Buffer.write_nil p _).symm
  | cons fd fds ih =>
    rw [setRaspiFds, ih, List.flatMap_cons, ← Buffer.write_append]
    rfl

end Pkg

namespace Server

variable {s t u : Server} {c d : Slot} {p pkg r : Pkg} {ty : ClientType} {fd n x : ℕ}

/-! ## The bytes of a reply -/

/-- The head and the result do not depend on what was in the buffer. -/
theorem get_registerRes (p q : Pkg) (fd : ℕ) {i : ℕ} (hi : i < 16) :
    Buffer.get (registerRes p fd) i = Buffer.get (registerRes q fd) i := by
  have hn : i < sizeofPkg := by simp only [sizeofPkg]; omega
  simp only [registerRes, Pkg.setResult, Pkg.setLen, Pkg.setFd, Pkg.setCmd, Buffer.setWord,
    Buffer.get_write _ _ _ _ hn]
  split_ifs with h12 h4 h8 h0
  any_goals rfl
  -- each of the 16 bytes is written
  simp only [Buffer.length_wordBytes] at h12 h4 h8 h0
  omega

theorem get_registerRes_of_le (p : Pkg) (fd : ℕ) {i : ℕ} (hi : 16 ≤ i) :
    Buffer.get (registerRes p fd) i = Buffer.get p i := by
  have hset : ∀ (q : Pkg) (off v : ℕ), off + 4 ≤ 16 →
      Buffer.get (Buffer.setWord q off v) i = Buffer.get q i := fun q off v h =>
    Buffer.get_write_of_outside q off _ (.inr (by rw [Buffer.length_wordBytes]; omega))
  simp only [registerRes, Pkg.setResult, Pkg.setLen, Pkg.setFd, Pkg.setCmd, hset, Nat.reduceAdd,
    Nat.reduceLeDiff]

theorem length_flatMap_wordBytes (fds : List ℕ) :
    (fds.flatMap Buffer.wordBytes).length = 4 * fds.length := by
  induction fds with
  | nil => rfl
  | cons fd fds ih =>
    rw [List.flatMap_cons, List.length_append, ih, Buffer.length_wordBytes, List.length_cons]
    omega

/-- Two replies with the same list differ in the entries after it at most. -/
theorem frame_setRaspiFds (p q : Pkg) (fd : ℕ) {fds : List ℕ} (hlen : fds.length ≤ 8) :
    ((registerRes p fd).setRaspiFds 0 fds).frame = ((registerRes q fd).setRaspiFds 0 fds).frame ↔
      Buffer.slice p (16 + 4 * fds.length) (32 - 4 * fds.length) =
        Buffer.slice q (16 + 4 * fds.length) (32 - 4 * fds.length) := by
  have hbytes := length_flatMap_wordBytes fds
  -- the frame is what was written and what was there
  have hframe : ∀ p : Pkg, ((registerRes p fd).setRaspiFds 0 fds).frame =
      Buffer.slice ((registerRes p fd).setRaspiFds 0 fds) 0 (16 + 4 * fds.length) ++
        Buffer.slice p (16 + 4 * fds.length) (32 - 4 * fds.length) := by
    intro p
    have htotal : ((registerRes p fd).setRaspiFds 0 fds).total =
        16 + 4 * fds.length + (32 - 4 * fds.length) := by
      rw [Pkg.total, len_setRaspiFds, len_registerRes]
      simp only [sizeofRegisterClientRes, sizeofHead]
      omega
    rw [Pkg.frame, htotal, Buffer.slice_add, Nat.zero_add]
    congr 1
    apply Buffer.slice_congr _ _ _ _ _
    intro k _
    rw [Pkg.setRaspiFds_eq, Buffer.get_write_of_outside _ _ _ (.inr (by omega)),
      get_registerRes_of_le _ _ (by omega)]
  have hsame : Buffer.slice ((registerRes p fd).setRaspiFds 0 fds) 0 (16 + 4 * fds.length) =
      Buffer.slice ((registerRes q fd).setRaspiFds 0 fds) 0 (16 + 4 * fds.length) := by
    apply Buffer.slice_congr _ _ _ _ _
    intro k hk
    have hn : 0 + k < sizeofPkg := by simp only [sizeofPkg]; omega
    rw [Pkg.setRaspiFds_eq, Pkg.setRaspiFds_eq, Buffer.get_write _ _ _ _ hn,
      Buffer.get_write _ _ _ _ hn]
    split_ifs with hin
    · rfl
    · exact get_registerRes p q fd (by omega)
  rw [hframe p, hframe q, hsame, List.append_cancel_left_eq]

/-! ## Requests -/

/-- The register request `p` arrives on the connection of `c`, in whatever pieces, and is handled.
-/
structure Registers (s t : Server) (c : Slot) (p : Pkg) : Prop where
  reachable : Reachable s
  live : s.Live c
  step : ∃ bs q, s.step (.recv c (.data bs) q) = some t ∧ p = Pkg.filled (s.arrived c ++ bs) ∧
    p.frame = s.arrived c ++ bs
  len : p.len ≤ bufSize
  fd : p.fd = 0
  cmd : p.cmd = PkgCmdType.registerClientReq.code

/-- From `s` to `u` nothing was done that a reply to a register request depends on. -/
structure Unlisted (s u : Server) : Prop where
  map : u.channelMap = s.channelMap
  fd : ∀ d, (u.channel d).fd = (s.channel d).fd
  status : ∀ d, (u.channel d).status = (s.channel d).status
  type : ∀ d, (u.channel d).type = (s.channel d).type
  send : ∀ d, (u.channel d).sendCtx = (s.channel d).sendCtx
  answers : u.calls.registerAnswers = s.calls.registerAnswers

theorem Unlisted.raspisFor (h : Unlisted s u) (c : Slot) : u.raspisFor c = s.raspisFor c := by
  simp only [Globals.raspisFor, h.map, h.status, h.type]

theorem Unlisted.registration (h : Unlisted s u) (pkg : Pkg) (c : Slot) (ty : ClientType) :
    u.registration pkg c ty = s.registration pkg c ty := by
  have hlist : u.listed c ty = s.listed c ty := by
    cases ty with
    | raspi => rfl
    | remote => simp only [Globals.listed, h.raspisFor, h.fd]
  rw [Server.registration, Server.registration, h.send, hlist]

theorem stored_unlisted (s : Server) (c : Slot) (bs : List UInt8) (q : ℕ → List SendResult) :
    Unlisted s (s.stored c bs q) := by
  have hst := stored_steady s c bs q
  exact {
    map := (store_globals _ c bs).1
    fd := hst.fd
    status := fun d => by
      unfold stored store
      simp only
      split <;> simp
    type := hst.type
    send := fun d => store_sendCtx _ c d bs
    answers := by
      rw [stored_calls]
      rfl }

theorem response_registerAnswers (s : Server) (h : p.cmd = PkgCmdType.registerClientRes.code) :
    (s.response p).1.calls.registerAnswers = p :: s.calls.registerAnswers := by
  have hp : History.registerAnswers ((.response p, s.toGlobals) :: s.calls) =
      p :: s.calls.registerAnswers := if_pos h
  obtain h | ⟨c, g, h⟩ := s.response_calls p
  · rw [h, hp]
  · rw [h]
    exact hp

theorem cmd_registration (s : Server) (pkg : Pkg) (c : Slot) (ty : ClientType) :
    (s.registration pkg c ty).cmd = PkgCmdType.registerClientRes.code := by
  rw [registration, cmd_setRaspiFds]
  simp [registerRes]

/-- The answer to a request of `c` that declares `ty`, if there is one. -/
theorem handleRegisterClientReq_answers (hs : s.Sound) (hc : s.channelMap[pkg.fd]? = some c)
    (hty : pkg.clientType = ty.code) :
    (s.handleRegisterClientReq pkg).1.calls.registerAnswers =
      if ty = .remote ∧ 8 ≤ (s.raspisFor c).length then s.calls.registerAnswers
      else s.registration pkg c ty :: s.calls.registerAnswers := by
  rcases s.handleRegisterClientReq_cases pkg with
    ⟨-, hno⟩ | ⟨c', ty', hc', hty', ⟨h, hfew⟩ | ⟨rfl, hfull, h⟩⟩
  · rw [registers_of_code hty, hs.lookup_eq, hc] at hno
    rcases hno with hno | hno <;> cases hno
  all_goals
    obtain rfl : c' = c := Option.some.inj (hc'.symm.trans ((hs.lookup_eq _).trans hc))
    obtain rfl := Option.some.inj ((registers_of_code hty').symm.trans (registers_of_code hty))
  · rw [h, if_neg fun hfull => absurd (hfew hfull.1) (by omega)]
    exact response_registerAnswers _ (cmd_registration ..)
  · rw [h, if_pos ⟨rfl, hfull⟩]
    rfl

/-- A request that declares no valid type is not answered. -/
theorem handleRegisterClientReq_unanswered (hno : pkg.registers = none) :
    (s.handleRegisterClientReq pkg).1.calls.registerAnswers = s.calls.registerAnswers := by
  rcases s.handleRegisterClientReq_cases pkg with ⟨h, -⟩ | ⟨c, ty, -, hty, -⟩
  · rw [h]
    rfl
  · cases (registers_of_code hty).symm.trans hno

/-- The handler is called with the descriptor that the request came on. -/
theorem Registers.handled (h : Registers s t c p) : ∃ u pkg, u.Sound ∧ Unlisted s u ∧
    t.calls.registerAnswers = (u.handleRegisterClientReq pkg).1.calls.registerAnswers ∧
      pkg.fd = (s.channel c).fd ∧ pkg.clientType = p.clientType := by
  obtain ⟨bs, q, hstep, hp, hframe⟩ := h.step
  obtain ⟨pre, hun, ha⟩ := assembling_of_reachable h.reachable h.live
  rw [arrived_eq ha hun] at hp hframe
  have hv := stored_unlisted s c bs q
  obtain ⟨hS, hst, heq⟩ := step_whole h.reachable.sound hstep ha hun h.len hframe
  have hpkg : ((s.stored c bs q).channel c).recvCtx.pkg = p := by rw [hst.pkg, hframe, ← hp]
  generalize s.stored c bs q = v at *
  have hown : (v.channel c).recvCtx.io.fd = (s.channel c).fd :=
    ((hS.slot c).recvFd).trans (hv.fd c)
  have hlt : (s.channel c).fd < 4294967296 := by
    rw [← hv.fd c]
    exact (hS.slot c).fd_lt.trans (by decide)
  have hroute := route_of_request (s := v) (c := c) (by rw [hpkg, h.fd])
  rw [hpkg, hown] at hroute
  have hcmd : (p.setFd (s.channel c).fd).cmd = PkgCmdType.registerClientReq.code := by
    rw [Pkg.cmd_setFd, h.cmd]
  refine ⟨((v.setRecvPkg c (p.setFd (s.channel c).fd)).enter
    (.routed c (p.setFd (s.channel c).fd))).enter (.handle (p.setFd (s.channel c).fd)),
    p.setFd (s.channel c).fd, ((hS.setRecvPkg c _).enter _).enter _, ?_, ?_, Pkg.fd_setFd hlt,
    Buffer.word_setWord_of_outside _ _ _ (.inr (by decide))⟩
  · exact ⟨hv.map, by simpa using hv.fd, by simpa using hv.status, by simpa using hv.type,
      by simpa using hv.send, hv.answers⟩
  · rw [heq]
    show (v.route c).calls.registerAnswers = _
    rw [hroute]
    unfold handle
    simp only
    rw [if_pos hcmd]

/-! ## The list -/

/-- `x` is the descriptor of a live channel of type `CTYPE_RASPI`. -/
def HasRaspi (s : Server) (x : ℕ) : Prop :=
  ∃ d, s.channelMap[x]? = some d ∧ (s.channel d).type = .raspi

/-- The descriptors of the raspis are met in the order of `channel_map`. -/
theorem raspis_sorted (hs : s.Sound) (c : Slot) :
    ((s.raspisFor c).map fun e => (s.channel e.2).fd).Pairwise (· < ·) := by
  apply List.pairwise_map.2
  have hkeys := List.Pairwise.filter (fun e : ℕ × Slot => decide ((s.channel e.2).status = .active ∧
    (s.channel e.2).type = .raspi ∧ e.2 ≠ c)) (Std.ExtTreeMap.ordered_keys_toList (t := s.channelMap))
  refine List.Pairwise.imp_of_mem (fun {a b} ha hb hab => ?_) hkeys
  rw [hs.fd_eq ((mem_raspisFor hs).1 ha).1, hs.fd_eq ((mem_raspisFor hs).1 hb).1]
  exact Nat.compare_eq_lt.1 hab

theorem mem_raspis (hs : s.Sound) (hl : s.Live c) :
    x ∈ ((s.raspisFor c).map fun e => (s.channel e.2).fd) ↔ x ≠ (s.channel c).fd ∧ s.HasRaspi x := by
  rw [List.mem_map]
  constructor
  · rintro ⟨e, he, rfl⟩
    obtain ⟨hm, hty, hec⟩ := (mem_raspisFor hs).1 he
    rw [hs.fd_eq hm]
    refine ⟨?_, e.2, hm, hty⟩
    intro heq
    rw [heq, hl] at hm
    exact hec (Option.some.inj hm).symm
  · rintro ⟨hne, d, hm, hty⟩
    refine ⟨(x, d), (mem_raspisFor hs).2 ⟨hm, hty, ?_⟩, hs.fd_eq hm⟩
    rintro rfl
    exact hne (hs.fd_eq hm).symm

/-- So two states with the same raspis list them alike. -/
theorem raspis_congr (hs : s.Sound) (hl : s.Live c) {s' : Server} {c' : Slot} (hs' : s'.Sound)
    (hl' : s'.Live c') (hfd : (s.channel c).fd = (s'.channel c').fd)
    (hsame : ∀ x, s.HasRaspi x ↔ s'.HasRaspi x) :
    ((s.raspisFor c).map fun e => (s.channel e.2).fd) =
      (s'.raspisFor c').map fun e => (s'.channel e.2).fd := by
  apply (raspis_sorted hs c).eq_of_mem_iff (raspis_sorted hs' c')
  intro x
  rw [mem_raspis hs hl, mem_raspis hs' hl', hfd, hsame]

theorem listed_sorted (hs : s.Sound) (c : Slot) (ty : ClientType) :
    (s.listed c ty).Pairwise (· < ·) := by
  cases ty with
  | raspi => exact List.Pairwise.nil
  | remote => exact (raspis_sorted hs c).take

theorem length_listed (hfew : (s.raspisFor c).length ≤ 8) :
    (s.listed c .remote).length = (s.raspisFor c).length := by
  rw [Globals.listed, List.length_take, List.length_map]
  exact Nat.min_eq_right hfew

theorem mem_listed (hs : s.Sound) (hl : s.Live c) (hfew : (s.raspisFor c).length ≤ 8) :
    x ∈ s.listed c .remote ↔ x ≠ (s.channel c).fd ∧ s.HasRaspi x := by
  rw [Globals.listed, List.take_of_length_le (by rwa [List.length_map]), mem_raspis hs hl]

/-- The answer to a register request of `c` that declares `ty`. -/
def registerReply (s : Server) (c : Slot) (ty : ClientType) : Pkg :=
  (registerRes (s.channel c).sendCtx.pkg (s.channel c).fd).setRaspiFds 0 (s.listed c ty)

theorem raspiFds_registerReply (hs : s.Sound) (c : Slot) (ty : ClientType) :
    (s.registerReply c ty).raspiFds = s.listed c ty ++
      (s.channel c).sendCtx.pkg.raspiFds.drop (s.listed c ty).length := by
  rw [registerReply, Pkg.raspiFds_setRaspiFds _ (fun x hx => (listed_lt hs c ty x hx).2)
    (length_listed_le s c ty), raspiFds_registerRes]

theorem fd_registerReply (hs : s.Sound) (c : Slot) (ty : ClientType) :
    (s.registerReply c ty).fd = (s.channel c).fd := by
  rw [registerReply, fd_setRaspiFds]
  exact fd_registerRes _ ((hs.slot c).fd_lt.trans (by decide))

theorem Registers.answers (h : Registers s t c p) (hty : p.clientType = ty.code) :
    t.calls.registerAnswers =
      if ty = .remote ∧ 8 ≤ (s.raspisFor c).length then s.calls.registerAnswers
      else s.registerReply c ty :: s.calls.registerAnswers := by
  obtain ⟨u, pkg, hu, hun, hans, hfd, hct⟩ := h.handled
  have hc : u.channelMap[pkg.fd]? = some c := by
    rw [hun.map, hfd]
    exact h.live
  rw [hans, handleRegisterClientReq_answers hu hc (hct.trans hty), hun.raspisFor, hun.answers,
    hun.registration, registration, hfd, ← registerReply]

theorem Registers.unanswered (h : Registers s t c p) (hno : p.registers = none) :
    t.calls.registerAnswers = s.calls.registerAnswers := by
  obtain ⟨u, pkg, -, hun, hans, -, hct⟩ := h.handled
  rw [hans, handleRegisterClientReq_unanswered, hun.answers]
  rw [Pkg.registers, hct]
  exact hno

/-! ## A list that is complete -/

/-- From `s` to `t` one answer to a register request is handed to `response`, for the connection of
`c`, and each raspi but `c` itself is in it once. -/
def ListSent (s t : Server) (c : Slot) : Prop :=
  ∃ r, t.calls.registerAnswers = r :: s.calls.registerAnswers ∧ r.fd = (s.channel c).fd ∧
    ∀ x, x ≠ (s.channel c).fd → s.HasRaspi x → r.raspiFds.count x = 1

/-- A remote gets the list of at most eight raspis exactly if they are at most seven and none of the
entries after theirs is left with the descriptor of one of them. -/
theorem raspis_listed (h : Registers s t c p) (hty : p.clientType = ClientType.remote.code)
    (hfew : (s.raspisFor c).length ≤ 8) :
    ListSent s t c ↔ (s.raspisFor c).length < 8 ∧
      ∀ i, (s.raspisFor c).length ≤ i → i < 8 → ∀ x, x ≠ (s.channel c).fd → s.HasRaspi x →
        (s.channel c).sendCtx.pkg.raspiFd i ≠ x := by
  have hs := h.reachable.sound
  have hans := h.answers hty
  have hmem := fun x => mem_listed (x := x) hs h.live hfew
  have hlen := length_listed hfew
  have hfds := raspiFds_registerReply hs c .remote
  rw [hlen] at hfds
  -- a raspi is once in the part of the list that is written
  have hcount : ∀ x ∈ s.listed c .remote, (s.registerReply c .remote).raspiFds.count x = 1 ↔
      x ∉ (s.channel c).sendCtx.pkg.raspiFds.drop (s.raspisFor c).length := by
    intro x hx
    have hnodup := (listed_sorted hs c .remote).imp fun {a b} (hab : a < b) => hab.ne
    rw [hfds, List.count_append, List.count_eq_one_of_mem hnodup hx, ← List.count_eq_zero]
    omega
  have hdrop : ∀ x, x ∈ (s.channel c).sendCtx.pkg.raspiFds.drop (s.raspisFor c).length ↔
      ∃ i, (s.raspisFor c).length ≤ i ∧ i < 8 ∧ (s.channel c).sendCtx.pkg.raspiFd i = x := by
    intro x
    rw [List.mem_drop_iff_getElem]
    constructor
    · rintro ⟨i, hi, rfl⟩
      rw [Pkg.length_raspiFds] at hi
      exact ⟨_, Nat.le_add_right .., by omega, (Pkg.getElem_raspiFds ..).symm⟩
    · rintro ⟨i, hle, hi, rfl⟩
      refine ⟨i - (s.raspisFor c).length, by rw [Pkg.length_raspiFds]; omega, ?_⟩
      rw [Pkg.getElem_raspiFds, Nat.add_sub_cancel' hle]
  by_cases hfull : 8 ≤ (s.raspisFor c).length
  · -- the eighth raspi: no answer
    rw [if_pos ⟨rfl, hfull⟩] at hans
    refine ⟨fun ⟨r, hr, _⟩ => ?_, fun hlt => absurd hlt.1 (by omega)⟩
    have hlen := congrArg List.length (hans.symm.trans hr)
    simp at hlen
  · rw [if_neg fun hno => hfull hno.2] at hans
    constructor
    · rintro ⟨r, hr, -, hall⟩
      obtain ⟨rfl, -⟩ := List.cons.inj (hans.symm.trans hr)
      refine ⟨by omega, fun i hle hi x hne hx heq => ?_⟩
      exact (hcount x ((hmem x).2 ⟨hne, hx⟩)).1 (hall x hne hx) ((hdrop x).2 ⟨i, hle, hi, heq⟩)
    · rintro ⟨-, hno⟩
      refine ⟨_, hans, fd_registerReply hs c .remote, fun x hne hx => ?_⟩
      apply (hcount x ((hmem x).2 ⟨hne, hx⟩)).2
      intro hin
      obtain ⟨i, hle, hi, heq⟩ := (hdrop x).1 hin
      exact hno i hle hi x hne hx heq

/-- The bytes of the request of a remote. -/
def remoteReq : List UInt8 :=
  Pkg.encode .registerClientReq 0 (Buffer.wordBytes ClientType.remote.code)

/-- The head of that request arrives on `c`, and then its body. -/
def remoteHead (c : Slot) : Event := .recv c (.data (remoteReq.take sizeofHead)) Event.takesAll

def remoteBody (c : Slot) : Event := .recv c (.data (remoteReq.drop sizeofHead)) Event.takesAll

theorem registers_remote {es : List Event} (hc : (after (es ++ [remoteHead c])).Live c)
    (h : (Runs.run step boot (es ++ [remoteHead c])).isSome = true)
    (h' : (Runs.run step boot (es ++ [remoteHead c] ++ [remoteBody c])).isSome = true)
    (harr : (after (es ++ [remoteHead c])).arrived c = remoteReq.take sizeofHead) :
    Registers (after (es ++ [remoteHead c])) (after (es ++ [remoteHead c] ++ [remoteBody c])) c
      (Pkg.filled remoteReq) where
  reachable := reachable_after _ h
  live := hc
  step := by
    refine ⟨remoteReq.drop sizeofHead, Event.takesAll, step_after _ _ h', ?_, ?_⟩
    · rw [harr, List.take_append_drop]
    · rw [harr, List.take_append_drop]
      decide +kernel
  len := by decide +kernel
  fd := by decide +kernel
  cmd := by decide +kernel

/-- A raspi is connected, and then a remote. -/
def raspiThenRemote : List Event := [.accept 5, .accept 6]

theorem raspis_listed_one : ListSent (after (raspiThenRemote ++ [remoteHead 1]))
    (after (raspiThenRemote ++ [remoteHead 1] ++ [remoteBody 1])) 1 := by
  refine (raspis_listed (registers_remote (by decide +kernel) (by decide +kernel)
    (by decide +kernel) (by decide +kernel)) (by decide +kernel) (by decide +kernel)).2
      ⟨by decide +kernel, fun i hle hi x hne hx heq => ?_⟩
  have hzero : ∀ i, i < 8 →
      ((after (raspiThenRemote ++ [remoteHead 1])).channel 1).sendCtx.pkg.raspiFd i = 0 := by
    decide +kernel
  rw [hzero i hi] at heq
  obtain ⟨d, hd, -⟩ := hx
  exact (reachable_after _ (by decide +kernel)).sound.fd_ne_zero hd heq.symm

/-- Eight clients are connected, and then a remote. -/
def eightRaspis : List Event := (List.range 9).map fun i => .accept (5 + i)

theorem raspis_unlisted : ¬ ∀ s t c p, Registers s t c p →
    p.clientType = ClientType.remote.code → (s.raspisFor c).length ≤ 8 → ListSent s t c := by
  intro h
  have hregs : Registers (after (eightRaspis ++ [remoteHead 8]))
      (after (eightRaspis ++ [remoteHead 8] ++ [remoteBody 8])) 8 (Pkg.filled remoteReq) :=
    registers_remote (by decide +kernel) (by decide +kernel) (by decide +kernel) (by decide +kernel)
  obtain ⟨r, hr, -⟩ := h _ _ 8 _ hregs (by decide +kernel) (by decide +kernel)
  have hlen := congrArg List.length hr
  rw [List.length_cons] at hlen
  exact absurd hlen (by decide +kernel)

/-! ## A list without leftovers -/

/-- From `s` to `t` the answer `r` to a register request was handed to `response`. -/
def Replied (s t : Server) (r : Pkg) : Prop := t.calls.registerAnswers = r :: s.calls.registerAnswers

/-- What a remote on `c` reads of `r` are the descriptors of the raspis, each of them once. -/
structure ReadsRaspis (s : Server) (c : Slot) (r : Pkg) : Prop where
  nodup : r.readFds.Nodup
  mem : ∀ x, x ∈ r.readFds ↔ x ≠ (s.channel c).fd ∧ s.HasRaspi x

/-- Two runs that see the same raspis answer the request `p` in the same way: both or neither, with
the same bytes, and if `p` is that of a remote, with the list of the raspis. -/
structure SameReply (s t s' t' : Server) (c c' : Slot) (p : Pkg) : Prop where
  both : (∃ r, Replied s t r) ↔ ∃ r, Replied s' t' r
  frame : ∀ r r', Replied s t r → Replied s' t' r' → r.frame = r'.frame
  exact : p.clientType = ClientType.remote.code → (∀ r, Replied s t r → ReadsRaspis s c r) ∧
    ∀ r, Replied s' t' r → ReadsRaspis s' c' r

theorem readFds_registerReply (hs : s.Sound) (c : Slot) (ty : ClientType) :
    (s.registerReply c ty).readFds = s.listed c ty ++
      ((s.channel c).sendCtx.pkg.raspiFds.drop (s.listed c ty).length).takeWhile (· ≠ 0) := by
  rw [Pkg.readFds, raspiFds_registerReply hs, List.takeWhile_append_of_pos]
  intro x hx
  have hpos := (listed_lt hs c ty x hx).1
  simp only [ne_eq, decide_eq_true_eq]
  omega

/-- A remote reads the raspis and no more exactly if the entry after theirs is left with 0. -/
theorem readsRaspis_iff (hs : s.Sound) (hl : s.Live c) (hfew : (s.raspisFor c).length < 8) :
    ReadsRaspis s c (s.registerReply c .remote) ↔
      (s.channel c).sendCtx.pkg.raspiFd (s.raspisFor c).length = 0 := by
  have hread := readFds_registerReply hs c .remote
  have hmem := fun x => mem_listed (x := x) hs hl hfew.le
  have hnodup := (listed_sorted hs c .remote).imp fun {a b} (hab : a < b) => hab.ne
  rw [length_listed hfew.le, List.drop_eq_getElem_cons (by rwa [Pkg.length_raspiFds]),
    Pkg.getElem_raspiFds, List.takeWhile_cons] at hread
  by_cases h0 : (s.channel c).sendCtx.pkg.raspiFd (s.raspisFor c).length = 0
  · refine ⟨fun _ => h0, fun _ => ?_⟩
    rw [if_neg (by simp [h0]), List.append_nil] at hread
    exact ⟨hread ▸ hnodup, fun x => hread ▸ hmem x⟩
  · -- the entry is read, as a raspi that is not there or once more
    refine ⟨fun h => ?_, fun h => absurd h h0⟩
    rw [if_pos (by simpa using h0)] at hread
    have hin : (s.channel c).sendCtx.pkg.raspiFd (s.raspisFor c).length ∈ s.listed c .remote := by
      refine (hmem _).2 ((h.mem _).1 ?_)
      rw [hread]
      exact List.mem_append_right _ List.mem_cons_self
    have hdup := h.nodup
    rw [hread] at hdup
    exact absurd rfl ((List.nodup_append.1 hdup).2.2 _ hin _ List.mem_cons_self)

theorem Registers.replied_iff (h : Registers s t c p) (hty : p.clientType = ty.code) :
    Replied s t r ↔ r = s.registerReply c ty ∧ (ty = .remote → (s.raspisFor c).length < 8) := by
  rw [Replied, h.answers hty]
  split_ifs with hfull
  · constructor
    · intro heq
      have hlen := congrArg List.length heq
      simp at hlen
    · rintro ⟨-, hfew⟩
      exact absurd (hfew hfull.1) (by omega)
  · rw [List.cons.injEq]
    constructor
    · rintro ⟨rfl, -⟩
      exact ⟨rfl, fun hre => by by_contra hle; exact hfull ⟨hre, by omega⟩⟩
    · rintro ⟨rfl, -⟩
      exact ⟨rfl, rfl⟩

/-- The answers to one request in two states differ in what is left in the buffers at most. -/
theorem frame_registerReply {s' : Server} {c' : Slot} (hfd : (s.channel c).fd = (s'.channel c').fd)
    (hlist : s.listed c ty = s'.listed c' ty) :
    (s.registerReply c ty).frame = (s'.registerReply c' ty).frame ↔
      s.leftover c (s.listed c ty).length = s'.leftover c' (s.listed c ty).length := by
  rw [registerReply, registerReply, ← hfd, ← hlist]
  exact frame_setRaspiFds _ _ _ (length_listed_le s c ty)

theorem raspiFd_of_leftover {s s' : Globals} {c c' : Slot} (hn : n < 8)
    (h : s.leftover c n = s'.leftover c' n) :
    (s.channel c).sendCtx.pkg.raspiFd n = (s'.channel c').sendCtx.pkg.raspiFd n := by
  apply Buffer.word_congr _ _ _ _
  intro k hk
  have hget := congrArg (fun bs => bs.getD k 0) h
  simp only [Globals.leftover] at hget
  rwa [Buffer.getD_slice _ _ _ (by omega), Buffer.getD_slice _ _ _ (by omega)] at hget

theorem code_of_registers (h : p.registers = some ty) : p.clientType = ty.code := by
  unfold Pkg.registers at h
  split_ifs at h with hra hre
  · rwa [← Option.some.inj h]
  · rwa [← Option.some.inj h]

/-- Two runs answer a register request in the same way exactly if the buffers of the requester are
left with the same bytes after the list, and, if there is a list, with the entry 0 after it. -/
theorem replies_same {s' t' : Server} {c' : Slot} (h : Registers s t c p)
    (h' : Registers s' t' c' p) (hfd : (s.channel c).fd = (s'.channel c').fd)
    (hsame : ∀ x, s.HasRaspi x ↔ s'.HasRaspi x) :
    SameReply s t s' t' c c' p ↔ ∀ ty, p.registers = some ty →
      (ty = .remote → (s.raspisFor c).length < 8) →
        s.leftover c (s.listed c ty).length = s'.leftover c' (s.listed c ty).length ∧
        (ty = .remote → (s.channel c).sendCtx.pkg.raspiFd (s.listed c ty).length = 0) := by
  have hs := h.reachable.sound
  have hs' := h'.reachable.sound
  have hraspis := raspis_congr hs h.live hs' h'.live hfd hsame
  have hlen : (s.raspisFor c).length = (s'.raspisFor c').length := by
    simpa using congrArg List.length hraspis
  cases hreg : p.registers with
  | none =>
    -- no valid type, and no answer
    have hno : ∀ r, ¬ Replied s t r := fun r hr => by
      have hlen := congrArg List.length ((h.unanswered hreg).symm.trans hr)
      simp at hlen
    have hno' : ∀ r, ¬ Replied s' t' r := fun r hr => by
      have hlen := congrArg List.length ((h'.unanswered hreg).symm.trans hr)
      simp at hlen
    refine ⟨fun _ ty hty => (Option.some_ne_none ty hty.symm).elim, fun _ =>
      ⟨?_, fun r _ hr => absurd hr (hno r), fun _ =>
        ⟨fun r hr => absurd hr (hno r), fun r hr => absurd hr (hno' r)⟩⟩⟩
    exact ⟨fun ⟨r, hr⟩ => absurd hr (hno r), fun ⟨r, hr⟩ => absurd hr (hno' r)⟩
  | some ty =>
    have hty := code_of_registers hreg
    have hr := fun r => h.replied_iff (r := r) hty
    have hr' := fun r => h'.replied_iff (r := r) hty
    have hlist : s.listed c ty = s'.listed c' ty := by
      cases ty with
      | raspi => rfl
      | remote => exact congrArg (List.take 8) hraspis
    have hframe := frame_registerReply hfd hlist
    constructor
    · intro hall ty' heq hfew
      obtain rfl := Option.some.inj heq
      have hrep := (hr _).2 ⟨rfl, hfew⟩
      have hrep' := (hr' _).2 ⟨rfl, fun hre => hlen ▸ hfew hre⟩
      refine ⟨hframe.1 (hall.frame _ _ hrep hrep'), ?_⟩
      rintro rfl
      rw [length_listed (hfew rfl).le]
      exact (readsRaspis_iff hs h.live (hfew rfl)).1 ((hall.exact hty).1 _ hrep)
    · intro hleft
      refine ⟨⟨fun ⟨r, h₁⟩ => ⟨_, (hr' _).2 ⟨rfl, fun hre => hlen ▸ ((hr r).1 h₁).2 hre⟩⟩,
        fun ⟨r, h₁⟩ => ⟨_, (hr _).2 ⟨rfl, fun hre => hlen ▸ ((hr' r).1 h₁).2 hre⟩⟩⟩,
        fun r r' h₁ h₂ => ?_, fun hcode => ?_⟩
      · obtain ⟨rfl, hfew⟩ := (hr r).1 h₁
        obtain ⟨rfl, -⟩ := (hr' r').1 h₂
        exact hframe.2 (hleft ty rfl hfew).1
      · obtain rfl : ty = .remote := by
          cases ty with
          | raspi => rw [hty] at hcode; cases hcode
          | remote => rfl
        refine ⟨fun r h₁ => ?_, fun r h₁ => ?_⟩
        · obtain ⟨rfl, hfew⟩ := (hr r).1 h₁
          have hzero := (hleft _ rfl hfew).2 rfl
          rw [length_listed (hfew rfl).le] at hzero
          exact (readsRaspis_iff hs h.live (hfew rfl)).2 hzero
        · obtain ⟨rfl, hfew⟩ := (hr' r).1 h₁
          -- the entries are the same in both buffers
          have hfew' := hfew rfl
          obtain ⟨hbytes, hzero⟩ := hleft _ rfl fun _ => by omega
          have hzero := hzero rfl
          rw [length_listed (by omega), hlen] at hbytes hzero
          rw [raspiFd_of_leftover hfew' hbytes] at hzero
          exact (readsRaspis_iff hs' h'.live hfew').2 hzero

theorem hasRaspi_iff : s.HasRaspi x ↔
    x ∈ (s.channelMap.toList.filter fun e => (s.channel e.2).type = .raspi).map Prod.fst := by
  rw [List.mem_map]
  constructor
  · rintro ⟨d, hm, hty⟩
    refine ⟨(x, d), List.mem_filter.2 ⟨Std.ExtTreeMap.mem_toList_iff_getElem?_eq_some.2 hm, ?_⟩, rfl⟩
    simpa using hty
  · rintro ⟨⟨x, d⟩, he, rfl⟩
    obtain ⟨hm, hty⟩ := List.mem_filter.1 he
    exact ⟨d, Std.ExtTreeMap.mem_toList_iff_getElem?_eq_some.1 hm, by simpa using hty⟩

/-- A remote is connected, and then a raspi. -/
def remoteThenRaspi : List Event := [.accept 6, .accept 5]

theorem replies_same_order : SameReply (after (raspiThenRemote ++ [remoteHead 1]))
    (after (raspiThenRemote ++ [remoteHead 1] ++ [remoteBody 1])) (after (remoteThenRaspi ++ [remoteHead 0]))
    (after (remoteThenRaspi ++ [remoteHead 0] ++ [remoteBody 0])) 1 0 (Pkg.filled remoteReq) := by
  refine (replies_same (registers_remote (by decide +kernel) (by decide +kernel)
    (by decide +kernel) (by decide +kernel)) (registers_remote (by decide +kernel)
    (by decide +kernel) (by decide +kernel) (by decide +kernel)) (by decide +kernel)
    fun x => ?_).2 fun ty hty _ => ?_
  · have hlists : ((after (raspiThenRemote ++ [remoteHead 1])).channelMap.toList.filter fun e =>
        ((after (raspiThenRemote ++ [remoteHead 1])).channel e.2).type = .raspi).map Prod.fst =
        ((after (remoteThenRaspi ++ [remoteHead 0])).channelMap.toList.filter fun e =>
        ((after (remoteThenRaspi ++ [remoteHead 0])).channel e.2).type = .raspi).map Prod.fst := by
      decide +kernel
    rw [hasRaspi_iff, hasRaspi_iff, hlists]
  · have hreg : (Pkg.filled remoteReq).registers = some .remote := by decide +kernel
    obtain rfl := Option.some.inj (hreg.symm.trans hty)
    exact ⟨by decide +kernel, fun _ => by decide +kernel⟩

/-- A remote registers while a raspi is there, and the raspi leaves. -/
def raspiGone : List Event :=
  [.accept 5, .accept 6, remoteHead 1, remoteBody 1, .recv 0 .closed Event.takesAll]

/-- A remote registers, and there was never a raspi. -/
def noRaspi : List Event := [.accept 6, remoteHead 0, remoteBody 0]

/-- When the remote registers again, it reads the raspi that has left. -/
theorem replies_differ : ¬ ∀ s t s' t' c c' p, Registers s t c p → Registers s' t' c' p →
    (s.channel c).fd = (s'.channel c').fd → (∀ x, s.HasRaspi x ↔ s'.HasRaspi x) →
      SameReply s t s' t' c c' p := by
  intro h
  have hregs : Registers (after (raspiGone ++ [remoteHead 1]))
      (after (raspiGone ++ [remoteHead 1] ++ [remoteBody 1])) 1 (Pkg.filled remoteReq) :=
    registers_remote (by decide +kernel) (by decide +kernel) (by decide +kernel) (by decide +kernel)
  have hregs' : Registers (after (noRaspi ++ [remoteHead 0]))
      (after (noRaspi ++ [remoteHead 0] ++ [remoteBody 0])) 0 (Pkg.filled remoteReq) :=
    registers_remote (by decide +kernel) (by decide +kernel) (by decide +kernel) (by decide +kernel)
  have hlist : ((after (raspiGone ++ [remoteHead 1])).channelMap.toList.filter fun e =>
      ((after (raspiGone ++ [remoteHead 1])).channel e.2).type = .raspi) = [] := by
    decide +kernel
  have hlist' : ((after (noRaspi ++ [remoteHead 0])).channelMap.toList.filter fun e =>
      ((after (noRaspi ++ [remoteHead 0])).channel e.2).type = .raspi) = [] := by
    decide +kernel
  have hsame := h _ _ _ _ 1 0 _ hregs hregs' (by decide +kernel) fun x => by
    rw [hasRaspi_iff, hasRaspi_iff, hlist, hlist']
  have hcode : (Pkg.filled remoteReq).clientType = ClientType.remote.code := by decide +kernel
  have hreply := (hregs.replied_iff hcode).2 ⟨rfl, fun _ => by decide +kernel⟩
  have hread := (hsame.exact hcode).1 _ hreply
  have hzero := (readsRaspis_iff hregs.reachable.sound hregs.live (by decide +kernel)).1 hread
  exact absurd hzero (by decide +kernel)

end Server
end WawaServer
