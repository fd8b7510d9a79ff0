import WawaServer.Clients.Routing

/-!
# The requests of the clients

Each `main` fills in a packet before it sends a request. `remote.cpp` and `raspi.cpp` construct the
packet of their register request. The choose request of `remote.cpp` and the register request of
`client.cpp` are built in a local variable that nothing has written, and set every field of the
frame but `stHead.fd`. That field decides whether the server handles the request or passes it on.
-/

namespace WawaServer

/-- Fills in `cmd`, `len` and the one `int` of the body. -/
def Pkg.fillReq (pkg : Pkg) (cmd : PkgCmdType) (body : ℕ) : Pkg :=
  Buffer.setWord ((pkg.setCmd cmd).setLen sizeofInt) 12 body

/-- The register request in `main` of `remote.cpp`. -/
def Remote.registerClientReq (_pkg : Pkg) : Pkg :=
  Pkg.construct.fillReq .registerClientReq ClientType.remote.code

/-- The choose request in `main` of `remote.cpp`; `choise` is what `scanf` has read. -/
def Remote.chooseServerReq (choise : ℕ) (sendPkg : Pkg) : Pkg :=
  sendPkg.fillReq .chooseServerReq choise

/-- The register request in `main` of `raspi.cpp`. -/
def Raspi.registerClientReq (_pkg : Pkg) : Pkg :=
  Pkg.construct.fillReq .registerClientReq ClientType.raspi.code

/-- The register request in `main` of `client.cpp`. -/
def Client.registerClientReq (pkg : Pkg) : Pkg :=
  pkg.fillReq .registerClientReq ClientType.raspi.code

/-- The register and choose requests that the three programs send. -/
inductive Request
  | remoteRegister
  | remoteChoose (choise : ℕ)
  | raspiRegister
  | clientRegister

namespace Request

/-- The packet of a request, and what was in its memory before. -/
def pkg : Request → Pkg → Pkg
  | remoteRegister => Remote.registerClientReq
  | remoteChoose choise => Remote.chooseServerReq choise
  | raspiRegister => Raspi.registerClientReq
  | clientRegister => Client.registerClientReq

/-- `main` calls `construct` on the packet. -/
def Constructs : Request → Prop
  | remoteRegister => True
  | remoteChoose _ => False
  | raspiRegister => True
  | clientRegister => False

end Request

namespace Pkg

variable {p q : Pkg} {cmd : PkgCmdType} {body : ℕ}

theorem len_fillReq (p : Pkg) (cmd : PkgCmdType) (body : ℕ) : (p.fillReq cmd body).len = sizeofInt :=
  (Buffer.word_setWord_of_outside _ _ _ (.inl (by decide))).trans (len_setLen (by decide))

theorem fd_fillReq (p : Pkg) (cmd : PkgCmdType) (body : ℕ) : (p.fillReq cmd body).fd = p.fd := by
  unfold fillReq
  rw [fd, Buffer.word_setWord_of_outside _ _ _ (.inl le_rfl)]
  exact (fd_setLen ..).trans (fd_setCmd ..)

/-- All other bytes of the frame are written. -/
theorem get_fillReq (p q : Pkg) (cmd : PkgCmdType) (body : ℕ) {i : ℕ} (hi : i < 16)
    (hfd : i < 8 ∨ 12 ≤ i) :
    Buffer.get (p.fillReq cmd body) i = Buffer.get (q.fillReq cmd body) i := by
  have hn : i < sizeofPkg := by simp only [sizeofPkg]; omega
  simp only [fillReq, setCmd, setLen, Buffer.setWord, Buffer.get_write _ _ _ _ hn]
  split_ifs with h12 h4 h0
  any_goals rfl
  simp only [Buffer.length_wordBytes] at h12 h4 h0
  omega

/-- Two packets with the same word at `fd` become the same request. -/
theorem frame_fillReq (h : ∀ k, k < 4 → Buffer.get p (8 + k) = Buffer.get q (8 + k)) :
    (p.fillReq cmd body).frame = (q.fillReq cmd body).frame := by
  have hget : ∀ (r : Pkg) k, k < 4 →
      Buffer.get (r.fillReq cmd body) (8 + k) = Buffer.get r (8 + k) := by
    intro r k hk
    have hset : ∀ (r : Pkg) (off v : ℕ), off + 4 ≤ 8 ∨ 12 ≤ off →
        Buffer.get (Buffer.setWord r off v) (8 + k) = Buffer.get r (8 + k) := fun r off v ho =>
      Buffer.get_write_of_outside r off _ (by rw [Buffer.length_wordBytes]; omega)
    simp only [fillReq, setLen, setCmd, hset, Nat.reduceAdd, Nat.reduceLeDiff, true_or, or_true]
  rw [frame, frame, total, total, len_fillReq, len_fillReq]
  apply Buffer.slice_congr _ _ _ _ _
  intro i hi
  rw [Nat.zero_add]
  by_cases hfd : i < 8 ∨ 12 ≤ i
  · exact get_fillReq p q cmd body hi hfd
  · obtain ⟨k, rfl⟩ : ∃ k, i = 8 + k := ⟨i - 8, by omega⟩
    rw [hget p k (by omega), hget q k (by omega), h k (by omega)]

end Pkg

namespace Server

variable {s t : Server} {c : Slot} {p : Pkg}

/-! ## Requests that are served -/

/-- From `s` to `t` the packet `p` was passed to `handle`, and nothing to `dispatch`. -/
structure Serves (s t : Server) (c : Slot) (p : Pkg) : Prop where
  handled : t.calls.handled = Pkg.received (s.channel c).fd p :: s.calls.handled
  relays : t.calls.relays = s.calls.relays

theorem handle_relays (s : Server) (pkg : Pkg) :
    (s.handle pkg).1.calls.relays = s.calls.relays :=
  handle_inner relays_of_inner (fun _ => trivial) (fun _ _ _ => rfl) (fun _ _ _ => rfl) s pkg

theorem route_serves (hs : s.Sound) (ha : s.Assembling c p.frame) (hp : p.len ≤ bufSize)
    (h : p.fd = 0) : Serves s (s.route c) c p := by
  have hfd : (Pkg.filled p.frame).fd = p.fd := Pkg.fd_filled_frame hp
  rw [route_of_request (by rw [ha.pkg, hfd, h])]
  constructor
  · rw [Pkg.received, if_pos h, ← (hs.slot c).recvFd, ← ha.pkg]
    exact handle_handled _ _
  · exact handle_relays _ _

/-- The server serves a packet exactly if its descriptor is 0. -/
theorem Arrives.serves_iff (h : Arrives s t c p) : Serves s t c p ↔ p.fd = 0 := by
  constructor
  · intro hserve
    by_contra h0
    have hto := h.routedTo_iff.2 ⟨rfl, h0⟩
    have hlen := congrArg List.length (hserve.relays.symm.trans hto.relays)
    simp at hlen
  · intro h0
    obtain ⟨bs, q, hstep, hframe⟩ := h.step
    obtain ⟨pre, hun, ha⟩ := assembling_of_reachable h.reachable h.live
    rw [arrived_eq ha hun] at hframe
    obtain ⟨hS, hst, heq⟩ := step_whole h.reachable.sound hstep ha hun h.len hframe
    have hserve := route_serves hS hst h.len h0
    have hfd : ((s.stored c bs q).channel c).fd = (s.channel c).fd := by
      rw [← (hS.slot c).recvFd, ← (h.reachable.sound.slot c).recvFd, stored, store_recvCtx]
      rfl
    rw [heq]
    constructor
    · apply hserve.handled.trans
      rw [hfd, stored_calls]
      rfl
    · apply hserve.relays.trans
      rw [stored_calls]
      rfl

end Server

namespace Request

open Pkg

variable {r : Request} {mem mem' : Pkg}

/-- The request is the same for both contents of the memory, is addressed to the server, and is
served however it arrives. -/
structure Determined (r : Request) (mem mem' : Pkg) : Prop where
  same : (r.pkg mem).frame = (r.pkg mem').frame
  fd : (r.pkg mem).fd = 0
  served : ∀ s t c, Server.Arrives s t c (r.pkg mem) → Server.Serves s t c (r.pkg mem)

theorem len_pkg (r : Request) (mem : Pkg) : (r.pkg mem).len = sizeofInt := by
  cases r <;> exact len_fillReq ..

theorem pkg_of_constructs (h : r.Constructs) (mem mem' : Pkg) :
    r.pkg mem = r.pkg mem' ∧ (r.pkg mem).fd = 0 := by
  have hzero : construct.fd = 0 := Buffer.word_zero 8
  cases r with
  | remoteRegister => exact ⟨rfl, (fd_fillReq ..).trans hzero⟩
  | raspiRegister => exact ⟨rfl, (fd_fillReq ..).trans hzero⟩
  | remoteChoose choise => exact h.elim
  | clientRegister => exact h.elim

/-- A packet that is not constructed keeps what is in memory where `fd` is. -/
theorem pkg_of_not_constructs (h : ¬ r.Constructs) :
    ∃ cmd body, ∀ mem, r.pkg mem = mem.fillReq cmd body := by
  cases r with
  | remoteRegister => exact absurd trivial h
  | raspiRegister => exact absurd trivial h
  | remoteChoose choise => exact ⟨_, _, fun _ => rfl⟩
  | clientRegister => exact ⟨_, _, fun _ => rfl⟩

/-- A request does not depend on what was in memory exactly if its packet is constructed, or the
memory where `stHead.fd` is was 0. -/
theorem determined_iff :
    r.Determined mem mem' ↔ r.Constructs ∨ mem.fd = 0 ∧ mem'.fd = 0 := by
  have hserved : (r.pkg mem).fd = 0 →
      ∀ s t c, Server.Arrives s t c (r.pkg mem) → Server.Serves s t c (r.pkg mem) :=
    fun h s t c ha => ha.serves_iff.2 h
  by_cases hr : r.Constructs
  · obtain ⟨hsame, hfd⟩ := pkg_of_constructs hr mem mem'
    exact ⟨fun _ => .inl hr, fun _ => ⟨by rw [hsame], hfd, hserved hfd⟩⟩
  · obtain ⟨cmd, body, hpkg⟩ := pkg_of_not_constructs hr
    constructor
    · intro h
      -- the word is part of the frame
      have hlen : ∀ mem, (r.pkg mem).len ≤ bufSize := fun mem => by rw [len_pkg]; decide
      have hsame : (r.pkg mem).fd = (r.pkg mem').fd := by
        rw [← fd_filled_frame (hlen mem), h.same, fd_filled_frame (hlen mem')]
      have hfd := h.fd
      rw [hpkg, fd_fillReq] at hfd
      rw [hpkg, hpkg, fd_fillReq, fd_fillReq] at hsame
      exact .inr ⟨hfd, hsame.symm.trans hfd⟩
    · intro h
      obtain ⟨hfd, hfd'⟩ := h.resolve_left hr
      have hfd0 : (r.pkg mem).fd = 0 := by rw [hpkg, fd_fillReq, hfd]
      refine ⟨?_, hfd0, hserved hfd0⟩
      rw [hpkg, hpkg]
      apply frame_fillReq
      intro k hk
      rw [(Buffer.word_eq_zero mem 8).1 hfd k hk, (Buffer.word_eq_zero mem' 8).1 hfd' k hk]

/-- In the memory of `sendPkg` are a 0 and a 6 where `stHead.fd` is: the choose request for 5 is
served or passed on to the connection with the descriptor 6. -/
theorem choose_undetermined : ¬ ∀ r mem mem', Determined r mem mem' := by
  intro h
  have hd := (h (.remoteChoose 5) (construct.setFd 6) construct).fd
  exact absurd hd (by decide)

end Request
end WawaServer
