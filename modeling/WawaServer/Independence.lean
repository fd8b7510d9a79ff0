import WawaServer.Reachable
import WawaServer.Lib.Footprint

/-!
# Independent relays

A cell is a channel, or an entry of a map or of a table of the kernel at a descriptor. The entries
at a descriptor belong to the channel that `channel_map` holds there. `dispatch` writes cells of the
channels of its footprint only, and reads no cell of another channel.
-/

namespace WawaServer

open Footprint

/-- The parts of the state that one relay can read or write by itself. -/
inductive Cell
  | channel (c : Slot)
  | cut (c : Slot)
  | channelMap (fd : ℕ)
  | bridgeMap (fd : ℕ)
  | opened (fd : ℕ)
  | sent (fd : ℕ)
  | results (fd : ℕ)

/-- What a cell holds. -/
def Cell.Value : Cell → Type
  | .channel _ => Channel
  | .cut _ => Option Slot
  | .channelMap _ => Option Slot
  | .bridgeMap _ => Option Slot
  | .opened _ => Bool
  | .sent _ => List UInt8
  | .results _ => List SendResult

/-- Whose cell it is. -/
def Globals.owner (s : Globals) : Cell → Option Slot
  | .channel c => some c
  | .cut c => some c
  | .channelMap fd => s.channelMap[fd]?
  | .bridgeMap fd => s.channelMap[fd]?
  | .opened fd => s.channelMap[fd]?
  | .sent fd => s.channelMap[fd]?
  | .results fd => s.channelMap[fd]?

/-- The channels of `a` and `b` and, if there is a bridge at `b`, the channel it points to and the
one that `channel_map` holds under its descriptor. -/
def Globals.footprint (s : Globals) (a b : ℕ) : List Slot :=
  s.channelMap[a]?.toList ++ s.channelMap[b]?.toList ++
    match s.bridgeMap[b]? with
    | none => []
    | some r => r :: s.channelMap[(s.channel r).fd]?.toList

namespace Server

/-- What a cell holds in a state. -/
def view : (k : Cell) → Server → k.Value
  | .channel c, s => s.channel c
  | .cut c, s => s.cut c
  | .channelMap fd, s => s.channelMap[fd]?
  | .bridgeMap fd, s => s.bridgeMap[fd]?
  | .opened fd, s => s.opened fd
  | .sent fd, s => s.sent fd
  | .results fd, s => s.results fd

variable {s t u : Server} {c d : Slot} {p pkg : Pkg} {fd n k : ℕ} {R W : Set Cell}

/-! ## Assignments -/

/-- Erasing an entry leaves the others in the map. -/
theorem getElem?_erase_of_ne (m : Std.ExtTreeMap ℕ Slot) {fd fd' : ℕ} (h : fd ≠ fd') :
    (m.erase fd)[fd']? = m[fd']? := by
  simp only [Std.ExtTreeMap.getElem?_erase, Std.LawfulEqCmp.compare_eq_iff_eq, h, ↓reduceIte]

section Assignments
variable (hWR : W ⊆ R)

include hWR

/-- The record of calls is no cell. -/
theorem local_enter (k : Call) : LocalAt view R W (·.enter k) s :=
  .of_unseen hWR fun _ k => by cases k <;> rfl

/-- A fault is no cell. -/
theorem local_useIterator (fd : ℕ) : LocalAt view R W (·.useIterator fd) s := by
  refine .of_unseen hWR fun t k => ?_
  unfold useIterator
  split
  · cases k <;> rfl
  · rfl

/-- An assignment to a channel needs nothing but that channel. -/
theorem local_modify (hc : .channel c ∈ W) (f : Channel → Channel) :
    LocalAt view R W (·.modify c f) s := by
  refine .of_cell hWR hc (fun t k hk => ?_) fun t ht => ?_
  · cases k with
    | channel d => exact modify_channel_of_ne (mt (congrArg Cell.channel) hk) f
    | _ => rfl
  · have hch : t.channel c = s.channel c := ht _ (hWR hc)
    change (t.modify c f).channel c = (s.modify c f).channel c
    rw [modify_channel_self, modify_channel_self, hch]

theorem local_setCut (hc : .cut c ∈ W) (a : Option Slot) : LocalAt view R W (·.setCut c a) s := by
  refine .of_cell hWR hc (fun t k hk => ?_) fun t _ => ?_
  · cases k with
    | cut d =>
      change Function.update t.cut c a d = t.cut d
      exact Function.update_of_ne (mt (congrArg Cell.cut) hk) _ _
    | _ => rfl
  · change Function.update t.cut c a c = Function.update s.cut c a c
    rw [Function.update_self, Function.update_self]

/-- A packet in the send buffer ends the cut in it. -/
theorem local_setSendPkg (hc : .channel c ∈ W) (hcut : .cut c ∈ W) (p : Pkg) :
    LocalAt view R W (·.setSendPkg c p) s :=
  (local_modify hWR hc _).comp (local_setCut hWR hcut none)

/-- A `send` that takes nothing uses up an answer of the kernel for its descriptor. -/
theorem local_popped (hfd : .results fd ∈ W) (off n : ℕ) :
    LocalAt view R W (·.popped fd off n) s := by
  refine .of_cell hWR hfd (fun t k hk => ?_) fun t ht => ?_
  · cases k with
    | results fd' =>
      change Function.update t.results fd (t.results fd).tail fd' = t.results fd'
      exact Function.update_of_ne (mt (congrArg Cell.results) hk) _ _
    | _ => rfl
  · have hq : t.results fd = s.results fd := ht _ (hWR hfd)
    change Function.update t.results fd (t.results fd).tail fd =
      Function.update s.results fd (s.results fd).tail fd
    rw [Function.update_self, Function.update_self, hq]

/-- A `send` that takes something adds it to the output of its descriptor. -/
theorem local_wrote (hfd : .results fd ∈ W) (hsent : .sent fd ∈ W) (p : Pkg) (off n k : ℕ) :
    LocalAt view R W (·.wrote fd p off n k) s := by
  have happend : LocalAt view R W
      (fun t => { t with sent := Function.update t.sent fd (t.sent fd ++ p.slice off k) })
      (s.popped fd off n) := by
    refine .of_cell hWR hsent (fun t k hk => ?_) fun t ht => ?_
    · cases k with
      | sent fd' =>
        change Function.update t.sent fd (t.sent fd ++ p.slice off k) fd' = t.sent fd'
        exact Function.update_of_ne (mt (congrArg Cell.sent) hk) _ _
      | _ => rfl
    · have hbs : t.sent fd = (s.popped fd off n).sent fd := ht _ (hWR hsent)
      change Function.update t.sent fd (t.sent fd ++ p.slice off k) fd =
        Function.update s.sent fd (s.sent fd ++ p.slice off k) fd
      rw [Function.update_self, Function.update_self, hbs]
      rfl
  exact (local_popped hWR hfd off n).comp happend

/-- The entry of one descriptor is erased. -/
theorem local_eraseChannel (hfd : .channelMap fd ∈ W) :
    LocalAt view R W (fun t => { t with channelMap := t.channelMap.erase fd }) s := by
  refine .of_cell hWR hfd (fun t k hk => ?_) fun t _ => ?_
  · cases k with
    | channelMap fd' =>
      exact getElem?_erase_of_ne t.channelMap (mt (congrArg Cell.channelMap) hk.symm)
    | _ => rfl
  · change (t.channelMap.erase fd)[fd]? = (s.channelMap.erase fd)[fd]?
    simp

/-- The bridge of one descriptor is erased. -/
theorem local_eraseBridge (hfd : .bridgeMap fd ∈ W) :
    LocalAt view R W (fun t => { t with bridgeMap := t.bridgeMap.erase fd }) s := by
  refine .of_cell hWR hfd (fun t k hk => ?_) fun t _ => ?_
  · cases k with
    | bridgeMap fd' =>
      exact getElem?_erase_of_ne t.bridgeMap (mt (congrArg Cell.bridgeMap) hk.symm)
    | _ => rfl
  · change (t.bridgeMap.erase fd)[fd]? = (s.bridgeMap.erase fd)[fd]?
    simp

/-- One descriptor is closed. -/
theorem local_close (hfd : .opened fd ∈ W) : LocalAt view R W (·.close fd) s := by
  refine .of_cell hWR hfd (fun t k hk => ?_) fun t _ => ?_
  · cases k with
    | opened fd' =>
      change Function.update t.opened fd false fd' = t.opened fd'
      exact Function.update_of_ne (mt (congrArg Cell.opened) hk) _ _
    | _ => rfl
  · change Function.update t.opened fd false fd = Function.update s.opened fd false fd
    rw [Function.update_self, Function.update_self]

end Assignments

/-! ## Reads -/

/-- A field of a channel is read. -/
theorem reads_channel {α : Type*} (hc : .channel c ∈ R) (π : Channel → α) :
    Reads view R (fun t => π (t.channel c)) s := fun _ ht => congrArg π (ht _ hc)

/-- `lookup` reads the entry and the channel that it leads to. -/
theorem reads_lookup (hfd : .channelMap fd ∈ R)
    (hch : ∀ c, s.channelMap[fd]? = some c → .channel c ∈ R) :
    Reads view R (fun t => t.lookup fd) s := by
  intro t ht
  have hmap : t.channelMap[fd]? = s.channelMap[fd]? := ht _ hfd
  change t.lookup fd = s.lookup fd
  unfold Globals.lookup
  rw [hmap]
  cases hc : s.channelMap[fd]? with
  | none => rfl
  | some c =>
    have hch' : t.channel c = s.channel c := ht _ (hch c hc)
    simp only [hch']

/-- What `send` returns depends on its own descriptor. -/
theorem reads_outcome (hop : .opened fd ∈ R) (hq : .results fd ∈ R) (n : ℕ) :
    Reads view R (fun t => t.outcome fd n) s := by
  intro t ht
  have hop' : t.opened fd = s.opened fd := ht _ hop
  have hq' : t.results fd = s.results fd := ht _ hq
  simp only [Globals.outcome, hop', hq']

/-- A `send` is cut short in both states if it ends alike. -/
theorem cutShort_of_outcome (h : s.CutShort fd n k) (ho : t.outcome fd n = s.outcome fd n) :
    t.CutShort fd n k := by
  cases h with
  | again h => exact .again (ho.trans h)
  | short h hk => exact .short (ho.trans h) hk

/-! ## Functions -/

/-- The cells of the channel `c` and of the descriptor `fd` that it has. -/
structure Owns (W : Set Cell) (c : Slot) (fd : ℕ) : Prop where
  channel : .channel c ∈ W
  cut : .cut c ∈ W
  channelMap : .channelMap fd ∈ W
  opened : .opened fd ∈ W
  sent : .sent fd ∈ W
  results : .results fd ∈ W

/-- `free_channel` of the channel in slot `c` closes `fd`. -/
structure Names (ch : Channel) (c : Slot) (fd : ℕ) : Prop where
  idx : ch.idx = c
  fd : ch.fd = fd

section Functions
variable (hWR : W ⊆ R)

include hWR

/-- `free_channel` writes cells of its channel. -/
theorem local_freeChannel (ho : Owns W c fd) (hn : Names (s.channel c) c fd) :
    LocalAt view R W (·.freeChannel c) s := by
  have hmod := ((local_enter (s := s) hWR (.freeChannel c)).comp (local_modify hWR ho.channel
    fun ch => { ch with
      status := .nonActive
      recvCtx.len := 0
      sendCtx.len := 0
      recvCtx.io.active := false
      sendCtx.io.active := false })).comp (local_setCut hWR ho.cut none)
  refine ((hmod.comp (local_eraseChannel hWR ho.channelMap)).comp
    (local_close hWR ho.opened)).congr fun t ht => ?_
  have hch : t.channel c = s.channel c := ht _ (hWR ho.channel)
  rw [freeChannel_eq (by rw [hch, hn.idx]), freed, hch, hn.fd]
  rfl

/-- `response` writes cells of the channel that it finds. -/
theorem local_response (hfd : .channelMap p.fd ∈ R)
    (hc : ∀ c, s.channelMap[p.fd]? = some c → Owns W c p.fd ∧ Names (s.channel c) c p.fd) :
    LocalAt view R W (fun t => (t.response p).1) s := by
  have hlookup := reads_lookup hfd fun c hm => hWR (hc c hm).1.channel
  cases hl : s.lookup p.fd with
  | none =>
    apply (local_enter hWR (.response p)).congr
    intro t ht
    rw [response_of_none ((hlookup t ht).trans hl)]
  | some c =>
    obtain ⟨ho, hn⟩ := hc c (map_of_lookup hl)
    have hout := reads_outcome (s := s) (hWR ho.opened) (hWR ho.results) p.total
    have hstart : LocalAt view R W (fun t => (t.enter (.response p)).setSendLen c 0) s :=
      (local_enter hWR _).comp (local_modify hWR ho.channel _)
    rcases outcome_cases s.toGlobals p.fd p.total with ⟨k, hk⟩ | hk | hk
    · refine (((hstart.comp (local_wrote hWR ho.results ho.sent p 0 p.total k)).comp
        (local_modify hWR ho.channel fun ch => { ch with sendCtx.len := k })).comp
        (local_modify hWR ho.channel fun ch => { ch with sendCtx.io.active := true })).congr
        fun t ht => ?_
      rw [response_of_cutShort ((hlookup t ht).trans hl) (cutShort_of_outcome hk (hout t ht))]
      rfl
    · refine ((hstart.comp (local_wrote hWR ho.results ho.sent p 0 p.total p.total)).comp
        (local_modify hWR ho.channel fun ch => { ch with recvCtx.io.active := true })).congr
        fun t ht => ?_
      rw [response_of_sent ((hlookup t ht).trans hl) ((hout t ht).trans hk)]
      rfl
    · refine ((hstart.comp (local_popped hWR ho.results 0 p.total)).comp
        (local_freeChannel hWR ho ⟨?_, ?_⟩)).congr fun t ht => ?_
      · simpa [modify_channel] using hn.idx
      · simpa using hn.fd
      · rw [response_of_error ((hlookup t ht).trans hl) ((hout t ht).trans hk)]

/-- `check_break_fd` writes cells of the channels at both ends of the bridge. -/
theorem local_checkBreakFd (type : ClientType) (hb : .bridgeMap fd ∈ R)
    (hr : ∀ r, s.bridgeMap[fd]? = some r → .channel r ∈ W ∧ .bridgeMap fd ∈ W ∧
      .channelMap (restartPkg (s.channel r).fd).fd ∈ R ∧
      ∀ c, s.channelMap[(restartPkg (s.channel r).fd).fd]? = some c →
        Owns W c (restartPkg (s.channel r).fd).fd ∧
          Names (s.channel c) c (restartPkg (s.channel r).fd).fd) :
    LocalAt view R W (fun t => t.checkBreakFd type fd) s := by
  have hbridge : Reads view R (fun t => t.bridgeMap[fd]?) s := .cell hb
  cases type with
  | raspi =>
    apply (local_enter hWR (.checkBreakFd .raspi fd)).congr
    intro t _
    exact checkBreakFd_of_raspi (by decide)
  | remote =>
    cases hm : s.bridgeMap[fd]? with
    | none =>
      apply (local_enter hWR (.checkBreakFd .remote fd)).congr
      intro t ht
      exact checkBreakFd_of_none ((hbridge t ht).trans hm)
    | some r =>
      obtain ⟨hch, hbW, hfd, hc⟩ := hr r hm
      have hresp : LocalAt view R W
          (fun t => (t.response (restartPkg (s.channel r).fd)).1)
          (s.enter (.checkBreakFd .remote fd)) := local_response hWR hfd hc
      refine ((((local_enter hWR _).comp hresp).comp (local_modify hWR hch fun ch =>
        { ch with status := .active })).comp (local_eraseBridge hWR hbW)).congr fun t ht => ?_
      have hch' : t.channel r = s.channel r := ht _ (hWR hch)
      rw [checkBreakFd_of_some ((hbridge t ht).trans hm), hch']
      rfl

/-- The copy in `dispatch` writes the destination. -/
theorem local_relaying {a b : ℕ} (hch : .channel d ∈ W) (hcut : .cut d ∈ W) (pkg : Pkg) :
    LocalAt view R W (·.relaying pkg a b d) s := by
  have hpkg := reads_channel (s := s) (hWR hch) fun ch => ch.sendCtx.pkg
  refine .bind (F := fun q t => ((t.enter (.dispatch pkg a b)).setSendPkg d
    (copyFrame q pkg)).setSendLen d 0) hpkg ?_
  exact ((local_enter hWR _).comp (local_setSendPkg hWR hch hcut _)).comp (local_modify hWR hch _)

/-- A relay that is cut short stops the source and starts the destination. -/
theorem local_pausing {a : Slot} (ha : .channel a ∈ W) (hch : .channel d ∈ W) (hcut : .cut d ∈ W) :
    LocalAt view R W (·.pausing a d) s :=
  (((local_modify hWR ha fun ch => { ch with recvCtx.io.active := false }).comp
    (local_modify hWR hch fun ch => { ch with sendCtx.io.active := true })).comp
    (local_modify hWR hch fun ch => { ch with sendCtx.pSrcChannel := some a })).comp
    (local_setCut hWR hcut (some a))

end Functions

/-! ## `dispatch` -/

/-- `response` leaves the indexes alone. -/
theorem response_idx (s : Server) (p : Pkg) (d : Slot) :
    ((s.response p).1.channel d).idx = (s.channel d).idx := by
  rcases s.response_cases p with ⟨-, h⟩ | ⟨c, -, ⟨k, -, h⟩ | ⟨-, h⟩ | ⟨-, h⟩⟩ <;> rw [h]
  · rfl
  · simp
  · simp
  · simp [freeChannel, close]

/-- Index and descriptor outlast `check_break_fd`. -/
theorem Names.checkBreakFd (h : Names (s.channel c) c fd) (type : ClientType) (fd' : ℕ) :
    Names ((s.checkBreakFd type fd').channel c) c fd := by
  rcases s.checkBreakFd_cases type fd' with ⟨-, heq⟩ | ⟨r, -, -, heq⟩ <;> rw [heq]
  · exact h
  · refine ⟨?_, ?_⟩
    · simpa [unbridged, response_idx] using h.idx
    · simpa [unbridged, (response_steady _ _).fd] using h.fd

theorem Names.useIterator (h : Names (s.channel c) c fd) (fd' : ℕ) :
    Names ((s.useIterator fd').channel c) c fd := by
  unfold Server.useIterator
  split <;> exact h

/-- The footprint, one channel after the other. -/
theorem mem_footprint {a b : ℕ} {c : Slot} : c ∈ s.footprint a b ↔
    s.channelMap[a]? = some c ∨ s.channelMap[b]? = some c ∨
      ∃ r, s.bridgeMap[b]? = some r ∧ (c = r ∨ s.channelMap[(s.channel r).fd]? = some c) := by
  unfold Globals.footprint
  cases hb : s.bridgeMap[b]? with
  | none => simp
  | some r => simp

/-- The channels of the footprint. -/
def footprintSet (s : Server) (a b : ℕ) : Set Slot := {c | c ∈ s.footprint a b}

section Dispatch
variable {a b : ℕ}

/-- A channel of the footprint has the cells of its descriptor. -/
theorem owns_of_mem {F : Set Slot} (hc : c ∈ F) (hm : s.channelMap[fd]? = some c) :
    Owns (ownedBy s.owner F) c fd :=
  ⟨⟨c, hc, rfl⟩, ⟨c, hc, rfl⟩, ⟨c, hc, hm⟩, ⟨c, hc, hm⟩, ⟨c, hc, hm⟩, ⟨c, hc, hm⟩⟩

/-- A slot that `channel_map` leads to has its own index and the descriptor. -/
theorem Sound.names (hs : s.Sound) (hm : s.channelMap[fd]? = some c) : Names (s.channel c) c fd :=
  ⟨hs.idx_eq (hs.used hm), hs.fd_eq hm⟩

/-- The source is looked up in the footprint. -/
theorem reads_src (s : Server) (a b : ℕ) :
    Reads view (openTo s.owner (s.footprintSet a b)) (fun t => t.lookup a) s := by
  have hmem : ∀ c, s.channelMap[a]? = some c → c ∈ s.footprintSet a b :=
    fun c hc => mem_footprint.2 (.inl hc)
  exact reads_lookup hmem fun c hc => ownedBy_subset ⟨c, hmem c hc, rfl⟩

/-- The destination is looked up in the footprint. -/
theorem reads_dst (s : Server) (a b : ℕ) :
    Reads view (openTo s.owner (s.footprintSet a b)) (fun t => t.lookup b) s := by
  have hmem : ∀ c, s.channelMap[b]? = some c → c ∈ s.footprintSet a b :=
    fun c hc => mem_footprint.2 (.inr (.inl hc))
  exact reads_lookup hmem fun c hc => ownedBy_subset ⟨c, hmem c hc, rfl⟩

/-- A `dispatch` that `send` refuses frees the destination, after the notification. -/
theorem Sound.local_refused (hs : s.Sound) (hm : s.channelMap[b]? = some d) (pkg : Pkg) (n : ℕ) :
    LocalAt view (openTo s.owner (s.footprintSet a b)) (ownedBy s.owner (s.footprintSet a b))
      (fun t =>
        let u := (t.relaying pkg a b d).popped b 0 n
        ((u.checkBreakFd (u.channel d).type (u.channel d).fd).useIterator b).freeChannel d) s := by
  have hd : d ∈ s.footprintSet a b := mem_footprint.2 (.inr (.inl hm))
  have ho := owns_of_mem hd hm
  have hWR : ownedBy s.owner (s.footprintSet a b) ⊆ openTo s.owner (s.footprintSet a b) :=
    ownedBy_subset
  have hu : LocalAt view (openTo s.owner (s.footprintSet a b))
      (ownedBy s.owner (s.footprintSet a b)) (fun t => (t.relaying pkg a b d).popped b 0 n) s :=
    (local_relaying hWR ho.channel ho.cut pkg).comp (local_popped hWR ho.results 0 n)
  refine hu.comp (g := fun u => ((u.checkBreakFd (u.channel d).type (u.channel d).fd).useIterator
    b).freeChannel d) ?_
  -- maps, descriptors and indices are as they were
  have hkeep : ∀ c fd, Names (s.channel c) c fd →
      Names (((s.relaying pkg a b d).popped b 0 n).channel c) c fd :=
    fun c fd hc => ⟨by simpa [Server.relaying] using hc.idx, by simpa [Server.relaying] using hc.fd⟩
  have hmap : ((s.relaying pkg a b d).popped b 0 n).channelMap = s.channelMap := rfl
  have hbridge : ((s.relaying pkg a b d).popped b 0 n).bridgeMap = s.bridgeMap := rfl
  have hfd : ∀ c, (((s.relaying pkg a b d).popped b 0 n).channel c).fd = (s.channel c).fd :=
    fun c => by simp [Server.relaying]
  have hnames := hkeep d b (hs.names hm)
  generalize (s.relaying pkg a b d).popped b 0 n = u at *
  have hargs := reads_channel (s := u) (hWR ho.channel) fun ch => (ch.type, ch.fd)
  have hbreak : LocalAt view (openTo s.owner (s.footprintSet a b))
      (ownedBy s.owner (s.footprintSet a b)) (fun t => t.checkBreakFd (u.channel d).type b) u := by
    apply local_checkBreakFd hWR _ (hWR ⟨d, hd, hm⟩)
    intro r hr
    rw [hbridge] at hr
    rw [hfd, fd_restartPkg (hs.slot r).fd_lt, hmap]
    have hr' : r ∈ s.footprintSet a b := mem_footprint.2 (.inr (.inr ⟨r, hr, .inl rfl⟩))
    have hc : ∀ c, s.channelMap[(s.channel r).fd]? = some c → c ∈ s.footprintSet a b :=
      fun c hc => mem_footprint.2 (.inr (.inr ⟨r, hr, .inr hc⟩))
    exact ⟨⟨r, hr', rfl⟩, ⟨d, hd, hm⟩, hc,
      fun c hcm => ⟨owns_of_mem (hc c hcm) hcm, hkeep c _ (hs.names hcm)⟩⟩
  refine .bind (F := fun x u => ((u.checkBreakFd x.1 x.2).useIterator b).freeChannel d) hargs ?_
  simp only [hnames.fd]
  exact (hbreak.comp (local_useIterator hWR b)).comp (local_freeChannel hWR ho
    ((hnames.checkBreakFd _ b).useIterator b))

/-- `dispatch` writes cells of its footprint only, and reads no cell of another channel. -/
theorem Sound.local_dispatch (hs : s.Sound) (pkg : Pkg) (a b : ℕ) :
    LocalAt view (openTo s.owner (s.footprintSet a b)) (ownedBy s.owner (s.footprintSet a b))
      (fun t => (t.dispatch pkg a b).1) s := by
  have hsrc := reads_src s a b
  have hdst := reads_dst s a b
  have hWR : ownedBy s.owner (s.footprintSet a b) ⊆ openTo s.owner (s.footprintSet a b) :=
    ownedBy_subset
  have hlog : LocalAt view (openTo s.owner (s.footprintSet a b))
      (ownedBy s.owner (s.footprintSet a b)) (·.enter (.dispatch pkg a b)) s := local_enter hWR _
  cases hla : s.lookup a with
  | none => exact hlog.congr fun t ht => by rw [dispatch_of_src_none ((hsrc t ht).trans hla)]
  | some c =>
    have hla' : ∀ t, AgreeOn view (openTo s.owner (s.footprintSet a b)) s t → t.lookup a = some c :=
      fun t ht => (hsrc t ht).trans hla
    cases hlb : s.lookup b with
    | none =>
      apply hlog.congr
      intro t ht
      rw [dispatch_of_dst_none (hla' t ht) ((hdst t ht).trans hlb)]
    | some d =>
      have hlb' : ∀ t, AgreeOn view (openTo s.owner (s.footprintSet a b)) s t →
          t.lookup b = some d := fun t ht => (hdst t ht).trans hlb
      rcases lt_or_ge bufSize pkg.len with hlen | hlen
      · apply hlog.congr
        intro t ht
        rw [dispatch_of_long (hla' t ht) (hlb' t ht) hlen]
      · have hm := map_of_lookup hlb
        have hc : c ∈ s.footprintSet a b := mem_footprint.2 (.inl (map_of_lookup hla))
        have ho := owns_of_mem (F := s.footprintSet a b) (mem_footprint.2 (.inr (.inl hm))) hm
        have hout := reads_outcome (s := s) (hWR ho.opened) (hWR ho.results) pkg.total
        have hrelay := local_relaying (s := s) (a := a) (b := b) hWR ho.channel ho.cut pkg
        rcases outcome_cases s.toGlobals b pkg.total with ⟨k, hk⟩ | hk | hk
        · refine (((hrelay.comp (local_wrote hWR ho.results ho.sent pkg 0 pkg.total k)).comp
            (local_modify hWR ho.channel fun ch => { ch with sendCtx.len := k })).comp
            (local_pausing hWR ⟨c, hc, rfl⟩ ho.channel ho.cut)).congr fun t ht => ?_
          rw [dispatch_of_cutShort (hla' t ht) (hlb' t ht) hlen
            (cutShort_of_outcome hk (hout t ht))]
          rfl
        · refine (((hrelay.comp (local_wrote hWR ho.results ho.sent pkg 0 pkg.total
            pkg.total)).comp (local_modify hWR ho.channel fun ch => { ch with
              sendCtx.io.active := false })).comp (local_modify hWR ⟨c, hc, rfl⟩ fun ch => { ch with
              recvCtx.io.active := true })).congr fun t ht => ?_
          rw [dispatch_of_sent (hla' t ht) (hlb' t ht) hlen ((hout t ht).trans hk)]
          rfl
        · apply (hs.local_refused hm pkg pkg.total).congr
          intro t ht
          rw [dispatch_of_error (hla' t ht) (hlb' t ht) hlen ((hout t ht).trans hk)]

/-- What `dispatch` returns is decided before it does anything. -/
theorem dispatch_code (s : Server) (pkg : Pkg) (a b : ℕ) :
    (s.dispatch pkg a b).2 = if s.lookup a = none then -1 else if s.lookup b = none then -2
      else if bufSize < pkg.len then -3 else 0 := by
  cases hla : s.lookup a with
  | none => rw [dispatch_of_src_none hla, if_pos rfl]
  | some c =>
    rw [if_neg (Option.some_ne_none c)]
    cases hlb : s.lookup b with
    | none => rw [dispatch_of_dst_none hla hlb, if_pos rfl]
    | some d =>
      rw [if_neg (Option.some_ne_none d)]
      rcases lt_or_ge bufSize pkg.len with hlen | hlen
      · rw [dispatch_of_long hla hlb hlen, if_pos hlen]
      · rw [if_neg (not_lt.2 hlen)]
        rcases outcome_cases s.toGlobals b pkg.total with ⟨k, hk⟩ | hk | hk
        · rw [dispatch_of_cutShort hla hlb hlen hk]
        · rw [dispatch_of_sent hla hlb hlen hk]
        · rw [dispatch_of_error hla hlb hlen hk]

/-- What `dispatch` returns is read from the two lookups. -/
theorem reads_code (s : Server) (pkg : Pkg) (a b : ℕ) :
    Reads view (openTo s.owner (s.footprintSet a b)) (fun t => (t.dispatch pkg a b).2) s := by
  intro t ht
  have hsrc : t.lookup a = s.lookup a := reads_src s a b t ht
  have hdst : t.lookup b = s.lookup b := reads_dst s a b t ht
  change (t.dispatch pkg a b).2 = (s.dispatch pkg a b).2
  rw [dispatch_code, dispatch_code, hsrc, hdst]

end Dispatch

/-! ## Independence -/

/-- The same channels with their watchers, maps, descriptors, and bytes sent. -/
structure Same (s t : Server) : Prop where
  channel : t.channel = s.channel
  channelMap : t.channelMap = s.channelMap
  bridgeMap : t.bridgeMap = s.bridgeMap
  opened : t.opened = s.opened
  sent : t.sent = s.sent
  results : t.results = s.results

/-- What agrees on all cells is the same. -/
theorem same_of_view (h : ∀ k, view k t = view k s) : Same s t where
  channel := funext fun c => h (.channel c)
  channelMap := Std.ExtTreeMap.ext_getElem? fun fd => h (.channelMap fd)
  bridgeMap := Std.ExtTreeMap.ext_getElem? fun fd => h (.bridgeMap fd)
  opened := funext fun fd => h (.opened fd)
  sent := funext fun fd => h (.sent fd)
  results := funext fun fd => h (.results fd)

/-- `dispatch(p, a, b)` and `dispatch(q, c, d)` leave the same in either order, and return the same.
-/
structure Interchange (s : Server) (p q : Pkg) (a b c d : ℕ) : Prop where
  same : Same ((s.dispatch p a b).1.dispatch q c d).1 ((s.dispatch q c d).1.dispatch p a b).1
  first : ((s.dispatch q c d).1.dispatch p a b).2 = (s.dispatch p a b).2
  second : ((s.dispatch p a b).1.dispatch q c d).2 = (s.dispatch q c d).2

/-- Disjoint footprints are enough, in every sound state. -/
theorem Sound.interchange (hs : s.Sound) (p q : Pkg) {a b c d : ℕ}
    (hdisj : ∀ x ∈ s.footprint a b, x ∉ s.footprint c d) : s.Interchange p q a b c d := by
  have hp := hs.local_dispatch p a b
  have hq := hs.local_dispatch q c d
  refine ⟨same_of_view fun k => (hp.comm_of_owners hq hdisj k).symm, ?_, ?_⟩
  · exact (reads_code s p a b).undisturbed_by hq fun x hx hx' => hdisj x hx' hx
  · exact (reads_code s q c d).undisturbed_by hp hdisj

/-- Relays with disjoint footprints commute, whatever the calls of `send` on each descriptor return.
-/
theorem dispatch_comm (hr : Reachable s) (results : ℕ → List SendResult) (p q : Pkg)
    {a b c d : ℕ} (hdisj : ∀ x ∈ s.footprint a b, x ∉ s.footprint c d) :
    Interchange { s with results := results } p q a b c d := by
  have hs : ({ s with results := results } : Server).Sound := hr.sound.congr rfl rfl rfl
  exact hs.interchange p q hdisj

/-- A viewer with a bridge to its raspi, and two more connections. -/
def twoPairs : List Event :=
  [.accept 5, .accept 6, .accept 7, .accept 8] ++ Event.register 1 .remote Event.takesAll ++
    Event.choose 1 5 Event.takesAll

/-- One frame is refused and its viewer freed, the other is cut short. -/
def refusedAndCut : ℕ → List SendResult
  | 5 => [.sent 16]
  | 6 => [.error]
  | 8 => [.sent 3]
  | _ => []

theorem dispatch_comm_twoPairs :
    Interchange { after twoPairs with results := refusedAndCut } (Pkg.construct.setFd 6)
      (Pkg.construct.setFd 8) 5 6 7 8 :=
  dispatch_comm (reachable_after _ (by decide +kernel)) refusedAndCut _ _ (by decide +kernel)

end Server
end WawaServer
