import WawaServer.Input
import WawaServer.SendBounds
import WawaServer.Lib.Demux

/-!
# Relaying a stream

A stream of frames from the connection in slot `a` to those in the slots `D`, while nobody else
touches them. Frames that the server has no handler for, and frames for a descriptor that is
nobody's, are dropped. The server is a `Demux` between them: every destination gets the frames for
it in their order (`stream_demultiplexed`), and the relay is never stuck (`demultiplexer_live`).
-/

namespace WawaServer

/-- The bytes of the packet in `d`'s send buffer that are still to be sent. -/
def Globals.unsent (s : Globals) (d : Slot) : List UInt8 :=
  if (s.channel d).sendCtx.io.active = true then
    (s.channel d).sendCtx.pkg.frame.drop (s.channel d).sendCtx.len
  else []

/-- `handler_map` has an entry for the packet. -/
def Pkg.HasHandler (p : Pkg) : Prop :=
  p.cmd = PkgCmdType.registerClientReq.code ∨ p.cmd = PkgCmdType.chooseServerReq.code

instance (p : Pkg) : Decidable p.HasHandler := inferInstanceAs (Decidable (_ ∨ _))

theorem Pkg.hasHandler_filled_frame {p : Pkg} (hp : p.len ≤ bufSize) :
    (filled p.frame).HasHandler ↔ p.HasHandler := by
  have hcmd : (filled p.frame).cmd = p.cmd := word_copyFrame construct p hp (by
    have ht := p.twelve_le_total
    omega)
  rw [HasHandler, HasHandler, hcmd]

namespace Server

open Pkg

variable {s t u : Server} {a d e : Slot} {D : Slot → Prop} {p : Pkg} {pre out rest : List UInt8}
  {q : Demux Slot UInt8} {gs : List Pkg} {k : ℕ}

/-! ## Steps -/

/-- The step leaves the channels in `a` and `D` and the output of `D` alone. -/
structure Apart (s t : Server) (a : Slot) (D : Slot → Prop) : Prop where
  src : t.channel a = s.channel a
  srcLive : t.Live a
  dst : ∀ d, D d → t.channel d = s.channel d ∧ t.Live d ∧
    t.sent (s.channel d).fd = s.sent (s.channel d).fd

/-- A step of a run that relays the frames `gs` from `a` to `D`: data or `EAGAIN` for `a`, a
`server_send_cb` of a destination, or a step of others. No `send` to a destination fails, and no
descriptor that a frame names is given away. -/
inductive DemuxStep (a : Slot) (D : Slot → Prop) (gs : List Pkg) (s : Server) :
    Event → Server → Prop
  | data (bs : List UInt8) (r : ℕ → List SendResult) (t : Server)
      (hr : ∀ d, D d → .error ∉ r (s.channel d).fd) : DemuxStep a D gs s (.recv a (.data bs) r) t
  | again (r : ℕ → List SendResult) (t : Server) : DemuxStep a D gs s (.recv a .again r) t
  | send (d : Slot) (r : ℕ → List SendResult) (t : Server) (hd : D d)
      (hr : .error ∉ r (s.channel d).fd) : DemuxStep a D gs s (.send d r) t
  | other (e : Event) (t : Server) (he : e.recvSlot ≠ some a) (h : s.Apart t a D)
      (hno : ∀ p ∈ gs, e ≠ .accept p.fd) : DemuxStep a D gs s e t

/-! ## The state of the demultiplexer -/

/-- Since `s` the connection in `d` was sent `out`, and `rest` is in hand for it. -/
structure Output (s t : Server) (a d : Slot) (out rest : List UInt8) : Prop where
  live : t.Live d
  fd : (t.channel d).fd = (s.channel d).fd
  sent : t.sent (s.channel d).fd = s.sent (s.channel d).fd ++ out
  unsent : t.unsent d = rest
  /-- A frame in hand has bytes left, and `a` is resumed after them. -/
  pending : (t.channel d).sendCtx.io.active = true →
    (t.channel d).sendCtx.len < (t.channel d).sendCtx.pkg.total ∧
      (t.channel d).sendCtx.pSrcChannel = some a

/-- Between `a` and `D` the server is in the state of the demultiplexer `q`, which was empty in
`s`. -/
structure Demuxes (s t : Server) (a : Slot) (D : Slot → Prop) (q : Demux Slot UInt8) : Prop where
  srcLive : t.Live a
  output : ∀ d, D d → s.Output t a d (q.out d) (q.rest d)
  only : ∀ d, q.rest d ≠ [] → D d
  /-- `a` is read exactly when there is no frame in hand. -/
  handshake : (t.channel a).recvCtx.io.active = true ↔
    ∀ d, D d → ¬ (t.channel d).sendCtx.io.active = true

/-- `Output` reads the liveness, the descriptor, the send buffer and the output of `d`. -/
theorem Output.congr (h : s.Output t a d out rest) (hl : u.Live d)
    (hfd : (u.channel d).fd = (t.channel d).fd)
    (hsend : (u.channel d).sendCtx = (t.channel d).sendCtx)
    (hsent : u.sent (s.channel d).fd = t.sent (s.channel d).fd) : s.Output u a d out rest where
  live := hl
  fd := hfd.trans h.fd
  sent := hsent.trans h.sent
  unsent := by rw [Globals.unsent, hsend]; exact h.unsent
  pending := by rw [hsend]; exact h.pending

/-- The send watcher of a destination is started exactly while there is something in hand. -/
theorem Output.active_iff (h : s.Output t a d out rest) :
    (t.channel d).sendCtx.io.active = true ↔ rest ≠ [] := by
  rw [← h.unsent]
  unfold Globals.unsent
  split
  · rename_i hon
    obtain ⟨hlt, -⟩ := h.pending hon
    have hne : (t.channel d).sendCtx.pkg.frame.drop (t.channel d).sendCtx.len ≠ [] := by
      rw [ne_eq, List.drop_eq_nil_iff, length_frame]
      omega
    exact ⟨fun _ => hne, fun _ => hon⟩
  · rename_i hoff
    exact ⟨fun hon => absurd hon hoff, fun hne => absurd rfl hne⟩

theorem Demuxes.congr (h : s.Demuxes t a D q) (ha : u.Live a) (hd : ∀ d, D d → u.Live d)
    (hfd : ∀ d, (u.channel d).fd = (t.channel d).fd)
    (hrecv : (u.channel a).recvCtx.io.active = (t.channel a).recvCtx.io.active)
    (hsend : ∀ d, (u.channel d).sendCtx = (t.channel d).sendCtx)
    (hsent : u.sent = t.sent) : s.Demuxes u a D q where
  srcLive := ha
  output d hD := (h.output d hD).congr (hd d hD) (hfd d) (hsend d) (by rw [hsent])
  only := h.only
  handshake := by
    rw [hrecv, h.handshake]
    simp only [hsend]

/-- While `a` is read nothing is in hand. -/
theorem Demuxes.rest_eq_nil (h : s.Demuxes t a D q)
    (hrecv : (t.channel a).recvCtx.io.active = true) (d : Slot) : q.rest d = [] := by
  by_contra hne
  have hD := h.only d hne
  exact h.handshake.1 hrecv d hD ((h.output d hD).active_iff.2 hne)

/-- Destinations have different descriptors. -/
theorem Demuxes.fd_ne (h : s.Demuxes t a D q) (hd : D d) (he : D e) (hne : e ≠ d) :
    (t.channel e).fd ≠ (t.channel d).fd := by
  intro hfd
  have hle := (h.output e he).live
  rw [Globals.Live, hfd] at hle
  exact hne (Option.some.inj (hle.symm.trans (h.output d hd).live))

/-! ## Callbacks -/

theorem outcome_ne_error {fd n : ℕ} (hop : s.opened fd = true) (hq : .error ∉ s.results fd) :
    s.outcome fd n ≠ .error := by
  unfold Globals.outcome
  rw [if_pos hop]
  split <;> simp_all

theorem take_drop_frame (p : Pkg) {off k : ℕ} (h : off + k ≤ p.total) :
    (p.frame.drop off).take k = Buffer.slice p off k := by
  rw [frame, Buffer.drop_slice _ _ _ _ (by omega), Buffer.take_slice _ _ _ _ (by omega), zero_add]

/-- `dispatch` takes a frame for `d`. -/
theorem Demuxes.dispatch (hs : t.Sound) (h : s.Demuxes t a D q)
    (hrecv : (t.channel a).recvCtx.io.active = true) (hd : D d) (hfd : p.fd = (t.channel d).fd)
    (hp : p.len ≤ bufSize) (hr : .error ∉ t.results (t.channel d).fd) :
    ∃ q', s.Demuxes (t.dispatch p (t.channel a).fd p.fd).1 a D q' ∧
      q'.log = q.log ++ [(d, p.frame)] := by
  have hnil := h.rest_eq_nil hrecv
  have hout := h.output d hd
  have hla : t.lookup (t.channel a).fd = some a := (hs.lookup_eq _).trans h.srcLive
  have hld : t.lookup p.fd = some d := (hs.lookup_eq _).trans (hfd ▸ hout.live)
  have hop : t.opened p.fd = true := hfd ▸ (hs.map _ d hout.live).2.2.2
  have hsent := hout.sent
  rw [← hout.fd, ← hfd] at hsent
  -- the other destinations do not notice
  have hother : ∀ e, D e → e ≠ d → (s.channel e).fd ≠ p.fd := by
    intro e he hne
    rw [hfd, ← (h.output e he).fd]
    exact h.fd_ne hd he hne
  have honly : ∀ (f : List UInt8) (k : ℕ) e, (q.take d f k hnil).rest e ≠ [] → D e := by
    intro f k e hne
    by_cases hed : e = d
    · exact hed ▸ hd
    · rw [Demux.take_rest_of_ne hed] at hne
      exact absurd (hnil e) hne
  rcases outcome_cases t.toGlobals p.fd p.total with ⟨k, ho⟩ | ho | ho
  · -- cut short: the rest of the frame stays in the buffer of `d`
    have hk := ho.lt p.total_pos
    refine ⟨q.take d p.frame k hnil, ?_, rfl⟩
    rw [dispatch_of_cutShort hla hld hp ho]
    have htot := total_copyFrame (t.channel d).sendCtx.pkg hp
    have hfr := frame_copyFrame (t.channel d).sendCtx.pkg hp
    refine ⟨by simpa [relaying, pausing, Globals.Live] using h.srcLive, fun e he => ?_,
      honly _ _, ?_⟩
    · by_cases hed : e = d
      · subst hed
        exact {
          live := by simpa [relaying, pausing, Globals.Live] using hout.live
          fd := by simpa [relaying, pausing] using hout.fd
          sent := by
            rw [← hout.fd, ← hfd]
            simp [relaying, pausing, hsent, take_frame p hk.le]
          unsent := by simp [Globals.unsent, relaying, pausing, hfr]
          pending := fun _ => by simp [relaying, pausing, htot, hk] }
      · rw [Demux.take_out_of_ne hed, Demux.take_rest_of_ne hed]
        apply (h.output e he).congr
        · simpa [relaying, pausing, Globals.Live] using (h.output e he).live
        · simp [relaying, pausing]
        · simp [relaying, pausing, modify_channel_of_ne hed]
        · simp [relaying, pausing, hother e he hed]
    · constructor
      · intro hon
        simp [relaying, pausing] at hon
      · intro hoff
        exact absurd (by simp [relaying, pausing]) (hoff d hd)
  · -- the frame went out whole
    refine ⟨q.take d p.frame p.total hnil, ?_, rfl⟩
    rw [dispatch_of_sent hla hld hp ho]
    refine ⟨by simpa [relaying, Globals.Live] using h.srcLive, fun e he => ?_, honly _ _, ?_⟩
    · by_cases hed : e = d
      · subst hed
        exact {
          live := by simpa [relaying, Globals.Live] using hout.live
          fd := by simpa [relaying] using hout.fd
          sent := by
            rw [← hout.fd, ← hfd]
            simp [relaying, hsent, take_frame p le_rfl]
          unsent := by simp [Globals.unsent, relaying]
          pending := fun hact => by simp [relaying] at hact }
      · rw [Demux.take_out_of_ne hed, Demux.take_rest_of_ne hed]
        apply (h.output e he).congr
        · simpa [relaying, Globals.Live] using (h.output e he).live
        · simp [relaying]
        · simp [relaying, modify_channel_of_ne hed]
        · simp [relaying, hother e he hed]
    · have hoff := h.handshake.1 hrecv
      simp only [relaying, startRecv, recvActive_startRecv, true_or, true_iff]
      intro e he hon
      obtain ⟨-, hon⟩ : e ≠ d ∧ (t.channel e).sendCtx.io.active = true := by simpa using hon
      exact hoff e he hon
  · exact absurd ho (outcome_ne_error hop (hfd ▸ hr))

/-- `server_send_cb` writes more of the frame in hand. -/
theorem Demuxes.sendCb (hs : t.Sound) (h : s.Demuxes t a D q) (hd : D d)
    (hact : (t.channel d).sendCtx.io.active = true) (hr : .error ∉ t.results (t.channel d).fd) :
    ∃ q', s.Demuxes (t.serverSendCb d) a D q' ∧ q'.log = q.log := by
  have hout := h.output d hd
  obtain ⟨hlen, hsrc⟩ := hout.pending hact
  have hop : t.opened (t.channel d).fd = true := (hs.map _ d hout.live).2.2.2
  have hcount := sendCount_eq hlen (total_le (hs.slot d).len_le)
  have hsent := hout.sent
  rw [← hout.fd] at hsent
  have hrest : q.rest d = (t.channel d).sendCtx.pkg.frame.drop (t.channel d).sendCtx.len := by
    rw [← hout.unsent, Globals.unsent, if_pos hact]
  -- a frame is in hand, so that `a` is stopped
  have hoff : ¬ (t.channel a).recvCtx.io.active = true := fun hrecv => h.handshake.1 hrecv d hd hact
  have hother : ∀ e, D e → e ≠ d → (s.channel e).fd ≠ (t.channel d).fd := by
    intro e he hne
    rw [← (h.output e he).fd]
    exact h.fd_ne hd he hne
  cases ho : t.outcome (t.channel d).fd (t.sendCount d) with
  | error => exact absurd ho (outcome_ne_error hop hr)
  | again =>
    refine ⟨q, ?_, rfl⟩
    rw [serverSendCb_of_again ho, startSend_of_active (by simpa [sending] using hact)]
    exact h.congr (by simpa [sending, Globals.Live] using h.srcLive)
      (fun e he => by simpa [sending, Globals.Live] using (h.output e he).live)
      (fun e => by simp [sending]) (by simp [sending])
      (fun e => by
        by_cases hed : e = d
        · subst hed
          simp [sending]
        · simp [sending, modify_channel_of_ne hed]) (by simp [sending])
  | sent k =>
    have hk : (t.channel d).sendCtx.len + k ≤ (t.channel d).sendCtx.pkg.total := by
      have hle := outcome_le ho
      omega
    refine ⟨q.write d k, ?_, rfl⟩
    have honly : ∀ e, (q.write d k).rest e ≠ [] → D e := by
      intro e hne
      by_cases hed : e = d
      · exact hed ▸ hd
      · rw [Demux.write_rest_of_ne hed] at hne
        exact h.only e hne
    have hout' : (t.sending d k).sent (s.channel d).fd =
        s.sent (s.channel d).fd ++ (q.write d k).out d := by
      rw [← hout.fd]
      simp [sending, hsent, hrest, take_drop_frame _ hk]
    rw [serverSendCb_of_sent ho]
    split
    · -- a part of the rest
      rename_i hmore
      refine ⟨by simpa [sending, Globals.Live] using h.srcLive, fun e he => ?_, honly, ?_⟩
      · by_cases hed : e = d
        · subst hed
          exact {
            live := by simpa [sending, Globals.Live] using hout.live
            fd := by simpa [sending] using hout.fd
            sent := hout'
            unsent := by simp [Globals.unsent, sending, hrest]
            pending := fun _ => by simp [sending, hmore, hsrc] }
        · rw [Demux.write_out_of_ne hed, Demux.write_rest_of_ne hed]
          apply (h.output e he).congr
          · simpa [sending, Globals.Live] using (h.output e he).live
          · simp [sending]
          · simp [sending, modify_channel_of_ne hed]
          · simp [sending, hother e he hed]
      · constructor
        · intro hon
          simp [sending, hoff] at hon
        · intro hnone
          exact absurd (by simp [sending]) (hnone d hd)
    · -- the end of the frame: `a` is resumed
      rename_i hover
      simp only [hsrc]
      refine ⟨by simpa [finishing, sending, Globals.Live] using h.srcLive, fun e he => ?_, honly,
        ?_⟩
      · by_cases hed : e = d
        · subst hed
          exact {
            live := by simpa [finishing, sending, Globals.Live] using hout.live
            fd := by simpa [finishing, sending] using hout.fd
            sent := hout'
            unsent := by
              have hall : (t.channel e).sendCtx.len + k = (t.channel e).sendCtx.pkg.total := by
                omega
              simp [Globals.unsent, finishing, hrest, hall]
            pending := fun hon => by simp [finishing] at hon }
        · rw [Demux.write_out_of_ne hed, Demux.write_rest_of_ne hed]
          apply (h.output e he).congr
          · simpa [finishing, sending, Globals.Live] using (h.output e he).live
          · simp [finishing, sending]
          · simp [finishing, sending, modify_channel_of_ne hed]
          · simp [finishing, sending, hother e he hed]
      · -- nothing is in hand for the others, because it was for `d`
        simp only [startRecv, recvActive_startRecv, true_or, true_iff]
        intro e he hon
        obtain ⟨hne, hon⟩ : e ≠ d ∧ (t.channel e).sendCtx.io.active = true := by
          simpa [finishing, sending] using hon
        exact hne (q.eq_of_rest_ne_nil ((h.output e he).active_iff.1 hon) (hout.active_iff.1 hact))

/-- A packet that is for the server, which has no handler for it, or for a descriptor that is
nobody's. -/
def Dropped (s : Server) (p : Pkg) : Prop :=
  p.fd = 0 ∧ ¬ p.HasHandler ∨ p.fd ≠ 0 ∧ s.channelMap[p.fd]? = none

/-- Such a packet changes nothing but the receive buffer. -/
theorem Demuxes.drop (hs : t.Sound) (h : s.Demuxes t a D q)
    (hpkg : (t.channel a).recvCtx.pkg = p) (hp : t.Dropped p) : s.Demuxes (t.route a) a D q := by
  rcases hp with ⟨h0, hno⟩ | ⟨h0, hno⟩
  · rw [HasHandler, not_or] at hno
    rw [route_of_request (by rw [hpkg, h0]), hpkg]
    simp only [handle, cmd_setFd, if_neg hno.1, if_neg hno.2]
    apply h.congr
    · simpa [Globals.Live] using h.srcLive
    · intro d hd
      simpa [Globals.Live] using (h.output d hd).live
    · simp
    · simp
    · simp
    · rfl
  · rw [route_of_relay (by rwa [hpkg]), hpkg, (hs.slot a).recvFd]
    have hE := hs.enter (.routed a p)
    rw [dispatch_of_dst_none ((hE.lookup_eq _).trans h.srcLive) ((hE.lookup_eq _).trans hno)]
    exact h.congr h.srcLive (fun d hd => (h.output d hd).live) (fun _ => rfl) rfl (fun _ => rfl) rfl

/-- The destination that a packet names, and its frame. -/
def destination (s : Globals) (p : Pkg) : Option (Slot × List UInt8) :=
  s.channelMap[p.fd]?.map (·, p.frame)

theorem destination_congr {p' : Pkg} (h : p'.frame = p.frame) (v : Globals) :
    destination v p' = destination v p := by
  rw [destination, destination, h, fd_eq_of_frame_eq h]

theorem destination_of_dropped (hs : s.Sound) (hp : s.Dropped p) :
    destination s.toGlobals p = none := by
  rw [destination, Option.map_eq_none_iff]
  rcases hp with ⟨h0, -⟩ | ⟨-, hno⟩
  · rw [h0]
    by_contra hne
    obtain ⟨c, hc⟩ := Option.ne_none_iff_exists'.1 hne
    exact hs.fd_ne_zero hc rfl
  · exact hno

/-- Every frame of `gs` fits, and is for a destination or is dropped. -/
def Carries (s : Server) (D : Slot → Prop) (gs : List Pkg) : Prop :=
  ∀ p ∈ gs, p.len ≤ bufSize ∧ (s.Dropped p ∨ ∃ d, D d ∧ s.channelMap[p.fd]? = some d)

/-- A whole frame in the receive buffer of `a` is passed on or dropped. -/
theorem Demuxes.route (hs₀ : s.Sound) (hs : t.Sound) (h : s.Demuxes t a D q)
    (hrecv : (t.channel a).recvCtx.io.active = true) (ha : t.Assembling a p.frame)
    (hp : p.len ≤ bufSize)
    (hdest : s.Dropped p ∧ t.Dropped p ∨ ∃ d, D d ∧ s.channelMap[p.fd]? = some d)
    (hr : ∀ d, D d → .error ∉ t.results (s.channel d).fd) :
    ∃ q', s.Demuxes (t.route a) a D q' ∧
      q'.log = q.log ++ (destination s.toGlobals p).toList := by
  have hfd : (filled p.frame).fd = p.fd := fd_filled_frame hp
  have hlen : (filled p.frame).len ≤ bufSize := by rwa [len_filled_frame hp]
  have hframe : (filled p.frame).frame = p.frame :=
    frame_filled hlen (by rw [length_frame, total_filled_frame hp])
  rcases hdest with ⟨hdrop, hdrop'⟩ | ⟨d, hd, hmap⟩
  · refine ⟨q, h.drop hs ha.pkg ?_, by rw [destination_of_dropped hs₀ hdrop]; simp⟩
    rw [Dropped, hasHandler_filled_frame hp, hfd]
    exact hdrop'
  · have hout := h.output d hd
    have hpd : p.fd = (t.channel d).fd := (hs₀.fd_eq hmap).symm.trans hout.fd.symm
    have hne : p.fd ≠ 0 := hs₀.fd_ne_zero hmap
    rw [route_of_relay (by rwa [ha.pkg, hfd]), ha.pkg, (hs.slot a).recvFd]
    have hE : s.Demuxes (t.enter (.routed a (filled p.frame))) a D q :=
      h.congr h.srcLive (fun d hd => (h.output d hd).live) (fun _ => rfl) rfl (fun _ => rfl) rfl
    obtain ⟨q', hq', hlog⟩ := hE.dispatch (hs.enter _) hrecv hd (hfd.trans hpd) hlen (by
      show .error ∉ t.results (t.channel d).fd
      rw [hout.fd]
      exact hr d hd)
    refine ⟨q', hq', ?_⟩
    rw [hlog, hframe, destination, hmap]
    rfl

/-- Storing bytes leaves the demultiplexer alone. -/
theorem Demuxes.stored (h : s.Demuxes t a D q) (bs : List UInt8) (r : ℕ → List SendResult) :
    s.Demuxes (t.stored a bs r) a D q := by
  obtain ⟨hmap, -, hsent, -⟩ :=
    store_globals (({ t with results := r } : Server).enter (.serverRecvCb a)) a bs
  have hfd := fun e => store_fd (({ t with results := r } : Server).enter (.serverRecvCb a)) a e bs
  refine h.congr ?_ (fun d hd => ?_) hfd ?_ (fun d => store_sendCtx _ a d bs) hsent
  · exact (store_live _ a bs).2 h.srcLive
  · exact (store_live _ a bs).2 (h.output d hd).live
  · rw [Server.stored, store_recvCtx]
    rfl

/-! ## Runs -/

/-- The frames of `gs` that arrived on `a` as `input` are those the demultiplexer has taken. -/
def Demultiplexed (s t : Server) (a : Slot) (D : Slot → Prop) (gs : List Pkg)
    (input : List UInt8) : Prop :=
  ∃ fs pre q, s.Collected t a input fs pre ∧ s.Demuxes t a D q ∧
    q.log = fs.filterMap (destination s.toGlobals) ∧ ∀ p ∈ gs, s.Dropped p → t.Dropped p

/-- Bytes that arrive on `a` are a part of a frame, or complete one. -/
theorem Demuxes.data {input bs : List UInt8} {fs : List Pkg} {r : ℕ → List SendResult}
    (hs₀ : s.Sound) (hs : t.Sound) (h : s.Demuxes t a D q) (hc : s.Collected t a input fs pre)
    (hst : t.step (.recv a (.data bs) r) = some u) (hgs : s.Carries D gs)
    (hdrop : ∀ p ∈ gs, s.Dropped p → t.Dropped p)
    (hin : input ++ bs <+: (gs.map frame).flatten)
    (hr : ∀ d, D d → .error ∉ r (s.channel d).fd) :
    ∃ q', s.Demuxes u a D q' ∧ (Unfinished (pre ++ bs) ∧ q'.log = q.log ∨
      ∃ p : Pkg, p.len ≤ bufSize ∧ p.frame = pre ++ bs ∧
        q'.log = q.log ++ (destination s.toGlobals p).toList) := by
  have hfits : ∀ p ∈ gs, p.len ≤ bufSize := fun p hp => (hgs p hp).1
  obtain ⟨-, hen, -⟩ := step_eq_some.1 hst
  obtain ⟨g, hg, hpre⟩ := hc.next_prefix hfits hin hen.2.2.1 hen.2.2.2
  obtain ⟨hS, ha, hcases⟩ := step_data hs hst hc.assembling hc.unfinished
  rcases hcases with ⟨hun, rfl⟩ | ⟨-, hbad, -⟩ | ⟨hp, hf, rfl⟩
  · exact ⟨q, h.stored bs r, .inl ⟨hun, rfl⟩⟩
  · -- the head is that of `g`, which fits
    obtain ⟨x, hx⟩ := hpre
    have hmono := len_filled_le (pre ++ bs) x
    rw [hx, len_filled_frame (hfits g hg)] at hmono
    exact absurd ((hfits g hg).trans_lt hbad) (not_lt.2 hmono)
  · -- the whole frame is `g`, because no frame begins with another
    have hpg : (filled (pre ++ bs)).frame = g.frame :=
      isFrame_prefixFree.eq _ _ ⟨_, hp, rfl⟩ ⟨g, hfits g hg, rfl⟩ (hf.symm ▸ hpre)
    have hga : (t.stored a bs r).Assembling a g.frame := by
      rw [← hpg, hf]
      exact ha
    have hdest : s.Dropped g ∧ (t.stored a bs r).Dropped g ∨
        ∃ d, D d ∧ s.channelMap[g.fd]? = some d := by
      apply (hgs g hg).2.imp_left
      intro hsg
      have htg := hdrop g hg hsg
      refine ⟨hsg, ?_⟩
      rw [Dropped, Server.stored, (store_globals _ a bs).1]
      exact htg
    have hact : ((t.stored a bs r).channel a).recvCtx.io.active = true := by
      rw [Server.stored, store_recvCtx]
      exact hen.1
    obtain ⟨q', hq', hlog⟩ := (h.stored bs r).route hs₀ hS hact hga (hfits g hg) hdest (by
      rw [Server.stored, (store_globals _ a bs).2.2.2]
      exact hr)
    refine ⟨q', ?_, .inr ⟨g, hfits g hg, hpg.symm.trans hf, hlog⟩⟩
    exact hq'.congr (by simpa [Globals.Live] using hq'.srcLive)
      (fun d hd => by simpa [Globals.Live] using (hq'.output d hd).live) (by simp) (by simp)
      (by simp) (by simp)

/-- Steps that bring nothing to `a`. -/
theorem Demuxes.quiet {e : Event} (hs : t.Sound) (h : s.Demuxes t a D q)
    (hst : t.step e = some u) (hr : DemuxStep a D gs t e u) (hno : ∀ bs r, e ≠ .recv a (.data bs) r) :
    ∃ q', s.Demuxes u a D q' ∧ q'.log = q.log := by
  obtain ⟨-, hen, rfl⟩ := step_eq_some.1 hst
  -- the kernel's answers for this callback are not in the demultiplexer
  have hanswers : ∀ r, s.Demuxes { t with results := r } a D q := fun r =>
    h.congr h.srcLive (fun d hd => (h.output d hd).live) (fun _ => rfl) rfl (fun _ => rfl) rfl
  cases hr with
  | data bs r _ => exact absurd rfl (hno bs r)
  -- `EAGAIN` starts a watcher that is started already
  | again r _ =>
    have hsame : ({ t with results := r } : Server).serverRecvCb a .again =
        ({ t with results := r } : Server).enter (.serverRecvCb a) := startRecv_of_active hen.1
    refine ⟨q, ?_, rfl⟩
    rw [Server.exec, hsame]
    exact h.congr h.srcLive (fun d hd => (h.output d hd).live) (fun _ => rfl) rfl (fun _ => rfl) rfl
  | send d r _ hd hr => exact (hanswers r).sendCb (hs.congr rfl rfl rfl) hd hen hr
  | other _ _ _ hap _ =>
    refine ⟨q, ⟨hap.srcLive, fun d hd => ?_, h.only, ?_⟩, rfl⟩
    · obtain ⟨hch, hl, hsent⟩ := hap.dst d hd
      rw [(h.output d hd).fd] at hsent
      exact (h.output d hd).congr hl (by rw [hch]) (by rw [hch]) hsent
    · rw [hap.src, h.handshake]
      exact forall₂_congr fun d hd => by rw [(hap.dst d hd).1]

/-- Only `accept` adds an entry to `channel_map`. -/
theorem Update.map_sub (h : Update d s t) (hs : s.Sound) {fd : ℕ} {c : Slot}
    (hm : t.channelMap[fd]? = some c) : s.channelMap[fd]? = some c := by
  cases h with
  | effect h => exact h.map_sub hm
  | closing h => exact (freed_channelMap _ _ _ _ |>.1 ((closing_effect hs h).map_sub hm)).2
  | routed p => exact hm
  | _ => simpa using hm

theorem Updates.map_sub (h : Updates d s t) (hs : s.Sound) {fd : ℕ} {c : Slot}
    (hm : t.channelMap[fd]? = some c) : s.channelMap[fd]? = some c := by
  induction h with
  | refl => exact hm
  | tail h' h ih => exact ih (h.map_sub (hs.updates h') hm)

theorem step_map_none {e : Event} (hs : s.Sound) (hst : s.step e = some t) {fd : ℕ}
    (he : e ≠ .accept fd) (h : s.channelMap[fd]? = none) : t.channelMap[fd]? = none := by
  rcases step_cases hs hst with ⟨fd', rfl, ⟨-, -, hop⟩, rfl⟩ | ⟨c, hu⟩
  · have hne : fd ≠ fd' := fun hfd => he (by rw [hfd])
    rcases acceptCb_cases s fd' with ⟨c, -, heq⟩ | ⟨-, heq⟩
    · rw [heq, accepting_channelMap (hs.key_none hop), if_neg hne]
      exact h
    · rw [heq]
      exact h
  · by_contra hne
    obtain ⟨d, hd⟩ := Option.ne_none_iff_exists'.1 hne
    rw [hu.map_sub hs hd] at h
    cases h

/-- A packet stays dropped. -/
theorem DemuxStep.dropped {e : Event} (hs : t.Sound) (hst : t.step e = some u)
    (hr : DemuxStep a D gs t e u) (hp : p ∈ gs) (h : t.Dropped p) : u.Dropped p := by
  apply h.imp_right
  rintro ⟨h0, hmap⟩
  have hno : e ≠ .accept p.fd := by
    cases hr with
    | other _ _ _ _ hno => exact hno p hp
    | _ => exact nofun
  exact ⟨h0, step_map_none hs hst hno hmap⟩

/-- A step keeps the two in step. -/
theorem Demultiplexed.step {input : List UInt8} {e : Event} (hs₀ : s.Sound) (hs : t.Sound)
    (hfda : (t.channel a).fd = (s.channel a).fd) (h : s.Demultiplexed t a D gs input)
    (hst : t.step e = some u) (hr : DemuxStep a D gs t e u) (hgs : s.Carries D gs)
    (hin : input ++ e.input a <+: (gs.map frame).flatten) :
    s.Demultiplexed u a D gs (input ++ e.input a) ∧ (u.channel a).fd = (s.channel a).fd := by
  obtain ⟨fs, pre, q, hc, hq, hlog, hdrop⟩ := h
  have hdrop' : ∀ p ∈ gs, s.Dropped p → u.Dropped p := fun p hp hsp =>
    hr.dropped hs hst hp (hdrop p hp hsp)
  -- it is enough to follow the demultiplexer; what is received is known for any step
  obtain ⟨q', hq', hnext⟩ : ∃ q', s.Demuxes u a D q' ∧
      (Unfinished (pre ++ e.input a) ∧ q'.log = q.log ∨
        ∃ p : Pkg, p.len ≤ bufSize ∧ p.frame = pre ++ e.input a ∧
          q'.log = q.log ++ (destination s.toGlobals p).toList) := by
    by_cases hdata : ∃ bs r, e = .recv a (.data bs) r
    · obtain ⟨bs, r, rfl⟩ := hdata
      have hinput : (Event.recv a (.data bs) r).input a = bs := if_pos rfl
      rw [hinput] at hin ⊢
      apply hq.data hs₀ hs hc hst hgs hdrop hin
      intro d hd
      rw [← (hq.output d hd).fd]
      cases hr with
      | data _ _ _ hr => exact hr d hd
      | other _ _ he _ _ => exact absurd rfl he
    · have hquiet : ∀ bs r, e ≠ .recv a (.data bs) r := fun bs r he => hdata ⟨bs, r, he⟩
      have hnil : e.input a = [] := by
        cases hr with
        | data bs r _ => exact absurd rfl (hquiet bs r)
        | other _ _ he _ _ => exact Event.input_eq_nil he
        | _ => rfl
      obtain ⟨q', hq', hlog'⟩ := hq.quiet hs hst hr hquiet
      refine ⟨q', hq', .inl ⟨?_, hlog'⟩⟩
      rw [hnil, List.append_nil]
      exact hc.unfinished
  obtain ⟨hrec, hfd⟩ :=
    step_receives hs hst hq.srcLive hq'.srcLive hc.assembling hc.unfinished
  refine ⟨?_, hfd.trans hfda⟩
  have hnot : ∀ p : Pkg, p.len ≤ bufSize → p.frame = pre ++ e.input a →
      ¬ Unfinished (pre ++ e.input a) :=
    fun p hp hf hun => hun.not_prefix hp (hf ▸ List.prefix_rfl)
  cases hrec with
  | more hun ha hrt =>
    rcases hnext with ⟨-, hlog'⟩ | ⟨p, hp, hf, -⟩
    · exact ⟨fs, _, q', hc.more hun ha hrt, hq', hlog'.trans hlog, hdrop'⟩
    · exact absurd hun (hnot p hp hf)
  | done p hp hf ha hrt =>
    rcases hnext with ⟨hun, -⟩ | ⟨p', -, hf', hlog'⟩
    · exact absurd hun (hnot p hp hf)
    · have hframe : p'.frame = p.frame := hf'.trans hf.symm
      have hdest := destination_congr hframe s.toGlobals
      refine ⟨_, [], q', hc.done hfda hp hf ha hrt, hq', ?_, hdrop'⟩
      rw [hlog', hlog, hdest, List.filterMap_append]
      cases hp : destination s.toGlobals p <;> simp [hp]

/-- Between two frames, with nothing in hand for a destination. -/
structure Idle (s : Server) (a : Slot) (D : Slot → Prop) : Prop where
  srcLive : s.Live a
  reading : (s.channel a).recvCtx.io.active = true
  between : (s.channel a).recvCtx.len = 0
  dst : ∀ d, D d → s.Live d ∧ (s.channel d).sendCtx.io.active = false

theorem Idle.demultiplexed (hr : Reachable s) (h : s.Idle a D) :
    s.Demultiplexed s a D gs [] := by
  refine ⟨[], [], Demux.empty, ⟨by simp, unfinished_nil, rfl, assembling_nil hr h.srcLive h.between,
    by simp⟩, ⟨h.srcLive, fun d hd => ?_, fun d hne => absurd rfl hne, ?_⟩, rfl, fun _ _ => id⟩
  · obtain ⟨hl, hoff⟩ := h.dst d hd
    exact ⟨hl, rfl, by simp [Demux.empty], by simp [Globals.unsent, hoff, Demux.empty],
      fun hon => by simp [hoff] at hon⟩
  · simp only [h.reading, true_iff]
    intro d hd
    simp [(h.dst d hd).2]

/-- Induction on the run, from its end; what arrived before is a prefix of what arrived. -/
theorem Idle.run {es : List Event} (hr : Reachable s) (h : s.Idle a D)
    (hrun : Runs.run step s es = some t) (hal : Runs.Along step (DemuxStep a D gs) s es)
    (hgs : s.Carries D gs) (hin : Event.inputs a es <+: (gs.map frame).flatten) :
    t.Sound ∧ (t.channel a).fd = (s.channel a).fd ∧
      s.Demultiplexed t a D gs (Event.inputs a es) := by
  refine Runs.along_induction step (P := fun es t =>
    Event.inputs a es <+: (gs.map frame).flatten → t.Sound ∧ (t.channel a).fd = (s.channel a).fd ∧
      s.Demultiplexed t a D gs (Event.inputs a es))
    (fun _ => ⟨hr.sound, rfl, h.demultiplexed hr⟩) ?_ hrun hal hin
  intro es u e v _ ih hst hR hpre
  rw [Event.inputs_concat] at hpre ⊢
  obtain ⟨hS, hfda, hdem⟩ := ih ((List.prefix_append _ _).trans hpre)
  obtain ⟨hdem', hfda'⟩ := hdem.step hr.sound hS hfda hst hR hgs hpre
  exact ⟨hS.step hst, hfda', hdem'⟩

/-! ## Every destination gets its frames -/

/-- The packets among `gs` that are for the connection in `d`. -/
def packetsFor (s : Globals) (d : Slot) (gs : List Pkg) : List Pkg :=
  gs.filter fun p => s.channelMap[p.fd]? = some d

/-- The frames `gs` were passed on to the destinations that they name, but for the end of the last
one of all, and in their order to each of them. -/
structure PassedOn (s t : Server) (a : Slot) (D : Slot → Prop) (gs : List Pkg) : Prop where
  out : ∀ d, D d → ∃ out, t.sent (s.channel d).fd = s.sent (s.channel d).fd ++ out ∧
    ((packetsFor s.toGlobals d gs).map frame).flatten = out ++ t.unsent d
  last : ∀ d, D d → t.unsent d ≠ [] →
    ∃ f, (gs.filterMap (destination s.toGlobals)).getLast? = some (d, f) ∧ t.unsent d <:+ f
  /-- `a` is stopped while a frame is in hand. -/
  handshake : (t.channel a).recvCtx.io.active = true ↔ ∀ d, D d → t.unsent d = []

theorem framesOf_destinations (s : Globals) (d : Slot) (gs : List Pkg) :
    Demux.framesOf d (gs.filterMap (destination s)) = (packetsFor s d gs).map frame := by
  induction gs with
  | nil => rfl
  | cons p gs ih =>
    unfold packetsFor Demux.framesOf at *
    rw [List.filterMap_cons, List.filter_cons]
    unfold destination at *
    cases hp : s.channelMap[p.fd]? with
    | none => simpa using ih
    | some c =>
      by_cases hcd : c = d
      · subst hcd
        simpa using ih
      · simpa [hcd] using ih

/-- Packets with the same frames go to the same destinations. -/
theorem destinations_congr {fs : List Pkg} (h : fs.map frame = gs.map frame) (v : Globals) :
    fs.filterMap (destination v) = gs.filterMap (destination v) := by
  induction fs generalizing gs with
  | nil =>
    cases gs with
    | nil => rfl
    | cons g gs => cases h
  | cons f fs ih =>
    cases gs with
    | nil => cases h
    | cons g gs =>
      obtain ⟨hfg, hrest⟩ := List.cons.inj h
      rw [List.filterMap_cons, List.filterMap_cons, destination_congr hfg, ih hrest]

/-- What the demultiplexer has taken was passed on. -/
theorem Demultiplexed.passedOn {input : List UInt8} (h : s.Demultiplexed t a D gs input)
    (hgs : s.Carries D gs) (hin : input <+: (gs.map frame).flatten) :
    ∃ n, s.FramesRead t a input gs n ∧ s.PassedOn t a D (gs.take n) := by
  obtain ⟨fs, pre, q, hc, hq, hlog, -⟩ := h
  have hfits : ∀ p ∈ gs, p.len ≤ bufSize := fun p hp => (hgs p hp).1
  have hdest : q.log = (gs.take fs.length).filterMap (destination s.toGlobals) := by
    rw [hlog]
    apply destinations_congr
    rw [List.map_take]
    exact (hc.eq_take hfits hin).1
  refine ⟨fs.length, hc.framesRead hfits hin, ⟨fun d hd => ?_, fun d hd hne => ?_, ?_⟩⟩
  · have hout := hq.output d hd
    refine ⟨q.out d, hout.sent, ?_⟩
    rw [← framesOf_destinations, ← hdest, q.flatten_framesOf, hout.unsent]
  · have hout := hq.output d hd
    rw [hout.unsent] at hne ⊢
    rw [← hdest]
    exact q.rest_suffix d hne
  · rw [hq.handshake]
    apply forall₂_congr
    intro d hd
    rw [(hq.output d hd).active_iff, (hq.output d hd).unsent, not_not]

/-- Whatever the pieces in which `recv` and `send` cut it, the stream from `a` reaches the
destinations that its frames name. -/
theorem stream_demultiplexed {es : List Event} (hr : Reachable s) (h : s.Idle a D)
    (hrun : Runs.run step s es = some t) (hal : Runs.Along step (DemuxStep a D gs) s es)
    (hgs : s.Carries D gs) (hin : Event.inputs a es <+: (gs.map frame).flatten) :
    ∃ n, s.FramesRead t a (Event.inputs a es) gs n ∧ s.PassedOn t a D (gs.take n) := by
  obtain ⟨-, -, hdem⟩ := h.run hr hrun hal hgs hin
  exact hdem.passedOn hgs hin

/-- A stream with a packet of headers, one for nobody, one for `6` that is sent in two pieces, and
one for `7`. -/
def switchedPkgs : List Pkg :=
  [filled (encode .streamDataNtf 0 [1]), filled (encode .streamDataNtf 9 [2]),
    filled (encode .streamDataNtf 6 [3]), filled (encode .streamDataNtf 7 [4])]

def switched : List Event :=
  Event.stream 0 0 [1] Event.takesAll ++ Event.stream 0 9 [2] Event.takesAll ++
    Event.stream 0 6 [3] (fun _ => [.sent 5]) ++ [.send 1 Event.takesAll] ++
      Event.stream 0 7 [4] Event.takesAll

theorem mem_stream {e : Event} {c : Slot} {fd : ℕ} {body : List UInt8}
    {r : ℕ → List SendResult} (h : e ∈ Event.stream c fd body r) :
    ∃ bs, e = .recv c (.data bs) r := by
  unfold Event.stream Event.frame at h
  rcases List.mem_cons.1 h with rfl | h
  · exact ⟨_, rfl⟩
  · split at h
    · cases h
    · exact ⟨_, List.mem_singleton.1 h⟩

theorem switched_demux (s : Server) :
    Runs.Along step (DemuxStep 0 (fun d => d = 1 ∨ d = 2) switchedPkgs) s switched := by
  apply Runs.along_of_forall
  intro e he s t
  have hall : ∀ fd, SendResult.error ∉ Event.takesAll fd := fun _ => by simp [Event.takesAll]
  simp only [switched, List.mem_append, List.mem_singleton] at he
  rcases he with (((he | he) | he) | rfl) | he
  · obtain ⟨bs, rfl⟩ := mem_stream he
    exact .data _ _ _ fun d _ => hall _
  · obtain ⟨bs, rfl⟩ := mem_stream he
    exact .data _ _ _ fun d _ => hall _
  · obtain ⟨bs, rfl⟩ := mem_stream he
    exact .data _ _ _ fun d _ => by simp
  · exact .send _ _ _ (.inl rfl) (hall _)
  · obtain ⟨bs, rfl⟩ := mem_stream he
    exact .data _ _ _ fun d _ => hall _

theorem switched_carries :
    (after [.accept 5, .accept 6, .accept 7]).Carries (fun d => d = 1 ∨ d = 2) switchedPkgs := by
  intro p hp
  simp only [switchedPkgs, List.mem_cons, List.not_mem_nil, or_false] at hp
  rcases hp with rfl | rfl | rfl | rfl
  · exact ⟨by decide +kernel, .inl (.inl (by decide +kernel))⟩
  · exact ⟨by decide +kernel, .inl (.inr (by decide +kernel))⟩
  · exact ⟨by decide +kernel, .inr ⟨1, .inl rfl, by decide +kernel⟩⟩
  · exact ⟨by decide +kernel, .inr ⟨2, .inr rfl, by decide +kernel⟩⟩

theorem switched_idle : (after [.accept 5, .accept 6, .accept 7]).Idle 0 fun d => d = 1 ∨ d = 2 where
  srcLive := by decide +kernel
  reading := by decide +kernel
  between := by decide +kernel
  dst d hd := by
    rcases hd with rfl | rfl
    · exact ⟨by decide +kernel, by decide +kernel⟩
    · exact ⟨by decide +kernel, by decide +kernel⟩

theorem stream_demultiplexed_switched : ∃ n,
    (after [.accept 5, .accept 6, .accept 7]).FramesRead
      (after ([.accept 5, .accept 6, .accept 7] ++ switched)) 0 (Event.inputs 0 switched)
      switchedPkgs n ∧
    (after [.accept 5, .accept 6, .accept 7]).PassedOn
      (after ([.accept 5, .accept 6, .accept 7] ++ switched)) 0 (fun d => d = 1 ∨ d = 2)
      (switchedPkgs.take n) :=
  stream_demultiplexed (reachable_after _ (by decide +kernel)) switched_idle
    (run_after _ _ (by decide +kernel)) (switched_demux _) switched_carries (by decide +kernel)

end Server
end WawaServer
