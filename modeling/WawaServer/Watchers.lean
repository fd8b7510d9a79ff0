import WawaServer.Reachable

/-!
# Ownership of watchers

A started watcher should belong to a slot that owns its descriptor. `server_send_cb` starts the
receive watcher of `pSrcChannel` without asking whether that channel was freed while the packet
was pending. Every other start is of a channel that was just looked up in `channel_map`.
-/

namespace WawaServer

/-- When `server_send_cb` reaches the end of a packet, its source is still connected. -/
def ResumeSafe : Call → Globals → History → Prop
  | .serverSendCb c, g, _ => g.Completes c →
      ∀ a ∈ (g.channel c).sendCtx.pSrcChannel, g.Live a
  | _, _, _ => True

instance (k : Call) (g : Globals) (l : History) : Decidable (ResumeSafe k g l) := by
  refine k.casesOn ?_ ?_ ?_ ?_ ?_ ?_ ?_ ?_ ?_ ?_ ?_ ?_ <;> intros <;>
    dsimp only [ResumeSafe] <;> infer_instance

namespace Server

/-- A started watcher belongs to an active slot that `channel_map` holds at its descriptor. -/
def WatchersOwned (s : Server) : Prop := ∀ c,
  ((s.channel c).recvCtx.io.active = true →
    (s.channel c).status = .active ∧ s.channelMap[(s.channel c).recvCtx.io.fd]? = some c) ∧
  ((s.channel c).sendCtx.io.active = true →
    (s.channel c).status = .active ∧ s.channelMap[(s.channel c).sendCtx.io.fd]? = some c)

/-- `WatchersOwned`, in the form the steps keep. -/
structure StartedLive (s : Server) : Prop where
  recv : ∀ c, (s.channel c).recvCtx.io.active = true → s.Live c
  send : ∀ c, (s.channel c).sendCtx.io.active = true → s.Live c

variable {s t : Server} {c d : Slot}

/-- Whoever has a started watcher owns the descriptor it watches. -/
theorem StartedLive.watchersOwned (h : s.StartedLive) (hs : s.Sound) : s.WatchersOwned := by
  intro c
  rw [(hs.slot c).recvFd, (hs.slot c).sendFd]
  exact ⟨fun hc => ⟨(hs.map _ c (h.recv c hc)).2.2.1, h.recv c hc⟩,
    fun hc => ⟨(hs.map _ c (h.send c hc)).2.2.1, h.send c hc⟩⟩

/-- Watchers are started on channels that own their descriptor only. -/
theorem StartedLive.congr (h : s.StartedLive) (hm : t.channelMap = s.channelMap)
    (hfd : ∀ d, (t.channel d).fd = (s.channel d).fd)
    (hr : ∀ d, (t.channel d).recvCtx.io.active = true →
      (s.channel d).recvCtx.io.active = true ∨ s.Live d)
    (hs : ∀ d, (t.channel d).sendCtx.io.active = true →
      (s.channel d).sendCtx.io.active = true ∨ s.Live d) : t.StartedLive := by
  constructor
  · intro d hd
    rw [Globals.Live, hm, hfd]
    exact (hr d hd).elim (h.recv d) id
  · intro d hd
    rw [Globals.Live, hm, hfd]
    exact (hs d hd).elim (h.send d) id

/-- A channel whose watcher is started may be freed: nobody else has its descriptor. -/
theorem StartedLive.freeable (h : s.StartedLive) (hc : s.Freeable c) :
    s.Live c ∨ s.channelMap[(s.channel c).fd]? = none := by
  rcases hc.2 with hl | hn | ha | ha
  · exact .inl hl
  · exact .inr hn
  · exact .inl (h.recv c ha)
  · exact .inl (h.send c ha)

/-- Both watchers of a freed slot are stopped. -/
theorem StartedLive.freed (h : s.StartedLive)
    (hc : s.Live c ∨ s.channelMap[(s.channel c).fd]? = none) : (s.freed c).StartedLive := by
  have hkeep : ∀ d, d ≠ c → s.Live d → (s.freed c).Live d := by
    intro d hdc hd
    rw [Globals.Live, freed_channelMap, freed_channel_fd]
    refine ⟨fun hfd => ?_, hd⟩
    rw [Globals.Live, hfd] at hd
    rcases hc with hc | hc
    · exact hdc (Option.some.inj (hd.symm.trans hc))
    · cases hd.symm.trans hc
  constructor
  · intro d hd
    obtain ⟨hdc, hd⟩ := (freed_recvActive ..).1 hd
    exact hkeep d hdc (h.recv d hd)
  · intro d hd
    obtain ⟨hdc, hd⟩ := (freed_sendActive ..).1 hd
    exact hkeep d hdc (h.send d hd)

/-- Every effect under the condition starts watchers of connections only. -/
theorem StartedLive.effect (hs : s.Sound) (h : s.StartedLive) (he : Effect s t)
    (hG : t.Heeds ResumeSafe) : t.StartedLive := by
  cases he with
  | free c hc => exact h.freed (h.freeable hc)
  | replyCut c p k hr =>
    have hc := hs.live hr.live
    refine h.congr ?_ ?_ ?_ ?_ <;> simp [replying] <;> grind
  | replyDone c p hr =>
    have hc := hs.live hr.live
    refine h.congr ?_ ?_ ?_ ?_ <;> simp [replying] <;> grind
  | breakCut fd r c p k hn =>
    have hc := hs.live hn.live
    refine h.congr ?_ ?_ ?_ ?_ <;> simp [notifying, unbridged] <;> grind
  | breakDone fd r c p hn =>
    have hc := hs.live hn.live
    refine h.congr ?_ ?_ ?_ ?_ <;> simp [notifying, unbridged] <;> grind
  | breakFail fd r c p hn =>
    -- `free_channel` stops both watchers of the channel that loses its descriptor
    have hY := (hs.notifying fd c p).popped p.fd 0 p.total
    have hX : ((s.notifying fd c p).popped p.fd 0 p.total).StartedLive := by
      refine h.congr ?_ ?_ ?_ ?_ <;> simp [notifying] <;> grind
    have hc : ((s.notifying fd c p).popped p.fd 0 p.total).Live c := hY.live hn.live
    refine (hX.freed (.inl hc)).congr ?_ ?_ ?_ ?_ <;> simp [unbridged] <;> grind
  | relayCut pkg srcfd dstfd a d k hr =>
    have hd := hs.live hr.dst
    refine h.congr ?_ ?_ ?_ ?_ <;> simp [relaying, pausing] <;> grind
  | relayDone pkg srcfd dstfd a d hr =>
    have ha := hs.live hr.src
    refine h.congr ?_ ?_ ?_ ?_ <;> simp [relaying] <;> grind
  | sendOver c k a hact ho hk ha =>
    -- the source is resumed, and by `ResumeSafe` it is connected
    have hlive := hG (.serverSendCb c) s.toGlobals s.calls
      (by simp [finishing, sending])
      (.intro ho hk) a ha
    have hc := h.send c hact
    refine h.congr ?_ ?_ ?_ ?_ <;> simp [finishing, sending] <;> grind
  | sendNull c k hact =>
    have hc := h.send c hact
    refine h.congr ?_ ?_ ?_ ?_ <;> simp [finishing, sending] <;> grind
  | _ =>
    refine h.congr ?_ ?_ ?_ ?_ <;>
      simp [replying, relaying, sending, unbridged] <;> grind

theorem StartedLive.closing (hs : s.Sound) (h : s.StartedLive) (hc : s.Freeable c)
    (hG : (s.closing c).Heeds ResumeSafe) : (s.closing c).StartedLive := by
  have hX : (s.enter (.closed c)).StartedLive := ⟨h.recv, h.send⟩
  exact (hX.freed (h.freeable hc)).effect ((hs.enter _).freed hc.1) (closing_effect hs hc) hG

/-- A new connection starts with its own receive watcher. -/
theorem StartedLive.accepting (h : s.StartedLive) {fd : ℕ} (hkey : s.channelMap[fd]? = none) :
    (s.accepting fd c).StartedLive := by
  constructor
  · intro d hd
    apply (accepting_live hkey).2
    by_cases hdc : d = c
    · exact .inl hdc
    · exact .inr (h.recv d (by simpa [accepting_channel, hdc] using hd))
  · intro d hd
    apply (accepting_live hkey).2
    by_cases hdc : d = c
    · exact .inl hdc
    · exact .inr (h.send d (by simpa [accepting_channel, hdc] using hd))

/-- Every part of a step under the condition starts watchers of connections only. -/
theorem startedLive_keeps : Keeps ResumeSafe StartedLive where
  boot := ⟨nofun, nofun⟩
  accepting _ h _ _ hkey _ _ := h.accepting hkey
  refusing _ h _ _ := h.congr rfl (fun _ => rfl) (fun _ => .inl) (fun _ => .inl)
  effect hs h he hG := h.effect hs he hG
  closing hs h hc hG := h.closing hs hc hG
  routed _ _ _ h := ⟨h.recv, h.send⟩
  recvPkg c p h := by refine h.congr rfl ?_ ?_ ?_ <;> simp <;> grind
  recvLen c n h := by refine h.congr rfl ?_ ?_ ?_ <;> simp <;> grind

/-- Watchers are owned in every state of a run in which no packet outlives its source. -/
theorem watchers_owned (hr : Reachable s) (hG : s.Heeds ResumeSafe) : s.WatchersOwned :=
  (startedLive_keeps.reachable hr hG).watchersOwned hr.sound

/-- A frame is cut short, and finished later. -/
def resumed : List Event :=
  [.accept 5, .accept 6] ++ Event.stream 0 6 [77] (fun _ => [.sent 3]) ++
    [.send 1 Event.takesAll]

/-- The source is there when it is resumed. -/
theorem watchers_owned_resumed : (after resumed).WatchersOwned :=
  watchers_owned (reachable_after _ (by decide +kernel)) (by decide +kernel)

/-- The source of a pending frame is freed, because `send` to it fails, before the frame is
finished. -/
def sourceLeaves : List Event :=
  [.accept 5, .accept 6, .accept 7] ++ Event.stream 0 6 [77] (fun _ => [.sent 3]) ++
    Event.stream 2 5 [1] (fun _ => [.error]) ++ [.send 1 Event.takesAll]

/-- The source has left when it is resumed, and its watcher is started again. -/
theorem freed_watcher_started : ¬ ∀ s, Reachable s → s.WatchersOwned := by
  intro h
  have howned := (h _ (reachable_after sourceLeaves (by decide +kernel)) 0).1
  exact absurd (howned (by decide +kernel)).1 (by decide +kernel)

end Server
end WawaServer
