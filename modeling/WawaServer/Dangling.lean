import WawaServer.Bridges
import WawaServer.Descriptors

/-!
# Bridges to raspis that are gone

An entry of `bridge_map` is a pointer to the channel of the raspi that was chosen. Nothing looks at
`bridge_map` when a raspi leaves, so the entry outlives the connection, and then belongs to whoever
is given the slot. `RaspiStays` rules this out; every entry then leads to the connection that was
named in the choose request (`bridges_lead_home`), and `check_break_fd` touches no other.
-/

namespace WawaServer

/-- No raspi leaves while a bridge leads to it, but for the bridge of the viewer that has just left,
or while the request that chose it is answered. -/
def RaspiStays : Call → Globals → History → Prop
  | .freeChannel c, g, l =>
    (∀ e ∈ g.bridgeMap.toList, l.breaking ≠ some e.1 →
      (g.channel e.2).fd ≠ (g.channel c).fd) ∧
      ∀ e ∈ l.choosing, (g.channel e.2).fd ≠ (g.channel c).fd
  | _, _, _ => True

instance (k : Call) (g : Globals) (l : History) : Decidable (RaspiStays k g l) := by
  refine k.casesOn ?_ ?_ ?_ ?_ ?_ ?_ ?_ ?_ ?_ ?_ ?_ ?_ <;> intros <;>
    dsimp only [RaspiStays] <;> infer_instance

namespace Server

variable {s t : Server} {c d r : Slot} {pkg : Pkg} {fd : ℕ}

/-- `r` is the channel of the connection that was named when the bridge of `fd` was made. -/
def LeadsHome (s : Server) (fd : ℕ) (r : Slot) : Prop :=
  s.Live r ∧ (s.calls.bridging fd).2 = s.calls.conn (s.channel r).fd

/-- `LeadsHome` reads the raspi's entry and the names of the two connections. -/
theorem LeadsHome.congr (h : s.LeadsHome fd r) (hl : t.Live r)
    (hr : (t.channel r).fd = (s.channel r).fd)
    (hg : t.calls.gen (s.channel r).fd = s.calls.gen (s.channel r).fd)
    (hb : t.calls.bridging fd = s.calls.bridging fd) : t.LeadsHome fd r := by
  refine ⟨hl, ?_⟩
  show (t.calls.bridging fd).2 = ((t.channel r).fd, t.calls.gen (t.channel r).fd)
  rw [hb, hr, hg]
  exact h.2

/-- `accept` returns a descriptor that is not the raspi's. -/
theorem LeadsHome.accepted (h : s.LeadsHome fd r) {fd' : ℕ} (hkey : s.channelMap[fd']? = none) :
    (s.channel r).fd ≠ fd' := by
  rintro rfl
  cases hkey.symm.trans h.1

/-- Who is chosen is in `channel_map`. -/
theorem map_of_chosen (h : s.chosen pkg = some d) : s.channelMap[pkg.chooseFd]? = some d := by
  unfold Globals.chosen at h
  split at h
  · cases h
  · exact map_of_lookup h

/-- A bridge leads to the connection that was chosen, as long as that stays. -/
theorem leadsHome_law : BridgeLaw RaspiStays LeadsHome where
  less {s t fd r} hc hm _ h := by
    have hl : t.Live r := by
      show t.channelMap[(t.channel r).fd]? = some r
      rw [hm, hc.fd]
      exact h.1
    exact h.congr hl (hc.fd r) (hc.gen _) (hc.bridging _)
  accepting {s fd fd' c r} hs hI hkey hfree _ hb := by
    have h := hI.entry fd r hb
    have hne := h.accepted hkey
    -- the slot of the new connection was not active
    have hrc : r ≠ c := by
      rintro rfl
      cases (freeSlot_some hfree).symm.trans (hs.map _ _ h.1).2.2.1
    have hfd : ((s.accepting fd' c).channel r).fd = (s.channel r).fd := by
      rw [accepting_channel, if_neg hrc]
    refine h.congr ?_ hfd ?_ rfl
    · -- the entry of the raspi is not the new one
      show (s.accepting fd' c).channelMap[((s.accepting fd' c).channel r).fd]? = some r
      rw [hfd, accepting_channelMap hkey, if_neg hne]
      exact h.1
    · simp [Server.accepting, History.gen, Ne.symm hne]
  refusing {s fd fd' r} hI hkey _ hb := by
    have h := hI.entry fd r hb
    have hne := h.accepted hkey
    refine h.congr h.1 rfl ?_ rfl
    simp [Server.refusing, History.gen, Ne.symm hne]
  chosen {s pkg fd r} _ hI _ hb := by
    have h := hI.entry fd r hb
    refine h.congr h.1 rfl rfl ?_
    simp [Server.enter, History.bridging, hb]
  making {s pkg d} hs _ _ _ hd hb := by
    have hm := map_of_chosen hd
    -- the bridge is made for the connection that owns the chosen descriptor now
    have hfd := hs.fd_eq hm
    refine ⟨hs.live hm, ?_⟩
    show (History.bridging pkg.fd ((.handleChooseServerReq pkg, s.toGlobals) :: s.calls)).2 =
      ((s.channel d).fd, s.calls.gen (s.channel d).fd)
    rw [History.bridging, if_pos ⟨rfl, by simp [hd], hb⟩, hfd]
    rfl
  freed {s c fd r} _ _ hG h hcase := by
    -- `RaspiStays`: a raspi with a bridge is not freed before its viewer
    have hne : (s.channel r).fd ≠ (s.channel c).fd := by
      rcases hcase with ⟨hb, hd⟩ | hch
      · refine hG.1 (fd, r) ?_ fun hbr => hd (.inl hbr)
        rwa [Std.ExtTreeMap.mem_toList_iff_getElem?_eq_some]
      · exact hG.2 (fd, r) hch
    exact h.congr (freed_live.2 ⟨hne, h.1⟩) (freed_channel_fd ..) rfl rfl
  bridged h _ _ _ := h

/-! ## What `check_break_fd` touches -/

/-- `response` sends to its addressee only. -/
theorem response_sent (s : Server) (p : Pkg) {fd : ℕ} (h : fd ≠ p.fd) :
    (s.response p).1.sent fd = s.sent fd := by
  rcases s.response_cases p with ⟨-, h'⟩ | ⟨c, -, ⟨k, -, h'⟩ | ⟨-, h'⟩ | ⟨-, h'⟩⟩ <;> rw [h']
  · rfl
  · simp [wrote, popped, Function.update_of_ne h, startSend, setSendLen, Server.modify]
  · simp [wrote, popped, Function.update_of_ne h, startRecv, setSendLen, Server.modify]
  · rfl

/-- `check_break_fd` changes the channel of the raspi of the bridge, as long as the raspi is there.
-/
theorem checkBreakFd_channel (hs : s.Sound) (type : ClientType)
    (hl : type = .remote → ∀ r : Slot, s.bridgeMap[fd]? = some r → s.Live r) (d : Slot) :
    (s.checkBreakFd type fd).channel d = s.channel d ∨
      type = .remote ∧ s.bridgeMap[fd]? = some d := by
  rcases s.checkBreakFd_cases type fd with ⟨-, h⟩ | ⟨r, rfl, hb, h⟩ <;> rw [h]
  · exact .inl rfl
  · by_cases hdr : d = r
    · exact .inr ⟨rfl, hdr ▸ hb⟩
    · left
      have hkeep : ((s.enter (.checkBreakFd .remote fd)).response
          (restartPkg (s.channel r).fd)).1.channel d = s.channel d := by
        -- `response` writes only to the owner of the raspi's descriptor, the raspi itself
        apply response_channel (hs.enter (.checkBreakFd .remote fd))
        rw [fd_restartPkg (hs.slot r).fd_lt]
        exact fun hm => hdr (Option.some.inj (hm.symm.trans (hl rfl r hb)))
      simpa [unbridged, setStatus, modify_channel, hdr] using hkeep

/-- `check_break_fd` writes to the descriptor of the channel of the bridge. -/
theorem checkBreakFd_sent (hs : s.Sound) (type : ClientType) (fd fd' : ℕ) :
    (s.checkBreakFd type fd).sent fd' = s.sent fd' ∨
      type = .remote ∧ ∃ r : Slot, s.bridgeMap[fd]? = some r ∧ fd' = (s.channel r).fd := by
  rcases s.checkBreakFd_cases type fd with ⟨-, h⟩ | ⟨r, rfl, hb, h⟩ <;> rw [h]
  · exact .inl rfl
  · by_cases hfd : fd' = (s.channel r).fd
    · exact .inr ⟨rfl, r, hb, hfd⟩
    · left
      apply response_sent (s.enter (.checkBreakFd .remote fd)) _
      rw [fd_restartPkg (hs.slot r).fd_lt]
      exact hfd

/-! ## Runs -/

/-- Every bridge leads to the active channel of the connection that was named in the choose
request, and `check_break_fd` touched no other channel and no other descriptor. -/
structure BridgesLeadHome (s : Server) : Prop where
  value : ∀ (fd : ℕ) (r : Slot), s.bridgeMap[fd]? = some r →
    (s.channel r).status = .active ∧ s.LeadsHome fd r
  channel : ∀ type fd g l, (.checkBreakFd type fd, g) :: l <:+ s.calls → ∀ d,
    ((⟨g, l⟩ : Server).checkBreakFd type fd).channel d = g.channel d ∨
      g.bridgeMap[fd]? = some d ∧ LeadsHome ⟨g, l⟩ fd d
  sent : ∀ type fd g l, (.checkBreakFd type fd, g) :: l <:+ s.calls → ∀ fd',
    ((⟨g, l⟩ : Server).checkBreakFd type fd).sent fd' = g.sent fd' ∨
      ∃ d : Slot, g.bridgeMap[fd]? = some d ∧ LeadsHome ⟨g, l⟩ fd d ∧ fd' = (g.channel d).fd

/-- Freeing another connection leaves the raspi where it is. -/
theorem LeadsHome.freed (h : s.LeadsHome fd r) (hne : (s.channel r).fd ≠ (s.channel c).fd) :
    (s.freed c).LeadsHome fd r :=
  h.congr (freed_live.2 ⟨hne, h.1⟩) (freed_channel_fd ..) rfl rfl

/-- In the runs where raspis leave after their viewers no bridge dangles. -/
theorem bridges_lead_home (hr : Reachable s) (hG : s.Heeds RaspiStays) : s.BridgesLeadHome := by
  have hkeep := by
    refine leadsHome_law.parted (fun _ _ _ h => h) fun {s c r} _ _ hcl hG _ hb h => h.freed ?_
    refine hG.1 ((s.channel c).fd, r) ?_ fun hbr => ?_
    · rwa [Std.ExtTreeMap.mem_toList_iff_getElem?_eq_some]
    · cases hcl.symm.trans (closing_of_breaking hbr)
  obtain ⟨⟨⟨-, hlaw⟩, -⟩, hpart⟩ := hkeep.reachable hr hG
  have htouch : ∀ type fd g l, (.checkBreakFd type fd, g) :: l <:+ s.calls →
      type = .remote → ∀ r : Slot, g.bridgeMap[fd]? = some r → LeadsHome ⟨g, l⟩ fd r := by
    rintro type fd g l hl rfl r hb
    exact hpart fd g l hl r hb
  refine ⟨fun fd r hb => ?_, fun type fd g l hl d => ?_, fun type fd g l hl fd' => ?_⟩
  · have h := hlaw.entry fd r hb
    exact ⟨(hr.sound.map _ r h.1).2.2.1, h⟩
  · have hlive := fun ht r hb => (htouch type fd g l hl ht r hb).1
    rcases checkBreakFd_channel (hr.soundCalls _ g l hl) type hlive d with h | ⟨ht, hb⟩
    · exact .inl h
    · exact .inr ⟨hb, htouch type fd g l hl ht d hb⟩
  · rcases checkBreakFd_sent (hr.soundCalls _ g l hl) type fd fd' with h | ⟨ht, r, hb, hfd⟩
    · exact .inl h
    · exact .inr ⟨r, hb, htouch type fd g l hl ht r hb, hfd⟩

/-- The viewer leaves, and then the raspi. -/
def viewerFirst : List Event :=
  viewerJoins ++ [.recv 1 .closed Event.takesAll, .recv 0 .closed Event.takesAll]

theorem bridges_lead_home_viewerFirst : (after viewerFirst).BridgesLeadHome :=
  bridges_lead_home (reachable_after _ (by decide +kernel)) (by decide +kernel)

/-- The raspi leaves before its viewer. -/
def raspiFirst : List Event := viewerJoins ++ [.recv 0 .closed Event.takesAll]

/-- A raspi leaves before its viewer, and the bridge stays. -/
theorem bridge_dangles : ¬ ∀ s, Reachable s → s.BridgesLeadHome := by
  intro h
  have hvalue := (h _ (reachable_after raspiFirst (by decide +kernel))).value 6 0 (by decide +kernel)
  exact absurd hvalue.1 (by decide +kernel)

end Server
end WawaServer
