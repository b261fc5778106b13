import OttQuic.Quic.ConnTable

/-!
# Refused packets

`quic_engine_process_packet` writes the address and the time of a packet into the entry of its connection,
and looks at the flags afterwards. A packet that is refused for its flags has then been written already:
`refused_untouched_iff` says of every run that no refused packet of it has touched its connection exactly if
none of them belonged to a connection that is CONNECTING, from another address or in another second.
-/

namespace OttQuic

open SlotTable QuicEngine

/-- The refused packet has left what the clean-up left. -/
structure Untouched (engine : QuicEngine) (packet : QuicPacket) (addr : SockAddr) (now nowAdd : Int) : Prop where
  connections : ∀ i, ¬ (engine.connections i).TimedOut now →
    (engine.processPacket packet addr now nowAdd).2.connections i = engine.connections i
  migrated : (engine.processPacket packet addr now nowAdd).2.metrics.connectionsMigrated =
    engine.metrics.connectionsMigrated

/-- If the section processes a packet and refuses it, the packet has no effect. -/
def RefusedUntouched (engine : QuicEngine) (sec : EngineSection) : Prop :=
  ∀ packet addr now nowAdd, sec = .processPacket packet addr now nowAdd →
    (engine.processPacket packet addr now nowAdd).1 = none → Untouched engine packet addr now nowAdd

/-- The packet has none of the flags for which a connection that is not CONNECTED takes a packet. -/
def Unwelcome (packet : QuicPacket) : Prop :=
  packet.has quicFlagClose = false ∧ packet.has quicFlagInitial = false ∧ packet.has quicFlagHandshake = false

/-- The section processes an unwelcome packet of a connection that is CONNECTING and has not timed out, which
comes from another address than the connection's, or in another second than the last one. -/
def Intrudes (engine : QuicEngine) (sec : EngineSection) : Prop :=
  ∃ packet addr now nowAdd i, sec = .processPacket packet addr now nowAdd ∧ Unwelcome packet ∧
    (engine.connections i).inUse = true ∧ (engine.connections i).connectionId = packet.connectionId ∧
    (engine.connections i).state = .connecting ∧ ¬ (engine.connections i).TimedOut now ∧
    ((engine.connections i).addr ≠ addr ∨ (engine.connections i).lastSeen ≠ now)

section

variable {engine : QuicEngine} {packet : QuicPacket} {addr : SockAddr} {now nowAdd : Int}
  {i : Fin quicMaxConnections}

/-! ### The functions -/

theorem cleanup_migrated (engine : QuicEngine) (now : Int) :
    (engine.cleanupConnections now).metrics.connectionsMigrated = engine.metrics.connectionsMigrated := by
  rw [cleanupConnections_eq]
  refine forSlots_preserves
    (I := fun s : QuicEngine => s.metrics.connectionsMigrated = engine.metrics.connectionsMigrated) rfl
    fun s i hs => ?_
  split_ifs
  · exact hs
  · exact hs

theorem cleanup_inUse (h : ((engine.cleanupConnections now).connections i).inUse = true) :
    (engine.cleanupConnections now).connections i = engine.connections i ∧
      ¬ (engine.connections i).TimedOut now := by
  rw [cleanup_connections] at h ⊢
  split_ifs at h ⊢ with hout
  · cases h
  · exact ⟨rfl, hout⟩

/-- In a table without two entries of one id, the entry of an id is found also after the clean-up. -/
theorem findEntry_cleanup (hok : TableOk engine) (hused : (engine.connections i).inUse = true)
    (hkept : ¬ (engine.connections i).TimedOut now) :
    (engine.cleanupConnections now).findEntry (engine.connections i).connectionId = some i := by
  have hslot : (engine.cleanupConnections now).connections i = engine.connections i := by
    rw [cleanup_connections, if_neg hkept]
  unfold findEntry findKey
  apply findSlot_unique
  · rw [hslot]
    simp [hused]
  · intro j hj
    simp only [Bool.and_eq_true, decide_eq_true_eq] at hj
    have hsame := (cleanup_inUse hj.1).1
    rw [hsame] at hj
    exact hok.unique j i hj.1 hused hj.2

/-- The entry of the connection takes the address and the time of the packet, whatever its flags. -/
theorem processPacket_known (addr : SockAddr) (nowAdd : Int)
    (hfind : (engine.cleanupConnections now).findEntry packet.connectionId = some i) :
    engine.processPacket packet addr now nowAdd =
      ((engine.cleanupConnections now).targeted
        ⟨i, { (engine.cleanupConnections now).connections i with addr := addr, lastSeen := now }, false⟩
        (decide (((engine.cleanupConnections now).connections i).addr ≠ addr))).processEntry packet addr i false
          (if ((engine.cleanupConnections now).connections i).addr ≠ addr then
            some (((engine.cleanupConnections now).connections i).state, addr) else none) := by
  unfold processPacket targeted
  simp [hfind]

theorem processEntry_refused {changed : Option (QuicConnectionState × SockAddr)}
    (h : (engine.processEntry packet addr i false changed).1 = none) :
    (engine.processEntry packet addr i false changed).2 = engine := by
  have hdelivers : ¬ Delivers (engine.connections i) packet := by
    rw [← processEntry_isSome engine packet addr i false changed, h]
    exact Bool.false_ne_true
  have hclose : ¬ packet.has quicFlagClose = true := fun hflag => hdelivers (.inl hflag)
  have hhandshake : ¬ packet.has quicFlagHandshake = true := fun hflag => hdelivers (.inr (.inr (.inr hflag)))
  unfold processEntry
  simp [hclose, hhandshake]

/-- A packet is refused exactly if it is unwelcome and its connection is not CONNECTED, or there is no entry
for it. -/
theorem not_delivers_iff {entry : QuicConnectionEntry} :
    ¬ Delivers entry packet ↔ Unwelcome packet ∧ entry.state ≠ .connected := by
  unfold Delivers Unwelcome processedEntry
  cases packet.has quicFlagClose
  · cases packet.has quicFlagInitial
    · cases packet.has quicFlagHandshake
      · simp
      · simp
    · simp
  · simp

/-! ### One packet -/

theorem untouched_known_iff (hok : TableOk engine) (hused : (engine.connections i).inUse = true)
    (hid : (engine.connections i).connectionId = packet.connectionId)
    (hkept : ¬ (engine.connections i).TimedOut now)
    (hrefused : (engine.processPacket packet addr now nowAdd).1 = none) :
    Untouched engine packet addr now nowAdd ↔
      (engine.connections i).addr = addr ∧ (engine.connections i).lastSeen = now := by
  have hfind : (engine.cleanupConnections now).findEntry packet.connectionId = some i :=
    hid ▸ findEntry_cleanup hok hused hkept
  have hslot : (engine.cleanupConnections now).connections i = engine.connections i := by
    rw [cleanup_connections, if_neg hkept]
  have hprocess := processPacket_known addr nowAdd hfind
  rw [hslot] at hprocess
  have hresult : (engine.processPacket packet addr now nowAdd).2 =
      (engine.cleanupConnections now).targeted
        ⟨i, { engine.connections i with addr := addr, lastSeen := now }, false⟩
        (decide ((engine.connections i).addr ≠ addr)) := by
    rw [hprocess] at hrefused ⊢
    exact processEntry_refused hrefused
  constructor
  · intro huntouched
    have hentry := huntouched.connections i hkept
    rw [hresult, targeted_connections, Function.update_self] at hentry
    exact ⟨(congrArg QuicConnectionEntry.addr hentry).symm, (congrArg QuicConnectionEntry.lastSeen hentry).symm⟩
  · rintro ⟨rfl, rfl⟩
    refine ⟨fun j hj => ?_, ?_⟩
    · rw [hresult, targeted_connections]
      by_cases hji : j = i
      · subst hji
        rw [Function.update_self]
      · rw [Function.update_of_ne hji, cleanup_connections, if_neg hj]
    · rw [hresult, targeted]
      simp only [ne_eq, not_true_eq_false, decide_false, Bool.false_eq_true, if_false]
      exact cleanup_migrated engine (engine.connections i).lastSeen

theorem untouched_unknown (hfind : (engine.cleanupConnections now).findEntry packet.connectionId = none)
    (hrefused : (engine.processPacket packet addr now nowAdd).1 = none) :
    Untouched engine packet addr now nowAdd := by
  have hnothing : engine.processPacket packet addr now nowAdd = (none, engine.cleanupConnections now) := by
    obtain ⟨target, migrated, changed, htarget, -, hprocess⟩ | ⟨-, hprocess⟩ :=
      engine.processPacket_eq packet addr now nowAdd
    · -- a packet that makes an entry is not refused
      obtain ⟨-, -, ⟨hfound, -⟩ | ⟨-, -, hinitial, -⟩⟩ := packetTarget_cases htarget
      · rw [hfind] at hfound
        cases hfound
      · have hsome : (engine.processPacket packet addr now nowAdd).1.isSome = true := by
          rw [hprocess, processEntry_isSome]
          exact .inr (.inr (.inl hinitial))
        rw [hrefused] at hsome
        cases hsome
    · exact hprocess
  refine ⟨fun j hj => ?_, ?_⟩
  · rw [hnothing, cleanup_connections, if_neg hj]
  · rw [hnothing]
    exact cleanup_migrated engine now

end

/-- **One section.** -/
theorem refusedUntouched_iff {engine : QuicEngine} {sec : EngineSection} (hok : TableOk engine) :
    RefusedUntouched engine sec ↔ ¬ Intrudes engine sec := by
  constructor
  · rintro huntouched ⟨packet, addr, now, nowAdd, i, rfl, hflags, hused, hid, hstate, hkept, hchanged⟩
    have hfind : (engine.cleanupConnections now).findEntry packet.connectionId = some i :=
      hid ▸ findEntry_cleanup hok hused hkept
    have hslot : (engine.cleanupConnections now).connections i = engine.connections i := by
      rw [cleanup_connections, if_neg hkept]
    have hrefused : (engine.processPacket packet addr now nowAdd).1 = none := by
      rw [processPacket_known addr nowAdd hfind, ← Option.not_isSome_iff_eq_none, processEntry_isSome,
        targeted_connections, Function.update_self, not_delivers_iff, hslot]
      exact ⟨hflags, by rw [hstate]; decide⟩
    have hsame := (untouched_known_iff hok hused hid hkept hrefused).mp
      (huntouched packet addr now nowAdd rfl hrefused)
    obtain haddr | hseen := hchanged
    · exact haddr hsame.1
    · exact hseen hsame.2
  · rintro hnot packet addr now nowAdd rfl hrefused
    cases hfind : (engine.cleanupConnections now).findEntry packet.connectionId with
    | none => exact untouched_unknown hfind hrefused
    | some i =>
        obtain ⟨hused, hid⟩ := findEntry_some hfind
        obtain ⟨hslot, hkept⟩ := cleanup_inUse hused
        rw [hslot] at hused hid
        rw [untouched_known_iff hok hused hid hkept hrefused]
        have hflags : Unwelcome packet ∧ (engine.connections i).state ≠ .connected := by
          rw [processPacket_known addr nowAdd hfind, ← Option.not_isSome_iff_eq_none, processEntry_isSome,
            targeted_connections, Function.update_self, not_delivers_iff, hslot] at hrefused
          exact hrefused
        have hstate : (engine.connections i).state = .connecting :=
          ((hok.state i).1 hused).resolve_right hflags.2
        by_contra hchanged
        rw [not_and_or] at hchanged
        exact hnot ⟨packet, addr, now, nowAdd, i, rfl, hflags.1, hused, hid, hstate, hkept, hchanged⟩

/-- **Refused packets.** In any run of the engine's sections every packet that is refused has no effect on its
connection, exactly if no packet of the run intrudes on a connection that is CONNECTING. -/
theorem refused_untouched_iff (handler : Bool) (secs : List EngineSection) :
    (∀ before sec after, secs = before ++ sec :: after →
      RefusedUntouched (runSections (quicEngineInit handler) before) sec) ↔
    ∀ before sec after, secs = before ++ sec :: after →
      ¬ Intrudes (runSections (quicEngineInit handler) before) sec :=
  forall_congr' fun before => forall_congr' fun _ => forall_congr' fun _ => imp_congr_right fun _ =>
    refusedUntouched_iff (reachable_tableOk (reachable_runSections handler before))

/-- An INITIAL, and one DATA packet of its connection from another address: the packet is refused and the
connection has the other address. -/
theorem refused_packet_migrates :
    ¬ RefusedUntouched
      (runSections (quicEngineInit false)
        [.processPacket ⟨quicFlagInitial, 7, 1, 0, 0, .empty⟩ ⟨20443, 0x7F000001⟩ 0 0])
      (.processPacket ⟨quicFlagData, 7, 2, 0, 0, .empty⟩ ⟨20443, 0x0A000001⟩ 0 0) := by
  intro h
  have huntouched := h _ _ _ _ rfl (by decide +kernel)
  have haddr := congrArg QuicConnectionEntry.addr (huntouched.connections 0 (by decide +kernel))
  revert haddr
  decide +kernel

end OttQuic
