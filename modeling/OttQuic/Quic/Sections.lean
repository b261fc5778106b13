import OttQuic.Quic.Connections
import OttQuic.Lib.Transition

/-!
# The engine as a system of sections

Other threads run between two lock operations of the receive loop, so the atomic step is a section:
what the engine does while it holds its lock once, and the two functions it calls without the lock,
`quic_stream_on_data` and `quic_engine_track_pending`. A run is any list of sections, of any threads.

`step_slot` says everything one section can do to one slot of the connection table.
-/

namespace OttQuic

open SlotTable QuicEngine

inductive EngineSection where
  | countReceived
  | countSent
  | ackPending (connectionId : UInt64) (packetNumber : UInt32)
  | processPacket (packet : QuicPacket) (addr : SockAddr) (now nowAdd : Int)
  | onData (slot : Fin quicMaxConnections) (call : StreamCall)
  | trackPending (packet : QuicPacket) (buffer : Bytes) (now : Int)
  | getConnection (connectionId : UInt64) (now : Int)
  | closeLocked (connectionId : UInt64)
  | receiveTimeout (now nowRetransmit : Int) (sendOk : Fin quicMaxPending → Bool)
  | setStateHandler (installed : Bool)
  | setStreamDataHandler (installed : Bool)

namespace EngineSection

def step (engine : QuicEngine) : EngineSection → QuicEngine
  | countReceived => engine.countReceived
  | countSent => engine.countSent
  | ackPending cid pn => engine.ackPending cid pn
  | processPacket packet addr now nowAdd => (engine.processPacket packet addr now nowAdd).2
  | onData slot call => (engine.onData slot call).2
  | trackPending packet buffer now => engine.trackPending packet buffer now
  | getConnection cid now => (engine.getConnection cid now).2
  | closeLocked cid => (engine.closeLocked cid).2
  | receiveTimeout now nowRetransmit sendOk => (engine.receiveTimeout now nowRetransmit sendOk).2
  | setStateHandler installed => { engine with stateHandler := installed }
  | setStreamDataHandler installed => { engine with streamHandler := installed }

/-- The engine after the clean-up with which some sections begin. -/
def start (engine : QuicEngine) : EngineSection → QuicEngine
  | processPacket _ _ now _ => engine.cleanupConnections now
  | getConnection _ now => engine.cleanupConnections now
  | receiveTimeout now _ _ => engine.cleanupConnections now
  | _ => engine

/-- The section processes a packet of the connection with the flag. -/
def Processes (sec : EngineSection) (cid : UInt64) (flag : UInt8) : Prop :=
  ∃ packet addr now nowAdd, sec = processPacket packet addr now nowAdd ∧
    packet.connectionId = cid ∧ packet.has flag = true

end EngineSection

/-- The engine with the packet handler or without, and its sections. -/
def engineSystem (handler : Bool) : Transition.System QuicEngine EngineSection :=
  .ofFun (quicEngineInit handler) EngineSection.step

def runSections (engine : QuicEngine) (secs : List EngineSection) : QuicEngine :=
  secs.foldl EngineSection.step engine

theorem reachable_runSections (handler : Bool) (secs : List EngineSection) :
    (engineSystem handler).Reachable (runSections (quicEngineInit handler) secs) :=
  Transition.System.reachable_ofFun.mpr ⟨secs, rfl⟩

/-! ### One slot in one section -/

/-- What a section can do to a connection slot after its clean-up. -/
inductive SlotStep (sec : EngineSection) (before after : QuicConnectionEntry) : Prop
  | kept (hid : after.connectionId = before.connectionId) (hused : after.inUse = before.inUse)
      (hstate : after.state = before.state)
  | freed (hused : after.inUse = false) (hstate : after.state = .closed)
  | created (hsec : sec.Processes after.connectionId quicFlagInitial) (hfree : before.inUse = false)
      (hused : after.inUse = true) (hmgr : after.streamMgr = quicStreamManagerInit)
      (hstate : after.state = .connecting ∨
        after.state = .connected ∧ sec.Processes after.connectionId quicFlagHandshake)
  | connected (hsec : sec.Processes after.connectionId quicFlagHandshake)
      (hid : after.connectionId = before.connectionId) (hfrom : before.inUse = true)
      (hused : after.inUse = true) (hstate : after.state = .connected)

theorem SlotStep.refl {sec : EngineSection} {entry entry' : QuicConnectionEntry} (h : entry' = entry) :
    SlotStep sec entry entry' := .kept (by rw [h]) (by rw [h]) (by rw [h])

theorem trackPending_connections (engine : QuicEngine) (packet : QuicPacket) (buffer : Bytes)
    (now : Int) : (engine.trackPending packet buffer now).connections = engine.connections := by
  unfold trackPending
  split_ifs
  · rfl
  · rfl
  · split <;> rfl

theorem ackPending_connections (engine : QuicEngine) (cid : UInt64) (pn : UInt32) :
    (engine.ackPending cid pn).connections = engine.connections := by
  unfold ackPending
  split <;> rfl

theorem retransmitPending_connections (engine : QuicEngine) (now : Int)
    (sendOk : Fin quicMaxPending → Bool) :
    (engine.retransmitPending now sendOk).2.connections = engine.connections :=
  retransmitPending_frame connections (fun _ _ _ => rfl) (fun _ _ => rfl) engine now sendOk

theorem onData_connections (engine : QuicEngine) (i : Fin quicMaxConnections) (call : StreamCall) :
    (engine.onData i call).2.connections = Function.update engine.connections i
      { engine.connections i with streamMgr := (call.run (engine.connections i).streamMgr).2 } := rfl

theorem processedEntry_slotStep {packet : QuicPacket} {addr : SockAddr} {now nowAdd : Int}
    {engine : QuicEngine} {target : PacketTarget}
    (htarget : engine.packetTarget packet addr now nowAdd = some target) :
    SlotStep (.processPacket packet addr now nowAdd) (engine.connections target.slot)
      (processedEntry target.entry packet) := by
  obtain ⟨hid, hused, hwhich⟩ := packetTarget_cases htarget
  have hproc : ∀ flag, packet.has flag = true →
      (EngineSection.processPacket packet addr now nowAdd).Processes target.entry.connectionId flag :=
    fun flag hflag => ⟨packet, addr, now, nowAdd, rfl, hid.symm, hflag⟩
  unfold processedEntry
  by_cases hclose : packet.has quicFlagClose = true
  · rw [if_pos hclose]
    exact .freed rfl rfl
  · rw [if_neg hclose]
    by_cases hconnects : target.entry.state = .connecting ∧ packet.has quicFlagHandshake = true
    · rw [if_pos hconnects]
      rcases hwhich with ⟨hfind, _, hentry⟩ | ⟨_, _, hinit, hfree, hentry⟩
      · exact .connected (hproc _ hconnects.2) (by rw [hentry]) (findEntry_some hfind).1 hused rfl
      · exact .created (hproc _ hinit) hfree hused (by rw [hentry]; rfl)
          (Or.inr ⟨rfl, hproc _ hconnects.2⟩)
    · rw [if_neg hconnects]
      rcases hwhich with ⟨_, _, hentry⟩ | ⟨_, _, hinit, hfree, hentry⟩
      · exact .kept (by rw [hentry]) (by rw [hentry]) (by rw [hentry])
      · exact .created (hproc _ hinit) hfree hused (by rw [hentry]; rfl)
          (Or.inl (by rw [hentry]; rfl))

theorem slotStep_update {sec : EngineSection} {t : Fin quicMaxConnections → QuicConnectionEntry}
    {j : Fin quicMaxConnections} {entry : QuicConnectionEntry} (h : SlotStep sec (t j) entry)
    (i : Fin quicMaxConnections) : SlotStep sec (t i) (Function.update t j entry i) := by
  by_cases hi : i = j
  · subst hi
    rw [Function.update_self]
    exact h
  · rw [Function.update_of_ne hi]
    exact .refl rfl

/-- **One section, one slot.** -/
theorem step_slot (engine : QuicEngine) (sec : EngineSection) (i : Fin quicMaxConnections) :
    SlotStep sec ((sec.start engine).connections i) ((sec.step engine).connections i) := by
  cases sec with
  | processPacket packet addr now nowAdd =>
      have hspec := (engine.processPacket_spec packet addr now nowAdd).2
      cases htarget : (engine.cleanupConnections now).packetTarget packet addr now nowAdd with
      | none =>
          rw [htarget] at hspec
          refine .refl ?_
          show (engine.processPacket packet addr now nowAdd).2.connections i = _
          rw [hspec]
          rfl
      | some target =>
          rw [htarget] at hspec
          show SlotStep _ _ ((engine.processPacket packet addr now nowAdd).2.connections i)
          rw [hspec.1]
          exact slotStep_update (processedEntry_slotStep htarget) i
  | onData slot call =>
      show SlotStep _ (engine.connections i) ((engine.onData slot call).2.connections i)
      rw [onData_connections]
      exact slotStep_update (by exact .kept rfl rfl rfl) i
  | ackPending cid pn => exact .refl (congrFun (ackPending_connections engine cid pn) i)
  | trackPending packet buffer now => exact .refl (congrFun (trackPending_connections engine packet buffer now) i)
  | receiveTimeout now nowRetransmit sendOk =>
      refine .refl ?_
      show ((engine.cleanupConnections now).retransmitPending nowRetransmit sendOk).2.connections i
        = (engine.cleanupConnections now).connections i
      rw [retransmitPending_connections]
  | getConnection cid now =>
      show SlotStep _ ((engine.cleanupConnections now).connections i)
        ((engine.getConnection cid now).2.connections i)
      unfold QuicEngine.getConnection
      dsimp only
      cases (engine.cleanupConnections now).findEntry cid with
      | none => exact .refl rfl
      | some j =>
          dsimp only
          split_ifs
          · exact slotStep_update (by exact .kept rfl rfl rfl) i
          · exact .refl rfl
  | closeLocked cid =>
      show SlotStep _ (engine.connections i) ((engine.closeLocked cid).2.connections i)
      unfold QuicEngine.closeLocked
      cases engine.findEntry cid with
      | none => exact .refl rfl
      | some j =>
          dsimp only
          split_ifs
          · exact slotStep_update (.freed rfl rfl) i
          · exact .refl rfl
  | countReceived => exact .refl rfl
  | countSent => exact .refl rfl
  | setStateHandler installed => exact .refl rfl
  | setStreamDataHandler installed => exact .refl rfl

theorem start_slot (engine : QuicEngine) (sec : EngineSection) (i : Fin quicMaxConnections) :
    (sec.start engine).connections i = engine.connections i ∨
      (engine.connections i).inUse = true ∧
        (sec.start engine).connections i = (engine.connections i).close := by
  have hcleanup : ∀ now, (engine.cleanupConnections now).connections i = engine.connections i ∨
      (engine.connections i).inUse = true ∧
        (engine.cleanupConnections now).connections i = (engine.connections i).close := by
    intro now
    rw [cleanup_connections]
    split_ifs with hout
    · exact Or.inr ⟨hout.1, rfl⟩
    · exact Or.inl rfl
  cases sec with
  | processPacket packet addr now nowAdd => exact hcleanup now
  | getConnection cid now => exact hcleanup now
  | receiveTimeout now nowRetransmit sendOk => exact hcleanup now
  | _ => exact Or.inl rfl

end OttQuic
