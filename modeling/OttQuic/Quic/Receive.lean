import OttQuic.Quic.ConnTable

/-!
# One datagram through the receive loop

What a received packet does to the connection table and to the stream handler, as one statement about
its target (`receive_accepted`): after the clean-up and `quic_engine_process_packet`, a DATA packet goes
to the stream manager of the target's entry, which is found again because the ids are unique. A packet
that closes its connection finds no entry. Nothing else in the loop body touches the table.

`EngineOp` are the operations of the engine, each atomic; every run of operations is a run of sections.
-/

namespace OttQuic

open SlotTable QuicEngine

/-- A chunk passed to the stream handler. -/
structure Chunk where
  connectionId : UInt64
  streamId : UInt32
  offset : UInt32
  data : Bytes
  deriving DecidableEq

def QuicOutput.chunk? : QuicOutput → Option Chunk
  | streamData connectionId streamId offset data => some ⟨connectionId, streamId, offset, data⟩
  | _ => none

/-- The chunks passed to the stream handler, in call order. -/
def handedOver (out : List QuicOutput) : List Chunk := out.filterMap QuicOutput.chunk?

theorem handedOver_append (out out' : List QuicOutput) :
    handedOver (out ++ out') = handedOver out ++ handedOver out' :=
  List.filterMap_append

/-! ### What does not touch the connection table -/

section Send

variable (engine : QuicEngine) (packet : QuicPacket) (addr : SockAddr) (env : SendEnv)

theorem send_connections : (engine.send packet addr env).engine.connections = engine.connections := by
  unfold QuicEngine.send
  cases quicPacketSerialize packet quicMaxPacketSize with
  | none => rfl
  | some buffer =>
      dsimp only
      split_ifs
      · exact trackPending_connections _ _ _ _
      · rfl

theorem trackPending_handlers (buffer : Bytes) (now : Int) :
    (engine.trackPending packet buffer now).handlers = engine.handlers := by
  unfold trackPending
  split_ifs
  · rfl
  · rfl
  · split <;> rfl

theorem send_handlers : (engine.send packet addr env).engine.handlers = engine.handlers := by
  unfold QuicEngine.send
  cases quicPacketSerialize packet quicMaxPacketSize with
  | none => rfl
  | some buffer =>
      dsimp only
      split_ifs
      · exact trackPending_handlers _ _ _ _
      · rfl

theorem send_out :
    (engine.send packet addr env).out
      = if (engine.send packet addr env).rc = 0 then [.sent packet addr] else [] := by
  unfold QuicEngine.send
  cases quicPacketSerialize packet quicMaxPacketSize with
  | none => rfl
  | some buffer =>
      dsimp only
      by_cases hok : env.ok = true <;> simp [hok]

theorem send_handedOver : handedOver (engine.send packet addr env).out = [] := by
  rw [send_out]
  split_ifs <;> rfl

end Send

theorem cleanup_connections_congr {engine engine' : QuicEngine}
    (h : engine.connections = engine'.connections) (now : Int) :
    (engine.cleanupConnections now).connections = (engine'.cleanupConnections now).connections := by
  funext i
  rw [cleanup_connections, cleanup_connections, h]

theorem packetTarget_congr {engine engine' : QuicEngine}
    (h : engine.connections = engine'.connections) (packet : QuicPacket) (addr : SockAddr)
    (now nowAdd : Int) :
    engine.packetTarget packet addr now nowAdd = engine'.packetTarget packet addr now nowAdd := by
  simp only [packetTarget, findEntry, h]

theorem streamHandler_of_handlers {engine engine' : QuicEngine} (h : engine.handlers = engine'.handlers) :
    engine.streamHandler = engine'.streamHandler :=
  congrArg (fun installed : Bool × Bool × Bool => installed.2.1) h

/-! ### Delivery -/

/-- What a finished stream call passes to the handler. -/
def OnDataResult.chunks (result : OnDataResult) (packet : QuicPacket) : List Chunk :=
  if result.rc = 0 ∧ (result.out.getD []).length > 0 then
    [⟨packet.connectionId, packet.streamId, result.outOffset.getD 0, result.out.getD []⟩]
  else []

theorem deliver_none {engine : QuicEngine} {packet : QuicPacket} (alloc : SegmentAlloc)
    (hfind : engine.findEntry packet.connectionId = none) :
    engine.deliver packet alloc = ([], engine) := by
  rw [deliver, hfind]

theorem deliver_some {engine : QuicEngine} {packet : QuicPacket} {i : Fin quicMaxConnections}
    (alloc : SegmentAlloc) (hhandler : engine.streamHandler = true)
    (hfind : engine.findEntry packet.connectionId = some i) :
    handedOver (engine.deliver packet alloc).1
        = ((streamCall packet alloc).run (engine.connections i).streamMgr).1.chunks packet ∧
      (engine.deliver packet alloc).2
        = (engine.onData i (streamCall packet alloc)).2 := by
  rw [deliver, hfind]
  set call := streamCall packet alloc
  have hinstalled : (engine.onData i call).2.streamHandler = true := hhandler
  have hresult : (engine.onData i call).1 = (call.run (engine.connections i).streamMgr).1 := rfl
  dsimp only
  rw [hresult]
  unfold OnDataResult.chunks
  split_ifs with hout
  · refine ⟨?_, rfl⟩
    simp only [emitStreamData, hinstalled, if_true]
    rfl
  · exact ⟨rfl, rfl⟩

theorem deliver_streamHandler {engine : QuicEngine} (packet : QuicPacket) (alloc : SegmentAlloc)
    (hhandler : engine.streamHandler = true) : (engine.deliver packet alloc).2.streamHandler = true := by
  cases hfind : engine.findEntry packet.connectionId with
  | none =>
      rw [deliver_none alloc hfind]
      exact hhandler
  | some i =>
      rw [(deliver_some alloc hhandler hfind).2]
      exact hhandler

/-! ### The loop body -/

/-- The engine as `quic_engine_process_packet` receives it. -/
def QuicEngine.beforeProcess (engine : QuicEngine) (packet : QuicPacket) : QuicEngine :=
  if packet.has quicFlagAck then
    engine.countReceived.ackPending packet.connectionId packet.packetNumber
  else engine.countReceived

theorem ackPending_handlers (engine : QuicEngine) (cid : UInt64) (pn : UInt32) :
    (engine.ackPending cid pn).handlers = engine.handlers := by
  unfold ackPending
  split <;> rfl

theorem beforeProcess_connections (engine : QuicEngine) (packet : QuicPacket) :
    (engine.beforeProcess packet).connections = engine.connections := by
  unfold QuicEngine.beforeProcess
  split_ifs
  · exact ackPending_connections _ _ _
  · rfl

theorem beforeProcess_handlers (engine : QuicEngine) (packet : QuicPacket) :
    (engine.beforeProcess packet).handlers = engine.handlers := by
  unfold QuicEngine.beforeProcess
  split_ifs
  · exact ackPending_handlers _ _ _
  · rfl

section Receive

variable {engine : QuicEngine} {datagram : Bytes} {packet : QuicPacket} {addr : SockAddr}
  {env : ReceiveEnv}

theorem receivePacket_none {start processed : QuicEngine}
    (h : (if packet.has quicFlagAck then start.ackPending packet.connectionId packet.packetNumber
      else start).processPacket packet addr env.now env.nowAdd = (none, processed)) :
    start.receivePacket packet addr env = ([], processed) := by
  unfold receivePacket
  simp only [h]

theorem receivePacket_some {start processed : QuicEngine} {outcome : ProcessOutcome}
    (h : (if packet.has quicFlagAck then start.ackPending packet.connectionId packet.packetNumber
      else start).processPacket packet addr env.now env.nowAdd = (some outcome, processed)) :
    start.receivePacket packet addr env
      = (processed.notifyState packet outcome ++ (processed.answerHandshake packet addr env outcome).out ++
          ((processed.answerHandshake packet addr env outcome).engine.deliverAndAck packet addr env).1 ++
          (if ((processed.answerHandshake packet addr env outcome).engine.deliverAndAck packet addr
            env).2.handler then [.packet packet addr] else []),
        ((processed.answerHandshake packet addr env outcome).engine.deliverAndAck packet addr env).2) := by
  unfold receivePacket
  simp only [h]

theorem receive_refused
    (hparse : quicPacketDeserialize (datagram.take quicMaxPacketSize) = some packet)
    (h : ((engine.beforeProcess packet).processPacket packet addr env.now env.nowAdd).1 = none) :
    engine.receive datagram addr env
      = ([], ((engine.beforeProcess packet).processPacket packet addr env.now env.nowAdd).2) := by
  have hresult : (engine.beforeProcess packet).processPacket packet addr env.now env.nowAdd
      = (none, ((engine.beforeProcess packet).processPacket packet addr env.now env.nowAdd).2) :=
    Prod.ext h rfl
  rw [receive, hparse]
  exact receivePacket_none hresult

theorem receive_parts {outcome : ProcessOutcome}
    (hparse : quicPacketDeserialize (datagram.take quicMaxPacketSize) = some packet)
    (h : ((engine.beforeProcess packet).processPacket packet addr env.now env.nowAdd).1 = some outcome) :
    let processed := ((engine.beforeProcess packet).processPacket packet addr env.now env.nowAdd).2
    let answer := processed.answerHandshake packet addr env outcome
    let data := answer.engine.deliverAndAck packet addr env
    engine.receive datagram addr env
      = (processed.notifyState packet outcome ++ answer.out ++ data.1 ++
          (if data.2.handler then [.packet packet addr] else []), data.2) := by
  intro processed answer data
  have hresult : (engine.beforeProcess packet).processPacket packet addr env.now env.nowAdd
      = (some outcome, processed) := Prod.ext h rfl
  rw [receive, hparse]
  exact receivePacket_some hresult

theorem accepted_of_output
    (hparse : quicPacketDeserialize (datagram.take quicMaxPacketSize) = some packet)
    (hout : (engine.receive datagram addr env).1 ≠ []) :
    ∃ target, (engine.cleanupConnections env.now).packetTarget packet addr env.now env.nowAdd
        = some target ∧ Delivers target.entry packet := by
  have hconn := beforeProcess_connections engine packet
  have hcleanup := cleanup_connections_congr hconn env.now
  have hspec := ((engine.beforeProcess packet).processPacket_spec packet addr env.now env.nowAdd).2
  rw [packetTarget_congr hcleanup] at hspec
  cases htarget : (engine.cleanupConnections env.now).packetTarget packet addr env.now env.nowAdd with
  | none =>
      rw [htarget] at hspec
      dsimp only at hspec
      rw [receive_refused hparse (by rw [hspec])] at hout
      exact absurd rfl hout
  | some target =>
      rw [htarget] at hspec
      refine ⟨target, rfl, ?_⟩
      by_contra hrefused
      have hnone := mt hspec.2.2.1.mp hrefused
      rw [Option.not_isSome_iff_eq_none] at hnone
      rw [receive_refused hparse hnone] at hout
      exact absurd rfl hout

/-- In the table after processing, the connection of the target is found in its slot unless it was
closed. -/
theorem findEntry_processed {start processed : QuicEngine} {target : PacketTarget} {now nowAdd : Int}
    (hunique : UniqueKeys QuicConnectionEntry.inUse QuicConnectionEntry.connectionId start.connections)
    (htarget : start.packetTarget packet addr now nowAdd = some target)
    (htable : processed.connections
      = Function.update start.connections target.slot (processedEntry target.entry packet)) :
    processed.findEntry packet.connectionId
      = if packet.has quicFlagClose then none else some target.slot := by
  obtain ⟨hid, hused, hwhich⟩ := packetTarget_cases htarget
  have hother : ∀ j, j ≠ target.slot → (start.connections j).inUse = true →
      (start.connections j).connectionId ≠ packet.connectionId := by
    intro j hj hinUse hkey
    rcases hwhich with ⟨hfind, _⟩ | ⟨hnone, _⟩
    · have hown := findEntry_some hfind
      exact hj (hunique j target.slot hinUse hown.1 (by rw [hkey, hown.2]))
    · exact findEntry_none.mp hnone j hinUse hkey
  by_cases hclose : packet.has quicFlagClose = true
  · rw [if_pos hclose, findEntry_none]
    intro j hj
    rw [htable] at hj ⊢
    by_cases hslot : j = target.slot
    · subst hslot
      rw [Function.update_self, processedEntry, if_pos hclose] at hj
      simp [QuicConnectionEntry.close] at hj
    · rw [Function.update_of_ne hslot] at hj ⊢
      exact hother j hslot hj
  · rw [if_neg hclose]
    unfold findEntry findKey
    refine findSlot_unique ?_ fun j hj => ?_
    · rw [htable, Function.update_self, processedEntry_connectionId, hid]
      unfold processedEntry
      rw [if_neg hclose]
      split_ifs <;> simp [hused]
    · by_contra hslot
      rw [htable, Function.update_of_ne hslot] at hj
      simp only [Bool.and_eq_true, decide_eq_true_eq] at hj
      exact hother j hslot hj.1 hj.2

theorem target_state {target : PacketTarget} (hok : TableOk engine)
    (htarget : (engine.cleanupConnections env.now).packetTarget packet addr env.now env.nowAdd =
      some target) : target.entry.state = .connecting ∨ target.entry.state = .connected := by
  obtain ⟨-, hused, ⟨hfind, -, hentry⟩ | ⟨-, -, -, -, hentry⟩⟩ := packetTarget_cases htarget
  · have hslot : (engine.cleanupConnections env.now).connections target.slot =
        engine.connections target.slot :=
      @start_used engine (.getConnection packet.connectionId env.now) _ (findEntry_some hfind).1
    rw [hentry] at hused ⊢
    rw [hslot] at hused ⊢
    exact (hok.state target.slot).1 hused
  · rw [hentry]
    exact Or.inl rfl

theorem processedEntry_state {entry : QuicConnectionEntry} (hclose : packet.has quicFlagClose = false) :
    (processedEntry entry packet).state =
      if entry.state = .connecting ∧ packet.has quicFlagHandshake then .connected else entry.state := by
  rw [processedEntry, if_neg (by rw [hclose]; exact Bool.false_ne_true)]
  split_ifs <;> rfl

theorem answerHandshake_frame (engine : QuicEngine) (packet : QuicPacket) (addr : SockAddr)
    (env : ReceiveEnv) (outcome : ProcessOutcome) :
    let answer := engine.answerHandshake packet addr env outcome
    answer.engine.connections = engine.connections ∧ answer.engine.handlers = engine.handlers ∧
      handedOver answer.out = [] := by
  unfold QuicEngine.answerHandshake
  dsimp only
  split_ifs
  · exact ⟨send_connections _ _ _ _, send_handlers _ _ _ _, send_handedOver _ _ _ _⟩
  · exact ⟨rfl, rfl, rfl⟩

theorem notifyState_handedOver (engine : QuicEngine) (packet : QuicPacket) (outcome : ProcessOutcome) :
    handedOver (engine.notifyState packet outcome) = [] := by
  unfold QuicEngine.notifyState emitState
  split
  · split_ifs <;> rfl
  · rfl

/-- **An accepted DATA packet.** If it closes its connection, the entry is closed and nothing goes to
the stream handler. Otherwise its payload goes to the stream manager of the target's entry. -/
theorem receive_accepted {target : PacketTarget} (hok : TableOk engine)
    (hparse : quicPacketDeserialize (datagram.take quicMaxPacketSize) = some packet)
    (hdata : packet.has quicFlagData = true) (hhandler : engine.streamHandler = true)
    (htarget : (engine.cleanupConnections env.now).packetTarget packet addr env.now env.nowAdd
      = some target)
    (hdel : Delivers target.entry packet) :
    let start := engine.cleanupConnections env.now
    let r := engine.receive datagram addr env
    let run := (streamCall packet env.alloc).run target.entry.streamMgr
    r.2.streamHandler = true ∧
      (packet.has quicFlagClose = true →
        r.2.connections = Function.update start.connections target.slot target.entry.close ∧
          handedOver r.1 = []) ∧
      (packet.has quicFlagClose = false →
        r.2.connections = Function.update start.connections target.slot
            { processedEntry target.entry packet with streamMgr := run.2 } ∧
          handedOver r.1 = run.1.chunks packet) := by
  intro start r run
  have hconn := beforeProcess_connections engine packet
  have hcleanup := cleanup_connections_congr hconn env.now
  obtain ⟨hhandlers, hspec⟩ :=
    (engine.beforeProcess packet).processPacket_spec packet addr env.now env.nowAdd
  rw [packetTarget_congr hcleanup, htarget] at hspec
  obtain ⟨htable, _, hsome, _⟩ := hspec
  rw [hcleanup] at htable
  obtain ⟨outcome, houtcome⟩ := Option.isSome_iff_exists.mp (hsome.mpr hdel)
  have hr : r = _ := receive_parts hparse houtcome
  set processed := ((engine.beforeProcess packet).processPacket packet addr env.now env.nowAdd).2
  obtain ⟨haconn, hahandlers, haout⟩ := answerHandshake_frame processed packet addr env outcome
  set answer := processed.answerHandshake packet addr env outcome
  have hinstalled : answer.engine.streamHandler = true := by
    rw [streamHandler_of_handlers (hahandlers.trans (hhandlers.trans
      (beforeProcess_handlers engine packet))), hhandler]
  have hfind := findEntry_processed (cleanup_unique hok env.now) htarget (haconn.trans htable)
  have hdata' : answer.engine.deliverAndAck packet addr env
      = ((answer.engine.deliver packet env.alloc).1 ++ ((answer.engine.deliver packet env.alloc).2.send
          (ackPacket packet) addr env.ack).out,
        ((answer.engine.deliver packet env.alloc).2.send (ackPacket packet) addr env.ack).engine) := by
    rw [QuicEngine.deliverAndAck, if_pos ⟨hdata, hinstalled⟩]
  have hpacketOut : ∀ b : Bool, handedOver (if b then [QuicOutput.packet packet addr] else []) = [] := by
    intro b
    cases b <;> rfl
  have hchunks : handedOver r.1 = handedOver (answer.engine.deliver packet env.alloc).1 := by
    rw [hr, hdata']
    simp only [handedOver_append, notifyState_handedOver, haout, send_handedOver, hpacketOut,
      List.nil_append, List.append_nil]
  have hafter : r.2.connections = (answer.engine.deliver packet env.alloc).2.connections := by
    rw [hr, hdata', send_connections]
  have hrhandlers : r.2.handlers = (answer.engine.deliver packet env.alloc).2.handlers := by
    rw [hr, hdata', send_handlers]
  have hkept : r.2.streamHandler = true := by
    rw [streamHandler_of_handlers hrhandlers]
    exact deliver_streamHandler packet env.alloc hinstalled
  refine ⟨hkept, fun hclose => ?_, fun hclose => ?_⟩
  · rw [if_pos hclose] at hfind
    rw [deliver_none env.alloc hfind] at hchunks hafter
    refine ⟨?_, hchunks⟩
    rw [hafter, haconn, htable, processedEntry, if_pos hclose]
  · rw [if_neg (by simp [hclose])] at hfind
    obtain ⟨hout, hengine⟩ := deliver_some env.alloc hinstalled hfind
    have hmgr : (answer.engine.connections target.slot).streamMgr = target.entry.streamMgr := by
      rw [haconn, htable, Function.update_self, processedEntry, if_neg (by simp [hclose])]
      split_ifs <;> rfl
    refine ⟨?_, ?_⟩
    · rw [hafter, hengine, onData_connections, hmgr, haconn, htable, Function.update_self,
        Function.update_idem]
    · rw [hchunks, hout, hmgr]

end Receive

/-! ### The stream managers -/

/-- In every connection slot the stream ids are unique. -/
def StreamsUnique (engine : QuicEngine) : Prop := ∀ i, (engine.connections i).streamMgr.Unique

theorem streamsUnique_update {t : Fin quicMaxConnections → QuicConnectionEntry}
    (h : ∀ i, (t i).streamMgr.Unique) {j : Fin quicMaxConnections} {entry : QuicConnectionEntry}
    (hentry : entry.streamMgr.Unique) (i : Fin quicMaxConnections) :
    (Function.update t j entry i).streamMgr.Unique := by
  by_cases hi : i = j
  · subst hi
    rw [Function.update_self]
    exact hentry
  · rw [Function.update_of_ne hi]
    exact h i

theorem cleanup_streamsUnique {engine : QuicEngine} (h : StreamsUnique engine) (now : Int) :
    StreamsUnique (engine.cleanupConnections now) := by
  intro i
  rw [cleanup_connections]
  split_ifs
  · exact QuicStreamManager.destroy_unique
  · exact h i

theorem target_mgr_unique {engine : QuicEngine} (h : StreamsUnique engine) {packet : QuicPacket}
    {addr : SockAddr} {now nowAdd : Int} {target : PacketTarget}
    (htarget : engine.packetTarget packet addr now nowAdd = some target) :
    target.entry.streamMgr.Unique := by
  obtain ⟨_, _, ⟨_, _, hentry⟩ | ⟨_, _, _, _, hentry⟩⟩ := packetTarget_cases htarget
  · rw [hentry]
    exact h target.slot
  · rw [hentry]
    exact QuicStreamManager.init_unique

theorem step_streamsUnique {engine : QuicEngine} (h : StreamsUnique engine) (sec : EngineSection) :
    StreamsUnique (sec.step engine) := by
  intro i
  cases sec with
  | processPacket packet addr now nowAdd =>
      show ((engine.processPacket packet addr now nowAdd).2.connections i).streamMgr.Unique
      have hstart := cleanup_streamsUnique h now
      have hspec := (engine.processPacket_spec packet addr now nowAdd).2
      cases htarget : (engine.cleanupConnections now).packetTarget packet addr now nowAdd with
      | none =>
          rw [htarget] at hspec
          dsimp only at hspec
          rw [hspec]
          exact hstart i
      | some target =>
          rw [htarget] at hspec
          rw [hspec.1]
          refine streamsUnique_update hstart ?_ i
          unfold processedEntry
          split_ifs
          · exact QuicStreamManager.destroy_unique
          · exact target_mgr_unique hstart htarget
          · exact target_mgr_unique hstart htarget
  | onData slot call =>
      show ((engine.onData slot call).2.connections i).streamMgr.Unique
      rw [onData_connections]
      exact streamsUnique_update h (onData_cases (h slot) call).1 i
  | getConnection cid now =>
      show ((engine.getConnection cid now).2.connections i).streamMgr.Unique
      have hstart := cleanup_streamsUnique h now
      unfold QuicEngine.getConnection
      dsimp only
      cases (engine.cleanupConnections now).findEntry cid with
      | none => exact hstart i
      | some j =>
          dsimp only
          split_ifs
          · exact streamsUnique_update hstart (by exact hstart j) i
          · exact hstart i
  | closeLocked cid =>
      show ((engine.closeLocked cid).2.connections i).streamMgr.Unique
      unfold QuicEngine.closeLocked
      cases engine.findEntry cid with
      | none => exact h i
      | some j =>
          dsimp only
          split_ifs
          · exact streamsUnique_update h QuicStreamManager.destroy_unique i
          · exact h i
  | receiveTimeout now nowRetransmit sendOk =>
      show (((engine.cleanupConnections now).retransmitPending
        nowRetransmit sendOk).2.connections i).streamMgr.Unique
      rw [retransmitPending_connections]
      exact cleanup_streamsUnique h now i
  | ackPending cid pn =>
      show ((engine.ackPending cid pn).connections i).streamMgr.Unique
      rw [ackPending_connections]
      exact h i
  | trackPending packet buffer now =>
      show ((engine.trackPending packet buffer now).connections i).streamMgr.Unique
      rw [trackPending_connections]
      exact h i
  | countReceived => exact h i
  | countSent => exact h i
  | setStateHandler installed => exact h i
  | setStreamDataHandler installed => exact h i

theorem reachable_streamsUnique {handler : Bool} {engine : QuicEngine}
    (h : (engineSystem handler).Reachable engine) : StreamsUnique engine := by
  refine Transition.System.invariant ?_ ?_ h
  · intro s hs i
    rw [hs]
    exact QuicStreamManager.init_unique
  · intro s sec t hs hstep
    rw [hstep]
    exact step_streamsUnique hs sec

/-! ### Operations -/

inductive EngineOp where
  | receive (datagram : Bytes) (addr : SockAddr) (env : ReceiveEnv)
  | receiveTimeout (now nowRetransmit : Int) (sendOk : Fin quicMaxPending → Bool)
  | send (packet : QuicPacket) (addr : SockAddr) (env : SendEnv)
  | sendToConnection (packet : QuicPacket) (now : Int) (env : SendEnv)
  | getConnection (connectionId : UInt64) (now : Int)
  | closeConnection (connectionId : UInt64) (env : SendEnv)
  | setStateHandler (installed : Bool)
  | setStreamDataHandler (installed : Bool)

def EngineOp.run (engine : QuicEngine) : EngineOp → List QuicOutput × QuicEngine
  | receive datagram addr env => engine.receive datagram addr env
  | receiveTimeout now nowRetransmit sendOk => engine.receiveTimeout now nowRetransmit sendOk
  | send packet addr env =>
    let result := engine.send packet addr env
    (result.out, result.engine)
  | sendToConnection packet now env =>
    let result := engine.sendToConnection packet now env
    (result.out, result.engine)
  | getConnection cid now => ([], (engine.getConnection cid now).2)
  | closeConnection cid env =>
    let result := engine.closeConnection cid env
    (result.out, result.engine)
  | setStateHandler installed => ([], { engine with stateHandler := installed })
  | setStreamDataHandler installed => ([], { engine with streamHandler := installed })

def runEngine (engine : QuicEngine) (ops : List EngineOp) : QuicEngine :=
  ops.foldl (fun engine op => (op.run engine).2) engine

/-- `engine'` is reached from `engine` by sections. -/
def SectionsTo (engine engine' : QuicEngine) : Prop := ∃ secs, engine' = runSections engine secs

theorem SectionsTo.refl (engine : QuicEngine) : SectionsTo engine engine := ⟨[], rfl⟩

theorem SectionsTo.trans {e₁ e₂ e₃ : QuicEngine} (h : SectionsTo e₁ e₂) (h' : SectionsTo e₂ e₃) :
    SectionsTo e₁ e₃ := by
  obtain ⟨secs, rfl⟩ := h
  obtain ⟨secs', rfl⟩ := h'
  exact ⟨secs ++ secs', by simp [runSections]⟩

theorem SectionsTo.of_step {engine engine' : QuicEngine} (sec : EngineSection)
    (h : sec.step engine = engine') : SectionsTo engine engine' := ⟨[sec], h.symm⟩

theorem SectionsTo.reachable {handler : Bool} {engine engine' : QuicEngine}
    (h : SectionsTo engine engine') (hreach : (engineSystem handler).Reachable engine) :
    (engineSystem handler).Reachable engine' := by
  obtain ⟨secs, rfl⟩ := h
  exact hreach.run (Transition.System.run_ofFun.mpr rfl)

theorem send_sectionsTo (engine : QuicEngine) (packet : QuicPacket) (addr : SockAddr) (env : SendEnv) :
    SectionsTo engine (engine.send packet addr env).engine := by
  unfold QuicEngine.send
  cases quicPacketSerialize packet quicMaxPacketSize with
  | none => exact .refl engine
  | some buffer =>
      dsimp only
      split_ifs
      · exact (SectionsTo.of_step .countSent rfl).trans (.of_step (.trackPending packet buffer env.now) rfl)
      · exact .refl engine

theorem deliver_sectionsTo (engine : QuicEngine) (packet : QuicPacket) (alloc : SegmentAlloc) :
    SectionsTo engine (engine.deliver packet alloc).2 := by
  unfold QuicEngine.deliver
  cases engine.findEntry packet.connectionId with
  | none => exact .refl engine
  | some i =>
      dsimp only
      split_ifs
      · exact .of_step (.onData i (streamCall packet alloc)) rfl
      · exact .of_step (.onData i (streamCall packet alloc)) rfl

theorem receivePacket_sectionsTo (engine : QuicEngine) (packet : QuicPacket) (addr : SockAddr)
    (env : ReceiveEnv) : SectionsTo engine (engine.receivePacket packet addr env).2 := by
  unfold QuicEngine.receivePacket
  have hack : SectionsTo engine (if packet.has quicFlagAck then
      engine.ackPending packet.connectionId packet.packetNumber else engine) := by
    split_ifs
    · exact .of_step (.ackPending packet.connectionId packet.packetNumber) rfl
    · exact .refl engine
  dsimp only
  set acked := if packet.has quicFlagAck then
    engine.ackPending packet.connectionId packet.packetNumber else engine
  have hproc : SectionsTo engine (acked.processPacket packet addr env.now env.nowAdd).2 :=
    hack.trans (.of_step (.processPacket packet addr env.now env.nowAdd) rfl)
  generalize acked.processPacket packet addr env.now env.nowAdd = result at hproc ⊢
  obtain ⟨_ | outcome, processed⟩ := result
  · exact hproc
  · refine hproc.trans ?_
    have hanswer : SectionsTo processed (processed.answerHandshake packet addr env outcome).engine := by
      unfold QuicEngine.answerHandshake
      split_ifs
      · exact send_sectionsTo _ _ _ _
      · exact .refl processed
    refine hanswer.trans ?_
    show SectionsTo _ ((processed.answerHandshake packet addr env outcome).engine.deliverAndAck
      packet addr env).2
    unfold QuicEngine.deliverAndAck
    split_ifs
    · exact (deliver_sectionsTo _ _ _).trans (send_sectionsTo _ _ _ _)
    · exact .refl _

theorem op_sectionsTo (engine : QuicEngine) (op : EngineOp) : SectionsTo engine (op.run engine).2 := by
  cases op with
  | receive datagram addr env =>
      show SectionsTo engine (engine.receive datagram addr env).2
      have hcount : SectionsTo engine engine.countReceived := .of_step .countReceived rfl
      unfold QuicEngine.receive
      cases quicPacketDeserialize (datagram.take quicMaxPacketSize) with
      | none => exact hcount
      | some packet => exact hcount.trans (receivePacket_sectionsTo _ _ _ _)
  | receiveTimeout now nowRetransmit sendOk =>
      exact .of_step (.receiveTimeout now nowRetransmit sendOk) rfl
  | send packet addr env => exact send_sectionsTo _ _ _ _
  | sendToConnection packet now env =>
      have hget : SectionsTo engine (engine.getConnection packet.connectionId now).2 :=
        .of_step (.getConnection packet.connectionId now) rfl
      show SectionsTo engine (engine.sendToConnection packet now env).engine
      unfold QuicEngine.sendToConnection
      generalize engine.getConnection packet.connectionId now = result at hget ⊢
      obtain ⟨_ | addr, found⟩ := result
      · exact hget
      · exact hget.trans (send_sectionsTo _ _ _ _)
  | getConnection cid now => exact .of_step (.getConnection cid now) rfl
  | closeConnection cid env =>
      have hclose : SectionsTo engine (engine.closeLocked cid).2 := .of_step (.closeLocked cid) rfl
      show SectionsTo engine (engine.closeConnection cid env).engine
      unfold QuicEngine.closeConnection
      generalize engine.closeLocked cid = result at hclose ⊢
      obtain ⟨_ | addr, closed⟩ := result
      · exact hclose
      · exact hclose.trans (send_sectionsTo _ _ _ _)
  | setStateHandler installed => exact .of_step (.setStateHandler installed) rfl
  | setStreamDataHandler installed => exact .of_step (.setStreamDataHandler installed) rfl

theorem reachable_runEngine (handler : Bool) (ops : List EngineOp) :
    (engineSystem handler).Reachable (runEngine (quicEngineInit handler) ops) := by
  induction ops using List.reverseRecOn with
  | nil => exact reachable_runSections handler []
  | append_singleton ops op ih =>
      have hlast : runEngine (quicEngineInit handler) (ops ++ [op])
          = (op.run (runEngine (quicEngineInit handler) ops)).2 := by simp [runEngine]
      rw [hlast]
      exact (op_sectionsTo _ op).reachable ih

/-! ### A sample connection -/

def sampleAddr : SockAddr := ⟨20443, 0x7F000001⟩

/-- Everything succeeds, at time 0. -/
def sampleEnv : ReceiveEnv := ⟨0, 0, ⟨true, true⟩, ⟨true, 0⟩, ⟨true, 0⟩⟩

def sampleReceive (packet : QuicPacket) : EngineOp :=
  .receive (quicHeader packet ++ packet.payload.bytes) sampleAddr sampleEnv

/-- A stream handler is installed, and one packet opens connection 7. -/
def sampleOps : List EngineOp :=
  [.setStreamDataHandler true,
    sampleReceive ⟨quicFlagInitial ||| quicFlagHandshake, 7, 0, 0, 0, .empty⟩]

def sampleConnection : QuicEngine := runEngine (quicEngineInit false) sampleOps

end OttQuic
