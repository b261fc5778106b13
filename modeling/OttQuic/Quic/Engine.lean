import OttQuic.Quic.Packet
import OttQuic.Quic.StreamManager

/-!
# The packet engine (`quic.c`)

The engine's tables and one definition per function on them. Clock readings, the outcome of `sendto`
and of `malloc` are arguments; times are integers, as `time_t` differences do not wrap. What the
engine does to the outside, a datagram on the wire or a call of a handler, is a `QuicOutput`.

The receive loop is one function of the datagram (`QuicEngine.receive`), with the sections between two
lock operations as separate definitions, so that other threads can be interleaved with it.
-/

namespace OttQuic

open SlotTable

abbrev quicMaxConnections : Nat := 32
abbrev quicConnectionTimeout : Int := 30
abbrev quicMaxPending : Nat := 64
abbrev quicRetransTimeout : Int := 1
abbrev quicMaxRetries : Nat := 3

/-- The port and address of a `struct sockaddr_in`. -/
structure SockAddr where
  sinPort : UInt16
  sinAddr : UInt32
  deriving DecidableEq

inductive QuicConnectionState where
  | idle
  | connecting
  | connected
  | closed
  deriving DecidableEq

structure QuicConnectionEntry where
  connectionId : UInt64
  addr : SockAddr
  lastSeen : Int
  state : QuicConnectionState
  inUse : Bool
  streamMgr : QuicStreamManager

/-- The entry as it is left when its connection is closed or has timed out. -/
def QuicConnectionEntry.close (entry : QuicConnectionEntry) : QuicConnectionEntry :=
  { entry with state := .closed, inUse := false, streamMgr := quicStreamManagerDestroy entry.streamMgr }

/-- A tracked packet; `len` is the length of `buffer`. -/
structure QuicPendingEntry where
  inUse : Bool
  connectionId : UInt64
  packetNumber : UInt32
  buffer : Bytes
  lastSent : Int
  retries : Nat
  deriving DecidableEq

structure QuicMetrics where
  packetsReceived : UInt64
  packetsSent : UInt64
  connectionsOpened : UInt64
  connectionsClosed : UInt64
  connectionsMigrated : UInt64
  deriving DecidableEq

/-- The tables of `quic_engine_t`, and which of the three handlers are installed. -/
structure QuicEngine where
  handler : Bool
  streamHandler : Bool
  stateHandler : Bool
  metrics : QuicMetrics
  connections : Fin quicMaxConnections → QuicConnectionEntry
  pending : Fin quicMaxPending → QuicPendingEntry

/-- A datagram put on the wire by `quic_engine_send`, the `sendto` calls of the retransmission of a
pending slot, those that took the packet and those that failed, and the calls of the three handlers. -/
inductive QuicOutput where
  | sent (packet : QuicPacket) (addr : SockAddr)
  | resent (slot : Fin quicMaxPending) (buffer : Bytes) (addr : SockAddr)
  | resendFailed (slot : Fin quicMaxPending)
  | state (connectionId : UInt64) (state : QuicConnectionState) (addr : SockAddr)
  | streamData (connectionId : UInt64) (streamId offset : UInt32) (data : Bytes)
  | packet (packet : QuicPacket) (addr : SockAddr)

/-- `quic_engine_init`: `memset` and the packet handler. -/
def quicEngineInit (handler : Bool) : QuicEngine where
  handler := handler
  streamHandler := false
  stateHandler := false
  metrics := ⟨0, 0, 0, 0, 0⟩
  connections := fun _ => ⟨0, ⟨0, 0⟩, 0, .idle, false, quicStreamManagerInit⟩
  pending := fun _ => ⟨false, 0, 0, [], 0, 0⟩

namespace QuicEngine

/-! ### The connection table -/

def setConnection (engine : QuicEngine) (i : Fin quicMaxConnections) (entry : QuicConnectionEntry) :
    QuicEngine :=
  { engine with connections := Function.update engine.connections i entry }

def setPending (engine : QuicEngine) (i : Fin quicMaxPending) (entry : QuicPendingEntry) : QuicEngine :=
  { engine with pending := Function.update engine.pending i entry }

/-- `quic_engine_find_entry_locked`. -/
def findEntry (engine : QuicEngine) (connectionId : UInt64) : Option (Fin quicMaxConnections) :=
  findKey QuicConnectionEntry.inUse QuicConnectionEntry.connectionId engine.connections connectionId

/-- `quic_engine_add_connection_locked`; `none` is the return value -1. -/
def addConnection (engine : QuicEngine) (connectionId : UInt64) (addr : SockAddr) (now : Int) :
    Option QuicEngine :=
  match findFree QuicConnectionEntry.inUse engine.connections with
  | some i => some (engine.setConnection i
      ⟨connectionId, addr, now, .connecting, true, quicStreamManagerInit⟩)
  | none => none

/-- `quic_engine_clear_pending_for_connection`. -/
def clearPendingForConnection (engine : QuicEngine) (connectionId : UInt64) : QuicEngine :=
  { engine with pending := fun j =>
      if (engine.pending j).inUse ∧ (engine.pending j).connectionId = connectionId then
        { engine.pending j with inUse := false }
      else engine.pending j }

/-- The slot is closed and freed, its streams destroyed and its pending packets dropped. -/
def closeEntry (engine : QuicEngine) (i : Fin quicMaxConnections) : QuicEngine :=
  let entry := engine.connections i
  let engine := engine.setConnection i entry.close
  let engine := engine.clearPendingForConnection entry.connectionId
  { engine with metrics.connectionsClosed := engine.metrics.connectionsClosed + 1 }

/-- `quic_engine_cleanup_connections_locked`. -/
def cleanupConnections (engine : QuicEngine) (now : Int) : QuicEngine :=
  forSlots (fun engine i =>
    if (engine.connections i).inUse ∧ now - (engine.connections i).lastSeen > quicConnectionTimeout then
      engine.closeEntry i
    else engine) engine

/-! ### Processing a packet -/

/-- What `quic_engine_process_packet` reports through its output pointers when it returns 0;
`stateChanged` is `none` where the caller's `QUIC_CONN_STATE_IDLE` was not overwritten. -/
structure ProcessOutcome where
  handshakeNeeded : Bool
  stateChanged : Option (QuicConnectionState × SockAddr)
  deriving DecidableEq

/-- The part of `quic_engine_process_packet` after the entry `i` has been found or created. -/
def processEntry (engine : QuicEngine) (packet : QuicPacket) (addr : SockAddr)
    (i : Fin quicMaxConnections) (created : Bool)
    (stateChanged : Option (QuicConnectionState × SockAddr)) : Option ProcessOutcome × QuicEngine :=
  if packet.has quicFlagClose then
    (some ⟨created, some (.closed, addr)⟩, engine.closeEntry i)
  else
    let entry := engine.connections i
    let connects := entry.state = .connecting ∧ packet.has quicFlagHandshake
    let engine := if connects then engine.setConnection i { entry with state := .connected } else engine
    let stateChanged := if connects then some (.connected, addr) else stateChanged
    let shouldDeliver := (engine.connections i).state = .connected ∨
      packet.has quicFlagInitial ∨ packet.has quicFlagHandshake
    let engine := if created then
        { engine with metrics.connectionsOpened := engine.metrics.connectionsOpened + 1 }
      else engine
    (if shouldDeliver then some ⟨created, stateChanged⟩ else none, engine)

/-- `quic_engine_process_packet`; `none` is the return value -1. `now` and `nowAdd` are the clock
readings at its head and in `quic_engine_add_connection_locked`. -/
def processPacket (engine : QuicEngine) (packet : QuicPacket) (addr : SockAddr) (now nowAdd : Int) :
    Option ProcessOutcome × QuicEngine :=
  let engine := engine.cleanupConnections now
  match engine.findEntry packet.connectionId with
  | none =>
    if packet.has quicFlagInitial then
      match engine.addConnection packet.connectionId addr nowAdd with
      | none => (none, engine)
      | some engine =>
        match engine.findEntry packet.connectionId with
        | none => (none, engine) -- never: the entry has just been added
        | some i => engine.processEntry packet addr i true (some (.connecting, addr))
    else (none, engine)
  | some i =>
    let entry := engine.connections i
    let migrated := entry.addr ≠ addr
    let engine := engine.setConnection i { entry with addr := addr, lastSeen := now }
    let engine := if migrated then
        { engine with metrics.connectionsMigrated := engine.metrics.connectionsMigrated + 1 }
      else engine
    engine.processEntry packet addr i false (if migrated then some (entry.state, addr) else none)

/-! ### Pending packets -/

/-- `quic_engine_track_pending`: a DATA packet goes to the first free slot, if there is one. -/
def trackPending (engine : QuicEngine) (packet : QuicPacket) (buffer : Bytes) (now : Int) : QuicEngine :=
  if buffer = [] then engine
  else if !packet.has quicFlagData then engine
  else
    match findFree QuicPendingEntry.inUse engine.pending with
    | some j => engine.setPending j
        ⟨true, packet.connectionId, packet.packetNumber, buffer.take quicMaxPacketSize, now, 0⟩
    | none => engine

/-- `quic_engine_ack_pending`: the first slot with the key is freed. -/
def ackPending (engine : QuicEngine) (connectionId : UInt64) (packetNumber : UInt32) : QuicEngine :=
  match findSlot engine.pending fun entry =>
      entry.inUse && decide (entry.connectionId = connectionId) &&
        decide (entry.packetNumber = packetNumber) with
  | some j => engine.setPending j { engine.pending j with inUse := false }
  | none => engine

/-- One iteration of `quic_engine_retransmit_pending`; `sendOk` is whether `sendto` takes the packet of
this slot, if it is called. -/
def retransmitSlot (now : Int) (sendOk : Fin quicMaxPending → Bool)
    (s : List QuicOutput × QuicEngine) (j : Fin quicMaxPending) : List QuicOutput × QuicEngine :=
  let (out, engine) := s
  let entry := engine.pending j
  if !entry.inUse then s
  else if now - entry.lastSent < quicRetransTimeout then s
  else
    match engine.findEntry entry.connectionId with
    | none => (out, engine.setPending j { entry with inUse := false })
    | some i =>
      if sendOk j then
        let engine := engine.setPending j { entry with
          lastSent := now, retries := entry.retries + 1,
          inUse := decide (entry.retries + 1 < quicMaxRetries) }
        (out ++ [.resent j entry.buffer (engine.connections i).addr],
          { engine with metrics.packetsSent := engine.metrics.packetsSent + 1 })
      else (out ++ [.resendFailed j], engine.setPending j { entry with inUse := false })

/-- `quic_engine_retransmit_pending`. -/
def retransmitPending (engine : QuicEngine) (now : Int) (sendOk : Fin quicMaxPending → Bool) :
    List QuicOutput × QuicEngine :=
  forSlots (retransmitSlot now sendOk) ([], engine)

/-! ### Sending -/

/-- Whether `sendto` takes the whole datagram, and the clock when the packet is tracked. -/
structure SendEnv where
  ok : Bool
  now : Int

structure SendResult where
  rc : Int
  out : List QuicOutput
  engine : QuicEngine

def countSent (engine : QuicEngine) : QuicEngine :=
  { engine with metrics.packetsSent := engine.metrics.packetsSent + 1 }

/-- `quic_engine_send`. -/
def send (engine : QuicEngine) (packet : QuicPacket) (addr : SockAddr) (env : SendEnv) : SendResult :=
  match quicPacketSerialize packet quicMaxPacketSize with
  | none => ⟨-1, [], engine⟩
  | some buffer =>
    if env.ok then ⟨0, [.sent packet addr], engine.countSent.trackPending packet buffer env.now⟩
    else ⟨-1, [], engine⟩

/-- `quic_engine_get_connection`; `none` is the return value -1. -/
def getConnection (engine : QuicEngine) (connectionId : UInt64) (now : Int) :
    Option SockAddr × QuicEngine :=
  let engine := engine.cleanupConnections now
  match engine.findEntry connectionId with
  | none => (none, engine)
  | some i =>
    let entry := engine.connections i
    if entry.state = .connected then
      (some entry.addr, engine.setConnection i { entry with lastSeen := now })
    else (none, engine)

/-- `quic_engine_send_to_connection`; `now` is the clock of the lookup. -/
def sendToConnection (engine : QuicEngine) (packet : QuicPacket) (now : Int) (env : SendEnv) :
    SendResult :=
  match engine.getConnection packet.connectionId now with
  | (none, engine) => ⟨-1, [], engine⟩
  | (some addr, engine) => engine.send packet addr env

/-- The packet of `quic_engine_send_handshake`. -/
def handshakePacket (connectionId : UInt64) : QuicPacket :=
  ⟨quicFlagHandshake ||| quicFlagAck, connectionId, 1, 0, 0, .empty⟩

/-- The packet of `quic_engine_send_close`. -/
def closePacket (connectionId : UInt64) : QuicPacket := ⟨quicFlagClose, connectionId, 0, 0, 0, .empty⟩

/-- The packet with which the receive loop acknowledges a DATA packet. -/
def ackPacket (packet : QuicPacket) : QuicPacket :=
  ⟨quicFlagAck, packet.connectionId, packet.packetNumber, packet.streamId, packet.offset, .empty⟩

/-- `quic_engine_emit_state`. -/
def emitState (engine : QuicEngine) (connectionId : UInt64) (state : QuicConnectionState)
    (addr : SockAddr) : List QuicOutput :=
  if engine.stateHandler then [.state connectionId state addr] else []

/-- `quic_engine_emit_stream_data`. -/
def emitStreamData (engine : QuicEngine) (connectionId : UInt64) (streamId offset : UInt32)
    (data : Bytes) : List QuicOutput :=
  if engine.streamHandler then [.streamData connectionId streamId offset data] else []

/-- The locked part of `quic_engine_close_connection`; `none` where it finds no open entry. -/
def closeLocked (engine : QuicEngine) (connectionId : UInt64) : Option SockAddr × QuicEngine :=
  match engine.findEntry connectionId with
  | none => (none, engine)
  | some i =>
    if (engine.connections i).state ≠ .closed then
      (some (engine.connections i).addr, engine.closeEntry i)
    else (none, engine)

/-- `quic_engine_close_connection`. -/
def closeConnection (engine : QuicEngine) (connectionId : UInt64) (env : SendEnv) : SendResult :=
  match engine.closeLocked connectionId with
  | (none, engine) => ⟨-1, [], engine⟩
  | (some addr, engine) =>
    let close := engine.send (closePacket connectionId) addr env
    ⟨0, close.out ++ close.engine.emitState connectionId .closed addr, close.engine⟩

/-! ### The receive loop -/

/-- What the outside decides while one datagram is handled. -/
structure ReceiveEnv where
  now : Int
  nowAdd : Int
  alloc : SegmentAlloc
  handshake : SendEnv
  ack : SendEnv

def countReceived (engine : QuicEngine) : QuicEngine :=
  { engine with metrics.packetsReceived := engine.metrics.packetsReceived + 1 }

/-- The call of `quic_stream_on_data` for a received packet: the output buffer is one payload. -/
def streamCall (packet : QuicPacket) (alloc : SegmentAlloc) : StreamCall :=
  ⟨packet.streamId, packet.offset, packet.payload, quicMaxPayload, alloc⟩

/-- The stream call on the manager of slot `i`. -/
def onData (engine : QuicEngine) (i : Fin quicMaxConnections) (call : StreamCall) :
    OnDataResult × QuicEngine :=
  let entry := engine.connections i
  let (result, mgr) := call.run entry.streamMgr
  (result, engine.setConnection i { entry with streamMgr := mgr })

/-- The delivery of a DATA packet to its stream and the stream handler. -/
def deliver (engine : QuicEngine) (packet : QuicPacket) (alloc : SegmentAlloc) :
    List QuicOutput × QuicEngine :=
  match engine.findEntry packet.connectionId with
  | none => ([], engine)
  | some i =>
    let (result, engine) := engine.onData i (streamCall packet alloc)
    let assembled := result.out.getD []
    if result.rc = 0 ∧ assembled.length > 0 then
      (engine.emitStreamData packet.connectionId packet.streamId (result.outOffset.getD 0) assembled,
        engine)
    else ([], engine)

/-- The state notification of an accepted packet. -/
def notifyState (engine : QuicEngine) (packet : QuicPacket) (outcome : ProcessOutcome) :
    List QuicOutput :=
  match outcome.stateChanged with
  | some (state, addr) =>
    if state ≠ .idle then engine.emitState packet.connectionId state addr else []
  | none => []

/-- The answer to a packet that created its connection. -/
def answerHandshake (engine : QuicEngine) (packet : QuicPacket) (clientAddr : SockAddr)
    (env : ReceiveEnv) (outcome : ProcessOutcome) : SendResult :=
  if outcome.handshakeNeeded then
    engine.send (handshakePacket packet.connectionId) clientAddr env.handshake
  else ⟨0, [], engine⟩

/-- The delivery of a DATA packet, and its acknowledgement whatever the delivery returned. -/
def deliverAndAck (engine : QuicEngine) (packet : QuicPacket) (clientAddr : SockAddr)
    (env : ReceiveEnv) : List QuicOutput × QuicEngine :=
  if packet.has quicFlagData ∧ engine.streamHandler then
    let (out, engine) := engine.deliver packet env.alloc
    let ack := engine.send (ackPacket packet) clientAddr env.ack
    (out ++ ack.out, ack.engine)
  else ([], engine)

/-- The loop body on a well-formed packet. -/
def receivePacket (engine : QuicEngine) (packet : QuicPacket) (clientAddr : SockAddr)
    (env : ReceiveEnv) : List QuicOutput × QuicEngine :=
  let engine := if packet.has quicFlagAck then
      engine.ackPending packet.connectionId packet.packetNumber
    else engine
  match engine.processPacket packet clientAddr env.now env.nowAdd with
  | (none, engine) => ([], engine)
  | (some outcome, engine) =>
    let stateOut := engine.notifyState packet outcome
    let answer := engine.answerHandshake packet clientAddr env outcome
    let (dataOut, engine) := answer.engine.deliverAndAck packet clientAddr env
    let packetOut := if engine.handler then [QuicOutput.packet packet clientAddr] else []
    (stateOut ++ answer.out ++ dataOut ++ packetOut, engine)

/-- The loop body on a received datagram, of which `recvfrom` keeps what fits the buffer. -/
def receive (engine : QuicEngine) (datagram : Bytes) (clientAddr : SockAddr) (env : ReceiveEnv) :
    List QuicOutput × QuicEngine :=
  let engine := engine.countReceived
  match quicPacketDeserialize (datagram.take quicMaxPacketSize) with
  | none => ([], engine)
  | some packet => engine.receivePacket packet clientAddr env

/-- The loop body when `recvfrom` times out. -/
def receiveTimeout (engine : QuicEngine) (now nowRetransmit : Int) (sendOk : Fin quicMaxPending → Bool) :
    List QuicOutput × QuicEngine :=
  (engine.cleanupConnections now).retransmitPending nowRetransmit sendOk

end QuicEngine

end OttQuic
