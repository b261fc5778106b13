import OttQuic.Quic.SentPackets

/-!
# Stream data before the handshake

The receive loop delivers the data of every packet that `quic_engine_process_packet` accepts, and that
function accepts a packet with INITIAL in any state of the connection. So an INITIAL that carries data
and no HANDSHAKE is delivered to a connection that is still CONNECTING. Nothing else is
(`connectedOnly_iff`), in any run (`stream_data_after_handshake_iff`).
-/

namespace OttQuic

open SlotTable QuicEngine

/-- The stream handler is called for connections only that are CONNECTED in the table. After the packet
has been processed the operation changes no entry but in its streams. -/
def ConnectedOnly (engine : QuicEngine) (op : EngineOp) : Prop :=
  ∀ chunk ∈ handedOver (op.run engine).1, ∃ i,
    ((op.run engine).2.connections i).inUse = true ∧
      ((op.run engine).2.connections i).connectionId = chunk.connectionId ∧
      ((op.run engine).2.connections i).state = .connected

/-- The datagram carries INITIAL and DATA without HANDSHAKE and CLOSE for a connection that is new or
CONNECTING, and its stream has bytes to hand over. -/
def Premature (engine : QuicEngine) (op : EngineOp) : Prop :=
  ∃ datagram addr env packet target, op = .receive datagram addr env ∧
    quicPacketDeserialize (datagram.take quicMaxPacketSize) = some packet ∧
    packet.has quicFlagInitial = true ∧ packet.has quicFlagData = true ∧
    packet.has quicFlagHandshake = false ∧ packet.has quicFlagClose = false ∧
    engine.streamHandler = true ∧
    (engine.cleanupConnections env.now).packetTarget packet addr env.now env.nowAdd = some target ∧
    target.entry.state = .connecting ∧
    ((streamCall packet env.alloc).run target.entry.streamMgr).1.chunks packet ≠ []

/-! ### Where chunks come from -/

theorem retransmitPending_handedOver (engine : QuicEngine) (now : Int)
    (sendOk : Fin quicMaxPending → Bool) :
    handedOver (engine.retransmitPending now sendOk).1 = [] := by
  rw [handedOver, List.filterMap_eq_nil_iff]
  intro o ho
  obtain ⟨j, buffer, addr, rfl⟩ | ⟨j, rfl⟩ := mem_retransmitPending ho <;> rfl

theorem handedOver_eq_nil (engine : QuicEngine) (op : EngineOp)
    (h : ∀ datagram addr env, op ≠ .receive datagram addr env) : handedOver (op.run engine).1 = [] := by
  cases op with
  | receive datagram addr env => exact absurd rfl (h datagram addr env)
  | receiveTimeout now nowRetransmit sendOk => exact retransmitPending_handedOver _ nowRetransmit sendOk
  | send packet addr env => exact send_handedOver engine packet addr env
  | sendToConnection packet now env =>
      show handedOver (engine.sendToConnection packet now env).out = []
      unfold QuicEngine.sendToConnection
      generalize engine.getConnection packet.connectionId now = result
      obtain ⟨_ | addr, found⟩ := result
      · rfl
      · exact send_handedOver found packet addr env
  | closeConnection cid env =>
      show handedOver (engine.closeConnection cid env).out = []
      unfold QuicEngine.closeConnection
      generalize engine.closeLocked cid = result
      obtain ⟨_ | addr, closed⟩ := result
      · rfl
      · dsimp only
        rw [handedOver_append, send_handedOver, List.nil_append, emitState]
        split_ifs <;> rfl
  | getConnection cid now => rfl
  | setStateHandler installed => rfl
  | setStreamDataHandler installed => rfl

section Receive

variable {engine : QuicEngine} {datagram : Bytes} {packet : QuicPacket} {addr : SockAddr}
  {env : ReceiveEnv}

theorem receive_handedOver_none
    (hparse : quicPacketDeserialize (datagram.take quicMaxPacketSize) = some packet)
    (h : ¬ (packet.has quicFlagData = true ∧ engine.streamHandler = true)) :
    handedOver (engine.receive datagram addr env).1 = [] := by
  cases houtcome : ((engine.beforeProcess packet).processPacket packet addr env.now env.nowAdd).1 with
  | none => rw [receive_refused hparse houtcome]; rfl
  | some outcome =>
      rw [receive_parts hparse houtcome]
      set processed := ((engine.beforeProcess packet).processPacket packet addr env.now env.nowAdd).2
      obtain ⟨-, hhandlers, hout⟩ := answerHandshake_frame processed packet addr env outcome
      have hprocessed :=
        ((engine.beforeProcess packet).processPacket_spec packet addr env.now env.nowAdd).1
      have hsame := streamHandler_of_handlers (hhandlers.trans (hprocessed.trans
        (beforeProcess_handlers engine packet)))
      rw [← hsame] at h
      rw [QuicEngine.deliverAndAck, if_neg h]
      simp only [handedOver_append, notifyState_handedOver, hout, List.nil_append]
      split_ifs <;> rfl

theorem receive_eq_nil
    (hparse : quicPacketDeserialize (datagram.take quicMaxPacketSize) = some packet)
    (h : ∀ target, (engine.cleanupConnections env.now).packetTarget packet addr env.now env.nowAdd =
      some target → ¬ Delivers target.entry packet) :
    (engine.receive datagram addr env).1 = [] := by
  by_contra hout
  obtain ⟨target, htarget, hdelivers⟩ := accepted_of_output hparse hout
  exact h target htarget hdelivers

theorem connectedOnly_accepted {target : PacketTarget} (hok : TableOk engine)
    (hafter : TableOk (engine.receive datagram addr env).2)
    (hparse : quicPacketDeserialize (datagram.take quicMaxPacketSize) = some packet)
    (hdata : packet.has quicFlagData = true) (hhandler : engine.streamHandler = true)
    (htarget : (engine.cleanupConnections env.now).packetTarget packet addr env.now env.nowAdd =
      some target) (hdelivers : Delivers target.entry packet)
    (hclose : packet.has quicFlagClose = false) :
    ConnectedOnly engine (.receive datagram addr env) ↔
      (((streamCall packet env.alloc).run target.entry.streamMgr).1.chunks packet ≠ [] →
        (processedEntry target.entry packet).state = .connected) := by
  obtain ⟨-, -, hopen⟩ := receive_accepted hok hparse hdata hhandler htarget hdelivers
  obtain ⟨htable, hout⟩ := hopen hclose
  obtain ⟨hid, hused, -⟩ := packetTarget_cases htarget
  set run := (streamCall packet env.alloc).run target.entry.streamMgr
  have hslot : (engine.receive datagram addr env).2.connections target.slot =
      { processedEntry target.entry packet with streamMgr := run.2 } := by
    rw [htable, Function.update_self]
  have hslotUsed : ((engine.receive datagram addr env).2.connections target.slot).inUse = true := by
    rw [hslot]
    show (processedEntry target.entry packet).inUse = true
    rw [processedEntry, if_neg (by rw [hclose]; exact Bool.false_ne_true)]
    split_ifs
    · exact hused
    · exact hused
  have hslotId : ((engine.receive datagram addr env).2.connections target.slot).connectionId =
      packet.connectionId := by
    rw [hslot, ← hid]
    exact processedEntry_connectionId target.entry packet
  have hchunk : ∀ chunk ∈ run.1.chunks packet, chunk.connectionId = packet.connectionId := by
    intro chunk hmem
    rw [OnDataResult.chunks] at hmem
    split_ifs at hmem
    · rw [List.mem_singleton.mp hmem]
    · exact absurd hmem (List.not_mem_nil)
  show (∀ chunk ∈ handedOver (engine.receive datagram addr env).1, ∃ i, _) ↔ _
  rw [hout]
  constructor
  · intro hall hne
    obtain ⟨chunk, hmem⟩ := List.exists_mem_of_ne_nil _ hne
    obtain ⟨i, hiused, hiid, hstate⟩ := hall chunk hmem
    have hi : i = target.slot := hafter.unique i target.slot hiused hslotUsed
      (hiid.trans ((hchunk chunk hmem).trans hslotId.symm))
    rw [hi] at hstate
    rw [show EngineOp.run engine (.receive datagram addr env) = engine.receive datagram addr env from rfl,
      hslot] at hstate
    exact hstate
  · intro himp chunk hmem
    refine ⟨target.slot, hslotUsed, hslotId.trans (hchunk chunk hmem).symm, ?_⟩
    rw [show EngineOp.run engine (.receive datagram addr env) = engine.receive datagram addr env from rfl,
      hslot]
    exact himp (List.ne_nil_of_mem hmem)

end Receive

theorem connectedOnly_of_nil {engine : QuicEngine} {op : EngineOp}
    (h : handedOver (op.run engine).1 = []) : ConnectedOnly engine op := by
  intro chunk hmem
  rw [h] at hmem
  exact absurd hmem List.not_mem_nil

section Datagram

variable {engine : QuicEngine} {datagram : Bytes} {packet : QuicPacket} {addr : SockAddr} {env : ReceiveEnv}

theorem Premature.flags (h : Premature engine (.receive datagram addr env))
    (hparse : quicPacketDeserialize (datagram.take quicMaxPacketSize) = some packet) :
    packet.has quicFlagInitial = true ∧ packet.has quicFlagData = true ∧ packet.has quicFlagHandshake = false ∧
      packet.has quicFlagClose = false ∧ engine.streamHandler = true ∧
      ∃ target, (engine.cleanupConnections env.now).packetTarget packet addr env.now env.nowAdd = some target ∧
        target.entry.state = .connecting ∧
        ((streamCall packet env.alloc).run target.entry.streamMgr).1.chunks packet ≠ [] := by
  obtain ⟨datagram', addr', env', packet', target, hop, hparse', hinit, hdata, hnohand, hnoclose, hhandler,
    htarget, hstate, hchunks⟩ := h
  obtain ⟨rfl, rfl, rfl⟩ := EngineOp.receive.inj hop
  obtain rfl := Option.some.inj (hparse.symm.trans hparse')
  exact ⟨hinit, hdata, hnohand, hnoclose, hhandler, target, htarget, hstate, hchunks⟩

theorem initial_of_delivers {entry : QuicConnectionEntry} (h : Delivers entry packet)
    (hclose : packet.has quicFlagClose = false) (hhand : packet.has quicFlagHandshake = false)
    (hstate : entry.state = .connecting) : packet.has quicFlagInitial = true := by
  rcases h with h | h | h | h
  · rw [hclose] at h
    exact Bool.noConfusion h
  · rw [processedEntry_state hclose, hhand, hstate] at h
    simp at h
  · exact h
  · rw [hhand] at h
    exact Bool.noConfusion h

theorem connectedOnly_accepted_iff {target : PacketTarget} (hok : TableOk engine)
    (hafter : TableOk (engine.receive datagram addr env).2)
    (hparse : quicPacketDeserialize (datagram.take quicMaxPacketSize) = some packet)
    (hdata : packet.has quicFlagData = true) (hhandler : engine.streamHandler = true)
    (htarget : (engine.cleanupConnections env.now).packetTarget packet addr env.now env.nowAdd = some target)
    (hdelivers : Delivers target.entry packet) (hclose : packet.has quicFlagClose = false) :
    ConnectedOnly engine (.receive datagram addr env) ↔ ¬ Premature engine (.receive datagram addr env) := by
  rw [connectedOnly_accepted hok hafter hparse hdata hhandler htarget hdelivers hclose, processedEntry_state hclose]
  constructor
  · intro himp hpremature
    obtain ⟨-, -, hnohand, -, -, target', htarget', hstate, hchunks⟩ := hpremature.flags hparse
    obtain rfl := Option.some.inj (htarget.symm.trans htarget')
    have hconnected := himp hchunks
    rw [hnohand, hstate] at hconnected
    simp at hconnected
  · intro hnot hchunks
    rcases target_state hok htarget with hstate | hstate
    · cases hhand : packet.has quicFlagHandshake with
      | true => rw [if_pos ⟨hstate, rfl⟩]
      | false =>
          have hinit := initial_of_delivers hdelivers hclose hhand hstate
          exact absurd ⟨datagram, addr, env, packet, target, rfl, hparse, hinit, hdata, hhand, hclose, hhandler,
            htarget, hstate, hchunks⟩ hnot
    · rw [hstate]
      split_ifs <;> rfl

/-- The chunks of a datagram go to a connection that is not CONNECTED exactly if it is premature. -/
theorem connectedOnly_receive_iff (hok : TableOk engine) (hafter : TableOk (engine.receive datagram addr env).2)
    (hparse : quicPacketDeserialize (datagram.take quicMaxPacketSize) = some packet) :
    ConnectedOnly engine (.receive datagram addr env) ↔ ¬ Premature engine (.receive datagram addr env) := by
  by_cases hlistens : packet.has quicFlagData = true ∧ engine.streamHandler = true
  · obtain ⟨hdata, hhandler⟩ := hlistens
    by_cases haccepted : ∃ target,
        (engine.cleanupConnections env.now).packetTarget packet addr env.now env.nowAdd = some target ∧
          Delivers target.entry packet
    · obtain ⟨target, htarget, hdelivers⟩ := haccepted
      cases hclose : packet.has quicFlagClose with
      | true =>
          obtain ⟨-, hclosed, -⟩ := receive_accepted hok hparse hdata hhandler htarget hdelivers
          refine iff_of_true (connectedOnly_of_nil (hclosed hclose).2) fun hpremature => ?_
          obtain ⟨-, -, -, hnoclose, -⟩ := hpremature.flags hparse
          exact Bool.false_ne_true (hnoclose.symm.trans hclose)
      | false => exact connectedOnly_accepted_iff hok hafter hparse hdata hhandler htarget hdelivers hclose
    · refine iff_of_true (connectedOnly_of_nil ?_) fun hpremature => ?_
      · show handedOver (engine.receive datagram addr env).1 = []
        rw [receive_eq_nil hparse fun target htarget hdelivers => haccepted ⟨target, htarget, hdelivers⟩]
        rfl
      · obtain ⟨hinit, -, -, -, -, target, htarget, -, -⟩ := hpremature.flags hparse
        exact haccepted ⟨target, htarget, Or.inr (Or.inr (Or.inl hinit))⟩
  · refine iff_of_true (connectedOnly_of_nil (receive_handedOver_none hparse hlistens)) fun hpremature => ?_
    obtain ⟨-, hdata, -, -, hhandler, -⟩ := hpremature.flags hparse
    exact hlistens ⟨hdata, hhandler⟩

end Datagram

/-- **One operation.** -/
theorem connectedOnly_iff {engine : QuicEngine} {op : EngineOp} (hok : TableOk engine)
    (hafter : TableOk (op.run engine).2) : ConnectedOnly engine op ↔ ¬ Premature engine op := by
  by_cases hreceive : ∃ datagram addr env, op = .receive datagram addr env
  · obtain ⟨datagram, addr, env, rfl⟩ := hreceive
    cases hparse : quicPacketDeserialize (datagram.take quicMaxPacketSize) with
    | none =>
        refine iff_of_true (connectedOnly_of_nil ?_) ?_
        · show handedOver (engine.receive datagram addr env).1 = []
          rw [QuicEngine.receive, hparse]
          rfl
        · rintro ⟨datagram', addr', env', packet', target, hop, hparse', -⟩
          obtain ⟨rfl, rfl, rfl⟩ := EngineOp.receive.inj hop
          rw [hparse] at hparse'
          exact absurd hparse'.symm (Option.some_ne_none packet')
    | some packet => exact connectedOnly_receive_iff hok hafter hparse
  · refine iff_of_true (connectedOnly_of_nil (handedOver_eq_nil engine op fun datagram addr env h =>
      hreceive ⟨datagram, addr, env, h⟩)) ?_
    rintro ⟨datagram, addr, env, -, -, hop, -⟩
    exact hreceive ⟨datagram, addr, env, hop⟩

/-- **Stream data after the handshake.** In any run of the engine's operations the stream handler is called
for CONNECTED connections only, exactly if no datagram of the run is premature. -/
theorem stream_data_after_handshake_iff (handler : Bool) (ops : List EngineOp) :
    (∀ before op after, ops = before ++ op :: after →
      ConnectedOnly (runEngine (quicEngineInit handler) before) op) ↔
    ∀ before op after, ops = before ++ op :: after →
      ¬ Premature (runEngine (quicEngineInit handler) before) op := by
  refine forall_congr' fun before => forall_congr' fun op => forall_congr' fun after =>
    imp_congr_right fun _ => connectedOnly_iff ?_ ?_
  · exact reachable_tableOk (reachable_runEngine handler before)
  · rw [← runEngine_snoc]
    exact reachable_tableOk (reachable_runEngine handler (before ++ [op]))

instance (engine : QuicEngine) (op : EngineOp) : Decidable (ConnectedOnly engine op) :=
  inferInstanceAs (Decidable (∀ chunk ∈ handedOver _, Exists _))

/-- One datagram with INITIAL and DATA on an engine with a stream handler: its byte is handed over while the
connection is CONNECTING. -/
theorem initial_data_not_connected :
    ¬ ConnectedOnly (runEngine (quicEngineInit false) [.setStreamDataHandler true])
      (sampleReceive ⟨quicFlagInitial ||| quicFlagData, 7, 1, 0, 0, ⟨[65], by decide⟩⟩) := by
  decide +kernel

end OttQuic
