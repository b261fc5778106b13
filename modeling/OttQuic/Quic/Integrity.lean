import OttQuic.Quic.Exchange

/-!
# What arrives is what was sent

Every stream of every connection has its bytes, and applications send DATA packets that carry them. Then no byte is
invented, moved or exchanged on the way (`chunks_genuine`): what any stream handler is given, at any time, is the part
of the stream that its offset says. Connections may be closed, time out, migrate and be opened again meanwhile; the
network may do what it likes.

The invariant of an engine is that every fragment it buffers carries the bytes of its stream (`Genuine`).
-/

namespace OttQuic

open SlotTable QuicEngine QuicStreamManager Network

/-! ### Stream managers -/

/-- The bytes of every stream of every connection. -/
abbrev Streams := UInt64 → UInt32 → Bytes

/-- The streams of a manager buffer bytes of theirs only. -/
def QuicStreamManager.Genuine (S : Streams) (cid : UInt64) (mgr : QuicStreamManager) : Prop :=
  ∀ s, ∀ seg ∈ (mgr.stateOf s).segments, Carries (S cid s) seg

section

variable {S : Streams} {cid : UInt64} {mgr : QuicStreamManager}

theorem genuine_init : quicStreamManagerInit.Genuine S cid := by
  intro s seg hseg
  rw [init_stateOf] at hseg
  cases hseg

theorem genuine_destroy : (quicStreamManagerDestroy mgr).Genuine S cid := by
  intro s seg hseg
  have hnone : (quicStreamManagerDestroy mgr).find s = none := by
    refine findKey_none.mpr fun i hused => ?_
    have hfree : ((quicStreamManagerDestroy mgr).streams i).inUse = false := by
      rw [quicStreamManagerDestroy]
      dsimp only
      split_ifs with h
      · rfl
      · exact Bool.eq_false_iff.mpr h
    rw [hfree] at hused
    cases hused
  rw [stateOf_of_not_found hnone] at hseg
  cases hseg

/-- A fragment of the stream comes in: what is buffered and what goes out are bytes of the stream. -/
theorem genuine_onData (hS : ∀ cid s, (S cid s).length < 2 ^ 32) (hu : mgr.Unique) (h : mgr.Genuine S cid)
    {call : StreamCall} (hcarries : Carries (S cid call.streamId) call.node) :
    (call.run mgr).2.Genuine S cid ∧
      ((call.run mgr).1.rc = 0 → ∃ offset, (call.run mgr).1.outOffset = some offset ∧
        (call.run mgr).1.out.getD [] =
          ((S cid call.streamId).drop offset.toNat).take ((call.run mgr).1.out.getD []).length) := by
  obtain ⟨-, hother, hfails, htakes⟩ := onData_cases hu call
  by_cases hall : call.Accepted ∧ mgr.HasSlot call.streamId ∧ call.Allocates
  · obtain ⟨hresult, hstate⟩ := htakes hall.1 hall.2.1 hall.2.2
    have hsegs : ∀ seg ∈ insertNode call.node (mgr.stateOf call.streamId).segments,
        Carries (S cid call.streamId) seg := by
      intro seg hseg
      rcases mem_insertNode.mp hseg with rfl | hold
      · exact hcarries
      · exact h call.streamId seg hold
    obtain ⟨hout, hleft⟩ := consumeSegments_carries (hS cid call.streamId) _
      (mgr.stateOf call.streamId).nextOffset call.outBufSize hsegs
    constructor
    · intro s seg hseg
      by_cases hs : s = call.streamId
      · subst hs
        rw [hstate] at hseg
        exact hleft seg hseg
      · rw [hother s hs] at hseg
        exact h s seg hseg
    · intro _
      rw [hresult]
      exact ⟨_, rfl, hout⟩
  · obtain ⟨hrc, -, hstate⟩ := hfails hall
    constructor
    · intro s seg hseg
      by_cases hs : s = call.streamId
      · subst hs
        refine h call.streamId seg ?_
        rcases hstate with hsame | hused
        · rwa [hsame] at hseg
        · rwa [hused] at hseg
      · rw [hother s hs] at hseg
        exact h s seg hseg
    · intro hzero
      rw [hrc] at hzero
      cases hzero

end

/-! ### Engines -/

/-- The manager of every slot of the connection table is genuine for its connection. -/
def QuicEngine.Genuine (S : Streams) (engine : QuicEngine) : Prop :=
  ∀ i, (engine.connections i).streamMgr.Genuine S (engine.connections i).connectionId

/-- A DATA packet carries bytes of its stream. -/
def Truthful (S : Streams) (packet : QuicPacket) : Prop :=
  packet.has quicFlagData = true → Carries (S packet.connectionId packet.streamId) ⟨packet.offset, packet.payload⟩

/-- The chunk is the part of its stream at its offset. -/
def Chunk.Genuine (S : Streams) (chunk : Chunk) : Prop :=
  chunk.data = ((S chunk.connectionId chunk.streamId).drop chunk.offset.toNat).take chunk.data.length

section

variable {S : Streams} {engine : QuicEngine} {op : EngineOp} {packet : QuicPacket} {addr : SockAddr}

theorem QuicEngine.Genuine.congr {engine' : QuicEngine} (h : engine.Genuine S)
    (hconnections : engine'.connections = engine.connections) : engine'.Genuine S := by
  intro i
  rw [hconnections]
  exact h i

theorem QuicEngine.Genuine.update {engine' : QuicEngine} {j : Fin quicMaxConnections} {entry : QuicConnectionEntry}
    (h : engine.Genuine S) (hconnections : engine'.connections = Function.update engine.connections j entry)
    (hentry : entry.streamMgr.Genuine S entry.connectionId) : engine'.Genuine S := by
  intro i
  rw [hconnections]
  by_cases hi : i = j
  · subst hi
    rwa [Function.update_self]
  · rw [Function.update_of_ne hi]
    exact h i

theorem QuicEngine.Genuine.cleanup (h : engine.Genuine S) (now : Int) : (engine.cleanupConnections now).Genuine S := by
  intro i
  rw [cleanup_connections]
  split_ifs
  · exact genuine_destroy
  · exact h i

theorem QuicEngine.Genuine.send (h : engine.Genuine S) (packet : QuicPacket) (addr : SockAddr) (env : SendEnv) :
    (engine.send packet addr env).engine.Genuine S := h.congr (send_connections engine packet addr env)

theorem QuicEngine.Genuine.getConnection (h : engine.Genuine S) (cid : UInt64) (now : Int) :
    (engine.getConnection cid now).2.Genuine S := by
  have hstart := h.cleanup now
  unfold QuicEngine.getConnection
  dsimp only
  cases (engine.cleanupConnections now).findEntry cid with
  | none => exact hstart
  | some j =>
      dsimp only
      split_ifs
      · exact hstart.update rfl (hstart j)
      · exact hstart

theorem QuicEngine.Genuine.closeLocked (h : engine.Genuine S) (cid : UInt64) :
    (engine.closeLocked cid).2.Genuine S := by
  unfold QuicEngine.closeLocked
  cases engine.findEntry cid with
  | none => exact h
  | some j =>
      dsimp only
      split_ifs
      · exact h.update rfl genuine_destroy
      · exact h

theorem QuicEngine.Genuine.processPacket (h : engine.Genuine S) (packet : QuicPacket) (addr : SockAddr)
    (now nowAdd : Int) : (engine.processPacket packet addr now nowAdd).2.Genuine S := by
  have hstart := h.cleanup now
  have hspec := (engine.processPacket_spec packet addr now nowAdd).2
  cases htarget : (engine.cleanupConnections now).packetTarget packet addr now nowAdd with
  | none =>
      rw [htarget] at hspec
      dsimp only at hspec
      rw [hspec]
      exact hstart
  | some target =>
      rw [htarget] at hspec
      have hentry : target.entry.streamMgr.Genuine S target.entry.connectionId := by
        rcases (packetTarget_cases htarget).2.2 with ⟨-, -, hfound⟩ | ⟨-, -, -, -, hnew⟩
        · rw [hfound]
          exact hstart target.slot
        · rw [hnew]
          exact genuine_init
      refine hstart.update hspec.1 ?_
      unfold processedEntry
      split_ifs
      · exact genuine_destroy
      · exact hentry
      · exact hentry

theorem QuicEngine.Genuine.deliver (h : engine.Genuine S) (hS : ∀ cid s, (S cid s).length < 2 ^ 32)
    (hu : StreamsUnique engine) (hhandler : engine.streamHandler = true)
    (hcarries : Carries (S packet.connectionId packet.streamId) ⟨packet.offset, packet.payload⟩) (alloc : SegmentAlloc) :
    (engine.deliver packet alloc).2.Genuine S ∧
      ∀ chunk ∈ handedOver (engine.deliver packet alloc).1, chunk.Genuine S := by
  cases hfind : engine.findEntry packet.connectionId with
  | none =>
      rw [deliver_none alloc hfind]
      exact ⟨h, List.forall_mem_nil _⟩
  | some i =>
      obtain ⟨hout, hengine⟩ := deliver_some alloc hhandler hfind
      have hid := (findEntry_some hfind).2
      have hcall : Carries (S (engine.connections i).connectionId (streamCall packet alloc).streamId)
          (streamCall packet alloc).node := by
        rw [hid]
        exact hcarries
      obtain ⟨hmgr, hbytes⟩ := genuine_onData hS (hu i) (h i) hcall
      rw [hengine, hout]
      refine ⟨h.update (onData_connections engine i _) hmgr, fun chunk hchunk => ?_⟩
      unfold OnDataResult.chunks at hchunk
      split_ifs at hchunk with hrc
      · obtain rfl := List.mem_singleton.mp hchunk
        obtain ⟨offset, hoffset, hgenuine⟩ := hbytes hrc.1
        rw [hid] at hgenuine
        rw [Chunk.Genuine, hoffset]
        exact hgenuine
      · cases hchunk

theorem QuicEngine.Genuine.deliverAndAck (h : engine.Genuine S) (hS : ∀ cid s, (S cid s).length < 2 ^ 32)
    (hu : StreamsUnique engine) (htruthful : Truthful S packet) (addr : SockAddr) (env : ReceiveEnv) :
    (engine.deliverAndAck packet addr env).2.Genuine S ∧
      ∀ chunk ∈ handedOver (engine.deliverAndAck packet addr env).1, chunk.Genuine S := by
  unfold QuicEngine.deliverAndAck
  split_ifs with hboth
  · obtain ⟨hengine, hchunks⟩ := h.deliver hS hu hboth.2 (htruthful hboth.1) env.alloc
    dsimp only
    rw [handedOver_append, send_handedOver, List.append_nil]
    exact ⟨hengine.send _ _ _, hchunks⟩
  · exact ⟨h, List.forall_mem_nil _⟩

theorem QuicEngine.Genuine.receive (h : engine.Genuine S) (hS : ∀ cid s, (S cid s).length < 2 ^ 32)
    (hu : StreamsUnique engine) {datagram : Bytes}
    (hgood : ∀ packet, readPacket datagram = some packet → Truthful S packet) (addr : SockAddr) (env : ReceiveEnv) :
    (engine.receive datagram addr env).2.Genuine S ∧
      ∀ chunk ∈ handedOver (engine.receive datagram addr env).1, chunk.Genuine S := by
  cases hparse : quicPacketDeserialize (datagram.take quicMaxPacketSize) with
  | none =>
      rw [QuicEngine.receive, hparse]
      exact ⟨h.congr rfl, List.forall_mem_nil _⟩
  | some packet =>
      have hbefore : (engine.beforeProcess packet).Genuine S := h.congr (beforeProcess_connections engine packet)
      have hprocessed := hbefore.processPacket packet addr env.now env.nowAdd
      cases houtcome : ((engine.beforeProcess packet).processPacket packet addr env.now env.nowAdd).1 with
      | none =>
          rw [receive_refused hparse houtcome]
          exact ⟨hprocessed, List.forall_mem_nil _⟩
      | some outcome =>
          have hunique : StreamsUnique (engine.beforeProcess packet) := by
            intro i
            rw [beforeProcess_connections]
            exact hu i
          have hunique' := step_streamsUnique hunique (.processPacket packet addr env.now env.nowAdd)
          rw [receive_parts hparse houtcome]
          simp only [EngineSection.step] at hunique'
          set processed := ((engine.beforeProcess packet).processPacket packet addr env.now env.nowAdd).2
          obtain ⟨hconnections, -, hanswer⟩ := answerHandshake_frame processed packet addr env outcome
          set answer := processed.answerHandshake packet addr env outcome
          have hgenuine : answer.engine.Genuine S := hprocessed.congr hconnections
          have hunique'' : StreamsUnique answer.engine := by
            intro i
            rw [hconnections]
            exact hunique' i
          have hdelivered := hgenuine.deliverAndAck hS hunique'' (hgood packet hparse) addr env
          refine ⟨hdelivered.1, ?_⟩
          have hpacket : ∀ b : Bool, handedOver (if b then [QuicOutput.packet packet addr] else []) = [] := by
            intro b
            cases b <;> rfl
          dsimp only
          rw [handedOver_append, handedOver_append, handedOver_append, notifyState_handedOver, hanswer, hpacket,
            List.append_nil, List.nil_append, List.nil_append]
          exact hdelivered.2

/-- **One operation** of an engine that takes truthful packets only. -/
theorem QuicEngine.Genuine.step (h : engine.Genuine S) (hS : ∀ cid s, (S cid s).length < 2 ^ 32)
    (hu : StreamsUnique engine)
    (hgood : ∀ datagram ∈ op.received, ∀ packet, readPacket datagram = some packet → Truthful S packet) :
    (op.run engine).2.Genuine S ∧ ∀ chunk ∈ handedOver (op.run engine).1, chunk.Genuine S := by
  by_cases hop : ∃ datagram addr env, op = .receive datagram addr env
  · obtain ⟨datagram, addr, env, rfl⟩ := hop
    exact h.receive hS hu (hgood datagram rfl) addr env
  · have hnone : handedOver (op.run engine).1 = [] :=
      handedOver_eq_nil engine op fun datagram addr env heq => hop ⟨datagram, addr, env, heq⟩
    rw [hnone]
    refine ⟨?_, List.forall_mem_nil _⟩
    cases op with
    | receive datagram addr env => exact absurd ⟨datagram, addr, env, rfl⟩ hop
    | receiveTimeout now nowRetransmit sendOk =>
        exact (h.cleanup now).congr (retransmitPending_connections _ nowRetransmit sendOk)
    | send packet addr env => exact h.send packet addr env
    | sendToConnection packet now env =>
        have hget := h.getConnection packet.connectionId now
        show (engine.sendToConnection packet now env).engine.Genuine S
        unfold QuicEngine.sendToConnection
        generalize engine.getConnection packet.connectionId now = result at hget ⊢
        obtain ⟨_ | addr, found⟩ := result
        · exact hget
        · exact hget.send packet addr env
    | getConnection cid now => exact h.getConnection cid now
    | closeConnection cid env =>
        have hclosed := h.closeLocked cid
        show (engine.closeConnection cid env).engine.Genuine S
        unfold QuicEngine.closeConnection
        generalize engine.closeLocked cid = result at hclosed ⊢
        obtain ⟨_ | addr, closed⟩ := result
        · exact hclosed
        · exact hclosed.send (closePacket cid) addr env
    | setStateHandler installed => exact h.congr rfl
    | setStreamDataHandler installed => exact h.congr rfl

end

/-! ### Peers -/

/-- What holds of a peer whose application and whose network are truthful. -/
structure TrueTo (S : Streams) (handler : Bool) (l : Log Peer Bytes) : Prop where
  reachable : (engineSystem handler).Reachable l.state.engine
  pending : PendingSent (Truthful S) l.state.engine l.sent
  genuine : l.state.engine.Genuine S
  handed : ∀ chunk ∈ l.state.handed, chunk.Genuine S

/-- The datagram holds a truthful packet, if it holds one. -/
def TrueDatagram (S : Streams) (datagram : Bytes) : Prop :=
  ∀ packet, readPacket datagram = some packet → Truthful S packet

theorem truthful_of_noData {S : Streams} {packet : QuicPacket} (h : packet.has quicFlagData = false) :
    Truthful S packet := by
  intro hdata
  rw [h] at hdata
  cases hdata

theorem TrueTo.step {S : Streams} (hS : ∀ cid s, (S cid s).length < 2 ^ 32) {handler : Bool} {l l' : Log Peer Bytes}
    {received : Option Bytes} (h : TrueTo S handler l) (hsent : ∀ m ∈ l.sent, TrueDatagram S m)
    (hgood : ∀ m ∈ received, TrueDatagram S m) (hlogs : (enginePeer handler (Truthful S)).Logs l received l') :
    TrueTo S handler l' ∧ ∀ m ∈ l'.sent, TrueDatagram S m := by
  obtain ⟨out, ⟨op, hreceived, hsends, hstate, rfl⟩, -, hsent'⟩ := hlogs
  subst hreceived
  obtain ⟨hgenuine, hchunks⟩ := h.genuine.step hS (reachable_streamsUnique h.reachable) hgood
  constructor
  · constructor
    · rw [hstate]
      exact (op_sectionsTo l.state.engine op).reachable h.reachable
    · rw [hstate, hsent']
      exact h.pending.step hsends
    · rw [hstate]
      exact hgenuine
    · rw [hstate]
      intro chunk hchunk
      rcases List.mem_append.mp hchunk with hold | hnew
      · exact h.handed chunk hold
      · exact hchunks chunk hnew
  · intro m hm packet hread
    rw [hsent'] at hm
    rcases List.mem_append.mp hm with hold | hnew
    · exact hsent m hold packet hread
    · rcases mem_datagrams hnew with ⟨p, addr, hp, hsize, rfl⟩ | ⟨j, hused, rfl⟩
      · obtain rfl : p = packet := Option.some.inj ((readPacket_wire hsize).symm.trans hread)
        rcases op_sent hp with ⟨now, htracked⟩ | ⟨cid, rfl⟩ | ⟨datagram, q, -, -, ⟨-, rfl⟩ | ⟨-, rfl⟩⟩
        · exact hsends p now htracked
        · exact truthful_of_noData (closePacket_noData cid)
        · exact truthful_of_noData (handshakePacket_noData q.connectionId)
        · exact truthful_of_noData (ackPacket_noData q)
      · obtain ⟨p, hfor, htruthful, -⟩ := h.pending j hused
        rw [hfor.buffer, readPacket_wire hfor.size] at hread
        exact Option.some.inj hread ▸ htruthful

universe w

variable {ι : Type w} {S : Streams} {handler : ι → Bool} {s : ι → Log Peer Bytes}

/-- **What arrives is what was sent.** If the DATA packets of all applications carry bytes of their streams, then every
chunk that the stream handler of any engine has been given, in any run, is the part of its stream at its offset. -/
theorem chunks_genuine (hS : ∀ cid s, (S cid s).length < 2 ^ 32)
    (h : (net fun i => enginePeer (handler i) (Truthful S)).Reachable s) (i : ι) :
    ∀ chunk ∈ (s i).state.handed, chunk.Genuine S := by
  refine (rely_guarantee (I := fun i l => TrueTo S (handler i) l) (G := TrueDatagram S) ?_ ?_ h i).1.handed
  · intro i l hstate _ _
    have hinit : l.state = ⟨quicEngineInit (handler i), []⟩ := hstate
    constructor
    · rw [hinit]
      exact reachable_runEngine (handler i) []
    · rw [hinit]
      exact pendingSent_init (handler i)
    · rw [hinit]
      exact fun _ => genuine_init
    · rw [hinit]
      exact List.forall_mem_nil _
  · intro i l received l' hl hsent hgood hlogs
    exact hl.step hS hsent hgood hlogs

theorem chunks_genuine_letter : (exchanged letterOps false).state.handed ≠ [] ∧
    ∀ chunk ∈ (exchanged letterOps false).state.handed, chunk.Genuine fun _ _ => [0x41] := by
  have hreach : (net fun _ : Bool => enginePeer false (Truthful fun _ _ => [0x41])).Reachable (exchanged letterOps) :=
    letter_reachable (truthful_of_noData (by decide)) (fun _ => by decide)
  exact ⟨by decide +kernel, chunks_genuine (fun _ _ => by decide) hreach false⟩

end OttQuic
