import OttQuic.Lib.Network
import OttQuic.Quic.Acknowledge
import OttQuic.Quic.Discipline
import OttQuic.Quic.Handshake

/-!
# Engines on a network

Any number of engines run `quic_engine_loop` and send packets for their applications, over a network that loses,
repeats and reorders datagrams. Each operation of an engine is one step; the steps of different engines interleave in
any way.

An acknowledgement is earned (`ack_earned`): who sends one has received a DATA packet with its number, or it is the
answer to an INITIAL, whose flags make it look like one for packet 1. From this follows what it means that an engine
stops retransmitting a packet (`pending_discharged`).
-/

namespace OttQuic

open SlotTable QuicEngine QuicStreamManager Network

/-- The packet of a datagram, of which `recvfrom` keeps what fits the buffer. -/
def readPacket (datagram : Bytes) : Option QuicPacket := quicPacketDeserialize (datagram.take quicMaxPacketSize)

/-- The datagram of an output. -/
def QuicOutput.datagram? : QuicOutput → Option Bytes
  | .sent p _ => quicPacketSerialize p quicMaxPacketSize
  | .resent _ buffer _ => some buffer
  | _ => none

/-- The datagrams that the outputs put on the wire. -/
def datagrams (out : List QuicOutput) : List Bytes := out.filterMap QuicOutput.datagram?

/-- The datagram that the operation receives. -/
def EngineOp.received : EngineOp → Option Bytes
  | receive datagram _ _ => some datagram
  | _ => none

/-- An engine, and the chunks that its stream handler has been given. -/
structure Peer where
  engine : QuicEngine
  handed : List Chunk

/-- What an operation of the engine makes of it. -/
def Peer.after (peer : Peer) (op : EngineOp) : Peer :=
  ⟨(op.run peer.engine).2, peer.handed ++ handedOver (op.run peer.engine).1⟩

/-- An engine on the network. The packets that its application sends meet `C`. -/
def enginePeer (handler : Bool) (C : QuicPacket → Prop) : Party Peer Bytes where
  init peer := peer = ⟨quicEngineInit handler, []⟩
  step peer received peer' out := ∃ op : EngineOp, op.received = received ∧
    (∀ packet now, op.tracked = some (packet, now) → C packet) ∧ peer' = peer.after op ∧
    out = datagrams (op.run peer.engine).1

/-! ### What an operation puts on the wire -/

section

variable {engine : QuicEngine} {op : EngineOp} {packet p : QuicPacket} {addr addr' : SockAddr} {m : Bytes}
  {j : Fin quicMaxPending}

theorem readPacket_wire (h : packet.payload.bytes.length ≤ quicMaxPayload) : readPacket packet.wire = some packet := by
  rw [readPacket, (wire_serialized h).2]
  exact deserialize_serialized h

theorem resent_buffer {buffer : Bytes} (h : .resent j buffer addr ∈ (op.run engine).1) :
    (engine.pending j).inUse = true ∧ buffer = (engine.pending j).buffer := by
  obtain ⟨now, nowRetransmit, sendOk, rfl⟩ := tick_of_resent h
  have hmem : (buffer, addr) ∈ resentOn j (engine.receiveTimeout now nowRetransmit sendOk).1 := by
    refine List.mem_filterMap.mpr ⟨_, h, ?_⟩
    simp
  have hresend := List.mem_map_of_mem (f := fun sent : Bytes × SockAddr =>
    (⟨nowRetransmit, engine.cleanupConnections now, sent.1, sent.2⟩ : Resend)) hmem
  rcases op_pendingStep engine (.receiveTimeout now nowRetransmit sendOk) j with
    ⟨hnone, -⟩ | ⟨packet, clock, hrecords⟩ | ⟨clock, e, i, hdue, -, hsent, -⟩
  · simp only [EngineOp.resends] at hnone
    rw [hnone] at hresend
    cases hresend
  · cases hrecords.1
  · simp only [EngineOp.resends] at hsent
    rw [hsent, List.mem_singleton, Resend.mk.injEq] at hresend
    exact ⟨hdue.1, hresend.2.2.1⟩

theorem mem_datagrams (h : m ∈ datagrams (op.run engine).1) :
    (∃ packet addr, .sent packet addr ∈ (op.run engine).1 ∧ packet.payload.bytes.length ≤ quicMaxPayload ∧
        m = packet.wire) ∨
      ∃ j, (engine.pending j).inUse = true ∧ m = (engine.pending j).buffer := by
  obtain ⟨o, ho, hm⟩ := List.mem_filterMap.mp h
  cases o with
  | sent packet addr =>
      obtain ⟨hsize, -, rfl⟩ := quicPacketSerialize_eq_some.mp hm
      exact .inl ⟨packet, addr, ho, hsize, rfl⟩
  | resent j buffer addr =>
      obtain ⟨hused, hbuffer⟩ := resent_buffer ho
      exact .inr ⟨j, hused, (Option.some.inj hm).symm.trans hbuffer⟩
  | resendFailed j => cases hm
  | state cid state addr => cases hm
  | streamData cid s offset data => cases hm
  | packet packet addr => cases hm

theorem receive_sent_flags {datagram : Bytes} {env : ReceiveEnv}
    (h : .sent p addr' ∈ (engine.receive datagram addr env).1) :
    ∃ packet, readPacket datagram = some packet ∧
      (packet.has quicFlagInitial = true ∧ p = handshakePacket packet.connectionId ∨
        packet.has quicFlagData = true ∧ p = ackPacket packet) := by
  obtain ⟨packet, outcome, hparse, houtcome, hwhich⟩ := receive_sent_cases h
  refine ⟨packet, hparse, ?_⟩
  rcases hwhich with ⟨hneeded, -, hp⟩ | hp
  · left
    refine ⟨?_, hp⟩
    obtain ⟨target, htarget, -⟩ := accepted_of_output hparse (List.ne_nil_of_mem h)
    have hcleanup := cleanup_connections_congr (beforeProcess_connections engine packet) env.now
    have hspec := ((engine.beforeProcess packet).processPacket_spec packet addr env.now env.nowAdd).2
    rw [packetTarget_congr hcleanup, htarget] at hspec
    have hcreated := (hspec.2.2.2 outcome houtcome).symm.trans hneeded
    rcases (packetTarget_cases htarget).2.2 with ⟨-, hfound, -⟩ | ⟨-, -, hinitial, -⟩
    · rw [hfound] at hcreated
      cases hcreated
    · exact hinitial
  · right
    refine ⟨?_, hp⟩
    by_contra hdata
    -- without DATA the loop can only have sent an answer, and its flags are not those of an acknowledgement
    rw [receive_parts hparse houtcome] at h
    rw [deliverAndAck, if_neg fun hboth => hdata hboth.1] at h
    simp only [List.mem_append, List.not_mem_nil, or_false] at h
    rcases h with (h | h) | h
    · unfold notifyState emitState at h
      split at h
      · split_ifs at h <;> simp at h
      · simp at h
    · unfold answerHandshake at h
      split_ifs at h with hneeded
      · have hflags := congrArg QuicPacket.flags (hp.symm.trans (mem_send_out h).1)
        exact absurd hflags (show (quicFlagAck : UInt8) ≠ quicFlagHandshake ||| quicFlagAck by decide)
      · simp at h
    · split_ifs at h <;> simp at h

/-- What an operation sends: a packet of the application, a CLOSE, or an answer to what it has received. -/
theorem op_sent (h : .sent p addr ∈ (op.run engine).1) :
    (∃ now, op.tracked = some (p, now)) ∨ (∃ cid, p = closePacket cid) ∨
      ∃ datagram packet, op.received = some datagram ∧ readPacket datagram = some packet ∧
        (packet.has quicFlagInitial = true ∧ p = handshakePacket packet.connectionId ∨
          packet.has quicFlagData = true ∧ p = ackPacket packet) := by
  cases op with
  | receive datagram addr' env =>
      obtain ⟨packet, hread, hwhich⟩ := receive_sent_flags h
      exact .inr (.inr ⟨datagram, packet, rfl, hread, hwhich⟩)
  | receiveTimeout now nowRetransmit sendOk => exact absurd h retransmit_sent
  | send packet addr' env =>
      rw [(mem_send_out h).1]
      exact .inl ⟨env.now, rfl⟩
  | sendToConnection packet now env =>
      obtain ⟨i, -, -, hsend⟩ := sendToConnection_sent h
      have hsent : .sent p addr ∈ (engine.sendToConnection packet now env).out := h
      rw [hsend] at hsent
      rw [(mem_send_out hsent).1]
      exact .inl ⟨env.now, rfl⟩
  | getConnection cid now => simp [EngineOp.run] at h
  | closeConnection cid env =>
      have hsent : .sent p addr ∈ (engine.closeConnection cid env).out := h
      unfold QuicEngine.closeConnection at hsent
      generalize engine.closeLocked cid = result at hsent
      obtain ⟨_ | addr', closed⟩ := result
      · simp at hsent
      · rcases List.mem_append.mp hsent with hsent | hsent
        · exact .inr (.inl ⟨cid, (mem_send_out hsent).1⟩)
        · unfold emitState at hsent
          split_ifs at hsent <;> simp at hsent
  | setStateHandler installed => simp [EngineOp.run] at h
  | setStreamDataHandler installed => simp [EngineOp.run] at h

theorem records_sent {now : Int} (h : Records engine op j packet now) :
    packet.has quicFlagData = true ∧ ∃ addr, .sent packet addr ∈ (op.run engine).1 := by
  obtain ⟨htracked, e, htracks, -⟩ := h
  cases op with
  | send p addr env =>
      obtain ⟨rfl, -⟩ := Prod.mk.inj (Option.some.inj htracked)
      simp only [EngineOp.tracksIn] at htracks
      split_ifs at htracks with hsend
      refine ⟨hsend.1, addr, ?_⟩
      show .sent p addr ∈ (engine.send p addr env).out
      rw [send_out, if_pos (send_rc.mpr hsend.2)]
      exact List.mem_singleton_self _
  | sendToConnection p clock env =>
      obtain ⟨rfl, -⟩ := Prod.mk.inj (Option.some.inj htracked)
      simp only [EngineOp.tracksIn] at htracks
      cases hfind : (engine.cleanupConnections clock).findEntry p.connectionId with
      | none =>
          rw [hfind] at htracks
          cases htracks
      | some i =>
          simp only [hfind] at htracks
          split_ifs at htracks with hsend
          refine ⟨hsend.2.1, ((engine.cleanupConnections clock).connections i).addr, ?_⟩
          show _ ∈ (engine.sendToConnection p clock env).out
          simp only [QuicEngine.sendToConnection, QuicEngine.getConnection, hfind, if_pos hsend.1]
          rw [send_out, if_pos (send_rc.mpr hsend.2.2)]
          exact List.mem_singleton_self _
  | _ => cases htracked

end

/-! ### Pending packets -/

/-- The packet is the one that the slot is in use for. -/
structure PendingFor (engine : QuicEngine) (j : Fin quicMaxPending) (packet : QuicPacket) : Prop where
  connectionId : (engine.pending j).connectionId = packet.connectionId
  packetNumber : (engine.pending j).packetNumber = packet.packetNumber
  buffer : (engine.pending j).buffer = packet.wire
  data : packet.has quicFlagData = true
  size : packet.payload.bytes.length ≤ quicMaxPayload

/-- Every slot in use is for a packet that the application has sent. -/
def PendingSent (C : QuicPacket → Prop) (engine : QuicEngine) (sent : List Bytes) : Prop :=
  ∀ j, (engine.pending j).inUse = true → ∃ packet, PendingFor engine j packet ∧ C packet ∧ packet.wire ∈ sent

section

variable {C : QuicPacket → Prop} {engine : QuicEngine} {op : EngineOp} {sent : List Bytes}

theorem pendingSent_init (handler : Bool) : PendingSent C (quicEngineInit handler) sent := by
  intro j hused
  cases hused

theorem PendingSent.step (h : PendingSent C engine sent)
    (hsends : ∀ packet now, op.tracked = some (packet, now) → C packet) :
    PendingSent C (op.run engine).2 (sent ++ datagrams (op.run engine).1) := by
  intro j hused
  -- the slot as it was, up to its clock and its retries
  have hsame (hold : (engine.pending j).inUse = true)
      (hid : ((op.run engine).2.pending j).connectionId = (engine.pending j).connectionId)
      (hnumber : ((op.run engine).2.pending j).packetNumber = (engine.pending j).packetNumber)
      (hbuffer : ((op.run engine).2.pending j).buffer = (engine.pending j).buffer) :
      ∃ packet, PendingFor (op.run engine).2 j packet ∧ C packet ∧
        packet.wire ∈ sent ++ datagrams (op.run engine).1 := by
    obtain ⟨packet, hfor, hC, hmem⟩ := h j hold
    exact ⟨packet, ⟨hid.trans hfor.connectionId, hnumber.trans hfor.packetNumber, hbuffer.trans hfor.buffer, hfor.data,
      hfor.size⟩, hC, List.mem_append_left _ hmem⟩
  rcases op_pendingStep engine op j with ⟨-, hslot⟩ | ⟨packet, now, hrecords⟩ | ⟨now, e, i, hdue, -, -, hslot⟩
  · have hkept := hslot.used hused
    rw [hkept] at hused
    exact hsame hused (by rw [hkept]) (by rw [hkept]) (by rw [hkept])
  · obtain ⟨hsize, hslot⟩ := records_slot hrecords
    obtain ⟨hdata, addr, hsent⟩ := records_sent hrecords
    refine ⟨packet, ⟨by rw [hslot]; rfl, by rw [hslot]; rfl, ?_, hdata, hsize⟩, hsends packet now hrecords.1, ?_⟩
    · rw [hslot]
      exact (wire_serialized hsize).2
    · exact List.mem_append_right _ (List.mem_filterMap.mpr ⟨_, hsent, (wire_serialized hsize).1⟩)
  · exact hsame hdue.1 (by rw [hslot]; rfl) (by rw [hslot]; rfl) (by rw [hslot]; rfl)

end

/-! ### Acknowledgements -/

/-- The packet does not acknowledge anything. -/
def NoAck (packet : QuicPacket) : Prop := packet.has quicFlagAck = false

/-- A DATA packet of the connection with the number is among the datagrams. -/
def HasData (taken : List Bytes) (cid : UInt64) (pn : UInt32) : Prop :=
  ∃ datagram ∈ taken, ∃ packet, readPacket datagram = some packet ∧ packet.has quicFlagData = true ∧
    packet.connectionId = cid ∧ packet.packetNumber = pn

/-- An INITIAL of the connection is among the datagrams. -/
def HasInitial (taken : List Bytes) (cid : UInt64) : Prop :=
  ∃ datagram ∈ taken, ∃ packet, readPacket datagram = some packet ∧ packet.has quicFlagInitial = true ∧
    packet.connectionId = cid

/-- Who has taken these datagrams can acknowledge the packet with the number: it has taken such a DATA packet, or the
number is that of the answers to an INITIAL. -/
def Earned (taken : List Bytes) (cid : UInt64) (pn : UInt32) : Prop :=
  HasData taken cid pn ∨ (pn = 1 ∧ HasInitial taken cid)

theorem HasData.append {taken : List Bytes} {cid : UInt64} {pn : UInt32} (h : HasData taken cid pn)
    (more : List Bytes) : HasData (taken ++ more) cid pn := by
  obtain ⟨datagram, hmem, hpacket⟩ := h
  exact ⟨datagram, List.mem_append_left _ hmem, hpacket⟩

theorem Earned.append {taken : List Bytes} {cid : UInt64} {pn : UInt32} (h : Earned taken cid pn)
    (more : List Bytes) : Earned (taken ++ more) cid pn := by
  rcases h with hdata | ⟨hpn, datagram, hmem, hpacket⟩
  · exact .inl (hdata.append more)
  · exact .inr ⟨hpn, datagram, List.mem_append_left _ hmem, hpacket⟩

/-- What holds of a peer: its slots are for packets it has sent, and what it has acknowledged it had received. -/
structure Acknowledging (l : Log Peer Bytes) : Prop where
  pending : PendingSent NoAck l.state.engine l.sent
  earned : ∀ m ∈ l.sent, ∀ packet, readPacket m = some packet → packet.has quicFlagAck = true →
    Earned l.taken packet.connectionId packet.packetNumber

theorem Acknowledging.step {l l' : Log Peer Bytes} {handler : Bool} {received : Option Bytes} (h : Acknowledging l)
    (hlogs : (enginePeer handler NoAck).Logs l received l') : Acknowledging l' := by
  obtain ⟨out, ⟨op, hreceived, hsends, hstate, rfl⟩, htaken, hsent⟩ := hlogs
  constructor
  · rw [hstate, hsent]
    exact h.pending.step hsends
  · intro m hm packet hread hack
    rw [hsent] at hm
    rw [htaken]
    rcases List.mem_append.mp hm with hold | hnew
    · exact (h.earned m hold packet hread hack).append _
    · rcases mem_datagrams hnew with ⟨p, addr, hp, hsize, rfl⟩ | ⟨j, hused, rfl⟩
      · obtain rfl : p = packet := Option.some.inj ((readPacket_wire hsize).symm.trans hread)
        rcases op_sent hp with ⟨now, htracked⟩ | ⟨cid, rfl⟩ | ⟨datagram, q, hdatagram, hq, hwhich⟩
        · -- the application acknowledges nothing
          have hno : p.has quicFlagAck = false := hsends p now htracked
          rw [hno] at hack
          cases hack
        · exact absurd hack (show ¬ (quicFlagClose &&& quicFlagAck != 0) = true by decide)
        · have hmem : datagram ∈ l.taken ++ received.toList := by
            rw [← hreceived, hdatagram]
            exact List.mem_append_right _ (List.mem_singleton_self _)
          rcases hwhich with ⟨hinitial, rfl⟩ | ⟨hdata, rfl⟩
          · exact .inr ⟨rfl, datagram, hmem, q, hq, hinitial, rfl⟩
          · exact .inl ⟨datagram, hmem, q, hq, hdata, rfl, rfl⟩
      · -- a retransmission repeats what has been sent
        obtain ⟨p, hfor, -, hmem⟩ := h.pending j hused
        rw [hfor.buffer] at hread
        exact (h.earned p.wire hmem packet hread hack).append _

section

universe w

variable {ι : Type w} {handler : ι → Bool} {s t : ι → Log Peer Bytes} {e : ι × Option Bytes}

theorem acknowledging (h : (net fun i => enginePeer (handler i) NoAck).Reachable s) (i : ι) : Acknowledging (s i) := by
  refine (rely_guarantee (I := fun _ l => Acknowledging l) (G := fun _ => True) ?_ ?_ h i).1
  · intro i l hstate _ hsent
    have hinit : l.state = ⟨quicEngineInit (handler i), []⟩ := hstate
    refine ⟨?_, ?_⟩
    · rw [hinit]
      exact pendingSent_init (handler i)
    · rw [hsent]
      exact List.forall_mem_nil _
  · intro i l received l' hl _ _ hlogs
    exact ⟨hl.step hlogs, fun _ _ => trivial⟩

/-- **Acknowledgements are earned.** An acknowledgement that arrives anywhere was sent by a peer that had received a
DATA packet of the connection with its number, or an INITIAL of the connection, and then the number is 1. -/
theorem ack_earned (h : (net fun i => enginePeer (handler i) NoAck).Reachable s) {i : ι} {m : Bytes}
    (hm : m ∈ (s i).taken) {packet : QuicPacket} (hread : readPacket m = some packet)
    (hack : packet.has quicFlagAck = true) :
    ∃ k, Earned (s k).taken packet.connectionId packet.packetNumber := by
  obtain ⟨k, hk⟩ := taken_sent h hm
  exact ⟨k, (acknowledging h k).earned m hk packet hread hack⟩

/-- No two DATA packets of a connection that have been sent share their number. -/
def Numbered (s : ι → Log Peer Bytes) : Prop :=
  ∀ i j, ∀ m ∈ (s i).sent, ∀ m' ∈ (s j).sent, ∀ p p', readPacket m = some p → readPacket m' = some p' →
    p.has quicFlagData = true → p'.has quicFlagData = true → p.connectionId = p'.connectionId →
    p.packetNumber = p'.packetNumber → p = p'

/-- The engine gives the packet of the slot up: its connection has ended or has no entry, a retransmission has failed,
or the last one has gone out. -/
inductive GivesUp (engine : QuicEngine) (op : EngineOp) (j : Fin quicMaxPending) : Prop
  | ended (hends : Ends engine op (engine.pending j).connectionId)
  | orphaned (now nowRetransmit : Int) (sendOk : Fin quicMaxPending → Bool)
      (hop : op = .receiveTimeout now nowRetransmit sendOk) (hdue : (engine.pending j).Due nowRetransmit)
      (hnone : (engine.cleanupConnections now).findEntry (engine.pending j).connectionId = none)
  | failed (hfailed : resendFailed j (op.run engine).1 = true)
  | exhausted (hcount : resentCount j (op.run engine).1 = 1)
      (hretries : quicMaxRetries ≤ (engine.pending j).retries + 1)

theorem timeout_slot (engine : QuicEngine) (now nowRetransmit : Int) (sendOk : Fin quicMaxPending → Bool)
    (j : Fin quicMaxPending) (hused : (engine.pending j).inUse = true) :
    let op := EngineOp.receiveTimeout now nowRetransmit sendOk
    ((op.run engine).2.pending j).inUse = true ∨ GivesUp engine op j := by
  intro op
  rcases cleanup_slot engine j op rfl with hkept | hends
  · have hview := retransmit_slotView (engine.cleanupConnections now) nowRetransmit sendOk j
    have hentry := congrArg SlotView.entry hview
    have hcount := congrArg SlotView.resent hview
    have hfailed := congrArg SlotView.failed hview
    have hv : slotView j ([], engine.cleanupConnections now) =
        ⟨(engine.cleanupConnections now).connections, engine.pending j, 0, false⟩ := by
      rw [← hkept]
      rfl
    rw [hv] at hentry hcount hfailed
    unfold SlotView.tick at hentry hcount hfailed
    by_cases hdue : (engine.pending j).Due nowRetransmit
    · rw [if_pos hdue] at hentry hcount hfailed
      cases hfind : (engine.cleanupConnections now).findEntry (engine.pending j).connectionId with
      | none => exact .inr (.orphaned now nowRetransmit sendOk rfl hdue hfind)
      | some i =>
          unfold findEntry at hfind
          simp only [hfind] at hentry hcount hfailed
          cases hok : sendOk j with
          | true =>
              simp only [hok, if_true] at hentry hcount
              by_cases hmore : (engine.pending j).retries + 1 < quicMaxRetries
              · left
                have hslot : (op.run engine).2.pending j = (engine.pending j).resend nowRetransmit := hentry
                rw [hslot]
                exact decide_eq_true hmore
              · exact .inr (.exhausted hcount (Nat.not_lt.mp hmore))
          | false =>
              simp only [hok, Bool.false_eq_true, if_false] at hfailed
              exact .inr (.failed hfailed)
    · rw [if_neg hdue] at hentry
      have hslot : (op.run engine).2.pending j = engine.pending j := hentry
      rw [hslot]
      exact .inl hused
  · exact .inr (.ended hends)

theorem freed_slot {engine : QuicEngine} {op : EngineOp} {j : Fin quicMaxPending}
    (hused : (engine.pending j).inUse = true) (hfree : ((op.run engine).2.pending j).inUse = false) :
    Acked op (engine.pending j).connectionId (engine.pending j).packetNumber ∨ GivesUp engine op j := by
  by_cases htick : ∃ now nowRetransmit sendOk, op = .receiveTimeout now nowRetransmit sendOk
  · obtain ⟨now, nowRetransmit, sendOk, rfl⟩ := htick
    rcases timeout_slot engine now nowRetransmit sendOk j hused with hstill | hgives
    · rw [hstill] at hfree
      cases hfree
    · exact .inr hgives
  · have horphan : ¬ Orphan engine op := fun ⟨now, nowRetransmit, sendOk, hop, _⟩ =>
      htick ⟨now, nowRetransmit, sendOk, hop⟩
    rcases op_slot engine op j hused horphan with ⟨hslot, -⟩ | ⟨now, hslot, hcount⟩ | hacked | hends | hfailed
    · rw [hslot, hused] at hfree
      cases hfree
    · rw [hslot] at hfree
      exact .inr (.exhausted hcount (Nat.not_lt.mp (of_decide_eq_false hfree)))
    · exact .inl hacked
    · exact .inr (.ended hends)
    · exact .inr (.failed hfailed)

/-- **Retransmission stops for a reason.** Whatever the network loses, repeats and reorders, as long as packet numbers
are not reused: when a slot of a packet becomes free, a peer has received this packet, or has answered an INITIAL and
the packet has number 1, or the engine has given it up. -/
theorem pending_discharged (h : (net fun i => enginePeer (handler i) NoAck).Reachable s)
    (hstep : (net fun i => enginePeer (handler i) NoAck).step s e t) (hnumbered : Numbered t) {j : Fin quicMaxPending}
    (hused : ((s e.1).state.engine.pending j).inUse = true)
    (hfree : ((t e.1).state.engine.pending j).inUse = false) :
    ∃ op packet, op.received = e.2 ∧ (t e.1).state = (s e.1).state.after op ∧
      PendingFor (s e.1).state.engine j packet ∧
      ((∃ k, ∃ datagram ∈ (t k).taken, readPacket datagram = some packet) ∨
        packet.packetNumber = 1 ∧ (∃ k, HasInitial (t k).taken packet.connectionId) ∨
        GivesUp (s e.1).state.engine op j) := by
  have hreach : (net fun i => enginePeer (handler i) NoAck).Reachable t := by
    obtain ⟨s₀, es, hinit, hrun⟩ := h
    exact ⟨s₀, es ++ [e], hinit, hrun.snoc hstep⟩
  obtain ⟨packet, hfor, -, hmem⟩ := (acknowledging h e.1).pending j hused
  obtain ⟨-, ⟨out, ⟨op, hreceived, -, hstate, hout⟩, htaken, hsent⟩, -⟩ := hstep
  refine ⟨op, packet, hreceived, hstate, hfor, ?_⟩
  rw [hstate] at hfree
  rcases freed_slot hused hfree with ⟨datagram, addr, env, p, rfl, hread, hack, hid, hnumber⟩ | hgives
  · have hacktaken : datagram ∈ (t e.1).taken := by
      rw [htaken, ← hreceived]
      exact List.mem_append_right _ (List.mem_singleton_self _)
    obtain ⟨k, hearned⟩ := ack_earned hreach hacktaken hread hack
    rw [hid, hnumber, hfor.connectionId, hfor.packetNumber] at hearned
    rcases hearned with ⟨d, hd, q, hq, hdata, hqid, hqnumber⟩ | ⟨hpn, hinitial⟩
    · obtain ⟨i, hi⟩ := taken_sent hreach hd
      have hwire : packet.wire ∈ (t e.1).sent := by
        rw [hsent]
        exact List.mem_append_left _ hmem
      have hq' : q = packet :=
        hnumbered i e.1 d hi packet.wire hwire q packet hq (readPacket_wire hfor.size) hdata hfor.data hqid hqnumber
      exact .inl ⟨k, d, hd, hq'.symm ▸ hq⟩
    · exact .inr (.inl ⟨hpn, k, hinitial⟩)
  · exact .inr (.inr hgives)

/-! ### A packet and its acknowledgement -/

/-- The log after an operation. -/
def afterOp (l : Log Peer Bytes) (op : EngineOp) : Log Peer Bytes :=
  ⟨l.state.after op, l.taken ++ op.received.toList, l.sent ++ datagrams (op.run l.state.engine).1⟩

theorem net_step [DecidableEq ι] {C : QuicPacket → Prop} (s : ι → Log Peer Bytes) (i : ι) (op : EngineOp)
    (hfrom : ∀ m ∈ op.received, ∃ j, m ∈ (s j).sent)
    (hsends : ∀ packet now, op.tracked = some (packet, now) → C packet) :
    (net fun i => enginePeer (handler i) C).step s (i, op.received) (Function.update s i (afterOp (s i) op)) := by
  refine ⟨hfrom, ?_, fun j hj => Function.update_of_ne hj _ _⟩
  dsimp only
  rw [Function.update_self]
  exact ⟨_, ⟨op, rfl, hsends, rfl, rfl⟩, rfl, rfl⟩

end

def helloPacket : QuicPacket := ⟨quicFlagInitial ||| quicFlagHandshake, 7, 0, 0, 0, .empty⟩

def letterPacket : QuicPacket := sampleData 2 0

/-- Peer `true` opens a connection to peer `false` and sends a letter, which is received and acknowledged. -/
def letterOps : List (Bool × EngineOp) :=
  [(false, .setStreamDataHandler true), (true, .send helloPacket sampleAddr ⟨true, 0⟩),
    (false, .receive helloPacket.wire sampleAddr sampleEnv), (true, .send letterPacket sampleAddr ⟨true, 0⟩),
    (false, .receive letterPacket.wire sampleAddr sampleEnv)]

def letterAck : EngineOp := .receive (ackPacket letterPacket).wire sampleAddr sampleEnv

/-- The logs after the operations. -/
def exchanged (ops : List (Bool × EngineOp)) : Bool → Log Peer Bytes :=
  ops.foldl (fun s op => Function.update s op.1 (afterOp (s op.1) op.2)) fun _ => ⟨⟨quicEngineInit false, []⟩, [], []⟩

theorem exchanged_snoc {C : QuicPacket → Prop} {ops : List (Bool × EngineOp)}
    (h : (net fun _ : Bool => enginePeer false C).Reachable (exchanged ops)) (i : Bool) (op : EngineOp)
    (hfrom : ∀ m ∈ op.received, ∃ j, m ∈ (exchanged ops j).sent)
    (hsends : ∀ packet now, op.tracked = some (packet, now) → C packet) :
    (net fun _ : Bool => enginePeer false C).Reachable (exchanged (ops ++ [(i, op)])) := by
  obtain ⟨s₀, es, hinit, hrun⟩ := h
  refine ⟨s₀, es ++ [(i, op.received)], hinit, hrun.snoc ?_⟩
  have hlast : exchanged (ops ++ [(i, op)]) = Function.update (exchanged ops) i (afterOp (exchanged ops i) op) := by
    simp [exchanged]
  rw [hlast]
  exact net_step (exchanged ops) i op hfrom hsends

theorem letter_reachable {C : QuicPacket → Prop} (hhello : C helloPacket) (hletter : C letterPacket) :
    (net fun _ : Bool => enginePeer false C).Reachable (exchanged letterOps) := by
  have hnone {op : EngineOp} {s : Bool → Log Peer Bytes} (hop : op.received = none) :
      ∀ m ∈ op.received, ∃ j, m ∈ (s j).sent := by
    rw [hop]
    exact fun m hm => by cases hm
  have hsome {bytes : Bytes} {op : EngineOp} {s : Bool → Log Peer Bytes} (hop : op.received = some bytes)
      (hmem : bytes ∈ (s true).sent) : ∀ m ∈ op.received, ∃ j, m ∈ (s j).sent := by
    rw [hop]
    rintro m ⟨rfl⟩
    exact ⟨true, hmem⟩
  have h₀ : (net fun _ : Bool => enginePeer false C).Reachable (exchanged []) :=
    ⟨exchanged [], [], fun _ => ⟨rfl, rfl, rfl⟩, .nil⟩
  have h₁ := exchanged_snoc h₀ false (.setStreamDataHandler true) (hnone rfl) (fun _ _ h => by cases h)
  have h₂ := exchanged_snoc h₁ true (.send helloPacket sampleAddr ⟨true, 0⟩) (hnone rfl)
    (fun _ _ h => by cases h; exact hhello)
  have h₃ := exchanged_snoc h₂ false (.receive helloPacket.wire sampleAddr sampleEnv) (hsome rfl (by decide +kernel))
    (fun _ _ h => by cases h)
  have h₄ := exchanged_snoc h₃ true (.send letterPacket sampleAddr ⟨true, 0⟩) (hnone rfl)
    (fun _ _ h => by cases h; exact hletter)
  exact exchanged_snoc h₄ false (.receive letterPacket.wire sampleAddr sampleEnv) (hsome rfl (by decide +kernel))
    (fun _ _ h => by cases h)

/-- The acknowledgement frees the slot of the letter, which peer `false` has received. -/
theorem letter_discharged :
    let s := exchanged letterOps
    let t := Function.update s true (afterOp (s true) letterAck)
    ∃ op packet, op.received = some (ackPacket letterPacket).wire ∧ (t true).state = (s true).state.after op ∧
      PendingFor (s true).state.engine 0 packet ∧
      ((∃ k, ∃ datagram ∈ (t k).taken, readPacket datagram = some packet) ∨
        packet.packetNumber = 1 ∧ (∃ k, HasInitial (t k).taken packet.connectionId) ∨
        GivesUp (s true).state.engine op 0) := by
  intro s t
  have hreach : (net fun _ : Bool => enginePeer false NoAck).Reachable s :=
    letter_reachable (by decide : helloPacket.has quicFlagAck = false) (by decide : letterPacket.has quicFlagAck = false)
  have hstep : (net fun _ : Bool => enginePeer false NoAck).step s (true, letterAck.received) t :=
    net_step s true letterAck (fun m hm => ⟨false, by cases hm; decide +kernel⟩) (fun _ _ h => by cases h)
  have hmine : (t true).sent = [helloPacket.wire, letterPacket.wire] := by decide +kernel
  have hpeers : (t false).sent = [(handshakePacket 7).wire, (ackPacket letterPacket).wire] := by decide +kernel
  -- the letter is the only DATA packet on the wire
  have honly : ∀ i, ∀ m ∈ (t i).sent, ∀ p, readPacket m = some p → p.has quicFlagData = true → p = letterPacket := by
    have hread {q p : QuicPacket} (hsize : q.payload.bytes.length ≤ quicMaxPayload)
        (hp : readPacket q.wire = some p) : p = q := Option.some.inj (hp.symm.trans (readPacket_wire hsize))
    intro i m hm p hp hdata
    cases i with
    | true =>
        rw [hmine, List.mem_cons, List.mem_singleton] at hm
        rcases hm with rfl | rfl
        · rw [hread (by decide) hp] at hdata
          exact absurd hdata (by decide)
        · exact hread (by decide) hp
    | false =>
        rw [hpeers, List.mem_cons, List.mem_singleton] at hm
        rcases hm with rfl | rfl
        · rw [hread (by decide) hp] at hdata
          exact absurd hdata (by decide)
        · rw [hread (by decide) hp] at hdata
          exact absurd hdata (by decide)
  have hnumbered : Numbered t := fun i j m hm m' hm' p p' hp hp' hdata hdata' _ _ =>
    (honly i m hm p hp hdata).trans (honly j m' hm' p' hp' hdata').symm
  exact pending_discharged hreach hstep hnumbered (by decide +kernel) (by decide +kernel)

end OttQuic
