import OttQuic.Quic.Pending

/-!
# Sent packets

`tracked_run` follows one slot from the send on: it records the packet, with as many retries as the
retransmissions that went out, until it is discharged. What it takes for that are steps that meet
`Careful`: the send finds a free slot, since otherwise the packet is not recorded at all, and no tick
meets an orphan.
-/

namespace OttQuic

open SlotTable QuicEngine

/-! ### Following a sent packet -/

/-- The operation is a `quic_engine_send` of the DATA packet that returns 0. -/
def SendsData (engine : QuicEngine) (op : EngineOp) (packet : QuicPacket) : Prop :=
  packet.has quicFlagData = true ∧ ∃ addr, .sent packet addr ∈ (op.run engine).1

/-- The slot is in use for the packet and holds its serialized bytes. -/
def Recorded (engine : QuicEngine) (j : Fin quicMaxPending) (packet : QuicPacket) : Prop :=
  (engine.pending j).inUse = true ∧ (engine.pending j).connectionId = packet.connectionId ∧
    (engine.pending j).packetNumber = packet.packetNumber ∧
    (engine.pending j).buffer = quicHeader packet ++ packet.payload.bytes

/-- The table in which the operation records the DATA packet it has sent, if it sends one. -/
def EngineOp.tracksIn (engine : QuicEngine) : EngineOp → Option QuicEngine
  | send packet _ env =>
    if packet.has quicFlagData ∧ packet.payload.bytes.length ≤ quicMaxPayload ∧ env.ok then some engine
    else none
  | sendToConnection packet now env =>
    let start := engine.cleanupConnections now
    match start.findEntry packet.connectionId with
    | some i =>
      if (start.connections i).state = .connected ∧ packet.has quicFlagData ∧
          packet.payload.bytes.length ≤ quicMaxPayload ∧ env.ok then some start
      else none
    | none => none
  | _ => none

/-- A DATA packet that is sent finds a free pending slot, and no tick meets an orphan. -/
structure Careful (engine : QuicEngine) (op : EngineOp) : Prop where
  slot : ∀ e, op.tracksIn engine = some e → ∃ j, (e.pending j).inUse = false
  noOrphan : ¬ Orphan engine op

/-- The engine's operations. -/
def opSystem (handler : Bool) : Transition.System QuicEngine EngineOp :=
  .ofFun (quicEngineInit handler) fun engine op => (op.run engine).2

/-- The outputs of a run. -/
def outputs : QuicEngine → List EngineOp → List QuicOutput
  | _, [] => []
  | engine, op :: ops => (op.run engine).1 ++ outputs (op.run engine).2 ops

theorem outputs_snoc (engine : QuicEngine) (ops : List EngineOp) (op : EngineOp) :
    outputs engine (ops ++ [op]) = outputs engine ops ++ (op.run (runEngine engine ops)).1 := by
  induction ops generalizing engine with
  | nil => simp [outputs, runEngine]
  | cons o ops ih =>
      rw [List.cons_append, outputs, ih, outputs, List.append_assoc]
      rfl

theorem runEngine_snoc (engine : QuicEngine) (ops : List EngineOp) (op : EngineOp) :
    runEngine engine (ops ++ [op]) = (op.run (runEngine engine ops)).2 := by
  simp [runEngine]

/-- In the operations after the send the packet of slot `j` has been acknowledged, its connection has
been closed or has timed out, a retransmission failed, or `QUIC_MAX_RETRIES` have gone out. -/
def DischargedIn (engine : QuicEngine) (j : Fin quicMaxPending) (packet : QuicPacket)
    (ops : List EngineOp) : Prop :=
  (∃ before op after, ops = before ++ op :: after ∧
    (Acked op packet.connectionId packet.packetNumber ∨
      Ends (runEngine engine before) op packet.connectionId ∨
      resendFailed j (op.run (runEngine engine before)).1 = true)) ∨
  quicMaxRetries ≤ resentCount j (outputs engine ops)

/-- Every DATA packet reported as sent has a slot that records it in every later state up to the one in
which the packet is discharged. -/
def Controlled (handler : Bool) (ops : List EngineOp) : Prop :=
  ∀ before op after, ops = before ++ op :: after →
    ∀ packet, SendsData (runEngine (quicEngineInit handler) before) op packet →
      ∃ j, ∀ mid rest, after = mid ++ rest →
        Recorded (runEngine (quicEngineInit handler) (before ++ op :: mid)) j packet ∨
          DischargedIn (runEngine (quicEngineInit handler) (before ++ [op])) j packet mid

theorem DischargedIn.snoc {engine : QuicEngine} {j : Fin quicMaxPending} {packet : QuicPacket}
    {ops : List EngineOp} (h : DischargedIn engine j packet ops) (op : EngineOp) :
    DischargedIn engine j packet (ops ++ [op]) := by
  rcases h with ⟨before, o, after, rfl, hdone⟩ | hcount
  · exact Or.inl ⟨before, o, after ++ [op], by simp, hdone⟩
  · right
    rw [outputs_snoc, resentCount_append]
    exact Nat.le_add_right_of_le hcount

/-- The slot records the packet, and its retries are the retransmissions since the send. -/
structure Following (engine : QuicEngine) (j : Fin quicMaxPending) (packet : QuicPacket) (resent : Nat) :
    Prop where
  recorded : Recorded engine j packet
  retries : (engine.pending j).retries = resent
  few : resent < quicMaxRetries

theorem following_step {engine : QuicEngine} {j : Fin quicMaxPending} {packet : QuicPacket}
    {resent : Nat} (h : Following engine j packet resent) (op : EngineOp)
    (horphan : ¬ Orphan engine op) :
    Following (op.run engine).2 j packet (resent + resentCount j (op.run engine).1) ∨
      Discharged engine op j ∨ quicMaxRetries ≤ resent + resentCount j (op.run engine).1 := by
  obtain ⟨⟨hused, hcid, hpn, hbuffer⟩, hretries, hfew⟩ := h
  rcases op_slot engine op j hused horphan with ⟨hslot, hquiet, _⟩ | ⟨now, hslot, hcount⟩ | hdone
  · left
    rw [hquiet, Nat.add_zero]
    refine ⟨?_, by rw [hslot, hretries], hfew⟩
    unfold Recorded
    rw [hslot]
    exact ⟨hused, hcid, hpn, hbuffer⟩
  · rw [hcount]
    by_cases hmore : resent + 1 < quicMaxRetries
    · left
      refine ⟨?_, by rw [hslot, QuicPendingEntry.resend, hretries], hmore⟩
      unfold Recorded
      rw [hslot]
      refine ⟨?_, hcid, hpn, hbuffer⟩
      simp only [QuicPendingEntry.resend, hretries, hmore, decide_true]
    · exact Or.inr (Or.inr (Nat.not_lt.mp hmore))
  · exact Or.inr (Or.inl hdone)

theorem tracked_run {engine : QuicEngine} {j : Fin quicMaxPending} {packet : QuicPacket}
    (h : Following engine j packet 0) (ops : List EngineOp)
    (horphan : ∀ before op after, ops = before ++ op :: after →
      ¬ Orphan (runEngine engine before) op) :
    Following (runEngine engine ops) j packet (resentCount j (outputs engine ops)) ∨
      DischargedIn engine j packet ops := by
  induction ops using List.reverseRecOn with
  | nil => exact Or.inl h
  | append_singleton ops op ih =>
      have hprev := ih fun before o after hsplit =>
        horphan before o (after ++ [op]) (by rw [hsplit]; simp)
      rcases hprev with hfollow | hdone
      · rw [runEngine_snoc, outputs_snoc, resentCount_append]
        rcases following_step hfollow op (horphan ops op [] rfl) with hnext | hdone | hcount
        · exact Or.inl hnext
        · right
          obtain ⟨⟨_, hcid, hpn, _⟩, _, _⟩ := hfollow
          unfold Discharged at hdone
          rw [hcid, hpn] at hdone
          exact Or.inl ⟨ops, op, [], rfl, hdone⟩
        · right
          right
          rw [outputs_snoc, resentCount_append]
          exact hcount
      · exact Or.inr (hdone.snoc op)

/-! ### The send itself -/

theorem mem_send_out {engine : QuicEngine} {p packet : QuicPacket} {addr addr' : SockAddr} {env : SendEnv}
    (h : .sent packet addr' ∈ (engine.send p addr env).out) :
    packet = p ∧ (engine.send p addr env).rc = 0 := by
  rw [send_out] at h
  split_ifs at h with hrc
  · simp only [List.mem_singleton, QuicOutput.sent.injEq] at h
    exact ⟨h.1, hrc⟩
  · simp at h

theorem send_rc {engine : QuicEngine} {packet : QuicPacket} {addr : SockAddr} {env : SendEnv} :
    (engine.send packet addr env).rc = 0 ↔
      packet.payload.bytes.length ≤ quicMaxPayload ∧ env.ok = true := by
  unfold QuicEngine.send
  by_cases hlen : packet.payload.bytes.length ≤ quicMaxPayload
  · rw [quicPacketSerialize_some hlen]
    by_cases hok : env.ok = true <;> simp [hok, hlen]
  · have hnone : quicPacketSerialize packet quicMaxPacketSize = none := by
      rw [quicPacketSerialize, if_pos]
      rw [QuicPacket.length, Payload.length_toNat]
      omega
    rw [hnone]
    simp [hlen]

theorem send_following {engine : QuicEngine} {packet : QuicPacket} {addr : SockAddr} {env : SendEnv}
    (hdata : packet.has quicFlagData = true) (hrc : (engine.send packet addr env).rc = 0)
    (hfree : ∃ j, (engine.pending j).inUse = false) :
    ∃ j, Following (engine.send packet addr env).engine j packet 0 := by
  obtain ⟨hlen, hok⟩ := send_rc.mp hrc
  have hslot : ∃ j, findFree QuicPendingEntry.inUse engine.countSent.pending = some j := by
    cases hfind : findFree QuicPendingEntry.inUse engine.countSent.pending with
    | some j => exact ⟨j, rfl⟩
    | none =>
        obtain ⟨j, hj⟩ := hfree
        have hused : (engine.pending j).inUse = true := findFree_none.mp hfind j
        simp [hj] at hused
  obtain ⟨j, hj⟩ := hslot
  have hsize : (quicHeader packet ++ packet.payload.bytes).take quicMaxPacketSize
      = quicHeader packet ++ packet.payload.bytes := by
    apply List.take_of_length_le
    rw [List.length_append, quicHeader_length]
    exact Nat.add_le_add_left hlen quicHeaderSize
  have hnonempty : quicHeader packet ++ packet.payload.bytes ≠ [] := by
    simp [quicHeader]
  have hafter : (engine.send packet addr env).engine.pending j
      = ⟨true, packet.connectionId, packet.packetNumber, quicHeader packet ++ packet.payload.bytes,
          env.now, 0⟩ := by
    unfold QuicEngine.send
    rw [quicPacketSerialize_some hlen]
    simp only [hok, if_true]
    unfold trackPending
    rw [if_neg hnonempty]
    simp only [hdata, Bool.not_true, Bool.false_eq_true, if_false, hj]
    rw [setPending_self, hsize]
  refine ⟨j, ⟨?_, ?_, ?_, ?_⟩, ?_, by decide⟩ <;> rw [hafter]

/-- The receive loop sends the answer to a packet that made its connection, and the acknowledgement of a
packet. -/
theorem receive_sent_cases {engine : QuicEngine} {datagram : Bytes} {addr addr' : SockAddr} {env : ReceiveEnv}
    {p : QuicPacket} (h : .sent p addr' ∈ (engine.receive datagram addr env).1) :
    ∃ packet outcome, quicPacketDeserialize (datagram.take quicMaxPacketSize) = some packet ∧
      ((engine.beforeProcess packet).processPacket packet addr env.now env.nowAdd).1 = some outcome ∧
      (outcome.handshakeNeeded = true ∧ env.handshake.ok = true ∧ p = handshakePacket packet.connectionId ∨
        p = ackPacket packet) := by
  cases hparse : quicPacketDeserialize (datagram.take quicMaxPacketSize) with
  | none =>
      rw [receive, hparse] at h
      simp at h
  | some packet =>
      cases hout : ((engine.beforeProcess packet).processPacket packet addr env.now env.nowAdd).1 with
      | none =>
          rw [receive_refused hparse hout] at h
          simp at h
      | some outcome =>
          refine ⟨packet, outcome, rfl, hout, ?_⟩
          rw [receive_parts hparse hout] at h
          simp only [List.mem_append] at h
          rcases h with ((h | h) | h) | h
          · unfold notifyState emitState at h
            split at h
            · split_ifs at h <;> simp at h
            · simp at h
          · unfold answerHandshake at h
            split_ifs at h with hneeded
            · exact .inl ⟨hneeded, (send_rc.mp (mem_send_out h).2).2, (mem_send_out h).1⟩
            · simp at h
          · unfold deliverAndAck at h
            split_ifs at h
            · rcases List.mem_append.mp h with h | h
              · unfold deliver emitStreamData at h
                split at h
                · simp at h
                · dsimp only at h
                  split_ifs at h <;> simp at h
              · exact .inr (mem_send_out h).1
            · simp at h
          · split_ifs at h <;> simp at h

theorem receive_sent {engine : QuicEngine} {datagram : Bytes} {addr addr' : SockAddr} {env : ReceiveEnv}
    {p : QuicPacket} (h : .sent p addr' ∈ (engine.receive datagram addr env).1) :
    p.has quicFlagData = false := by
  obtain ⟨packet, -, -, -, ⟨-, -, rfl⟩ | rfl⟩ := receive_sent_cases h
  · exact handshakePacket_noData packet.connectionId
  · exact ackPacket_noData packet

theorem retransmit_sent {engine : QuicEngine} {now : Int} {sendOk : Fin quicMaxPending → Bool}
    {p : QuicPacket} {addr : SockAddr} : .sent p addr ∉ (engine.retransmitPending now sendOk).1 := by
  intro h
  obtain ⟨j, buffer, addr, heq⟩ | ⟨j, heq⟩ := QuicEngine.mem_retransmitPending h
  · cases heq
  · cases heq

/-- A packet is sent to a connection only if the connection is found CONNECTED after the clean-up. -/
theorem sendToConnection_sent {engine : QuicEngine} {packet p : QuicPacket} {addr : SockAddr}
    {now : Int} {env : SendEnv} (h : .sent packet addr ∈ (engine.sendToConnection p now env).out) :
    ∃ i, (engine.cleanupConnections now).findEntry p.connectionId = some i ∧
      ((engine.cleanupConnections now).connections i).state = .connected ∧
      engine.sendToConnection p now env
        = ((engine.cleanupConnections now).setConnection i
            { (engine.cleanupConnections now).connections i with lastSeen := now }).send p
              ((engine.cleanupConnections now).connections i).addr env := by
  unfold QuicEngine.sendToConnection QuicEngine.getConnection at h ⊢
  dsimp only at h ⊢
  cases hfind : (engine.cleanupConnections now).findEntry p.connectionId with
  | none => simp [hfind] at h
  | some i =>
      simp only [hfind] at h ⊢
      by_cases hconn : ((engine.cleanupConnections now).connections i).state = .connected
      · exact ⟨i, rfl, hconn, by rw [if_pos hconn]⟩
      · simp [hconn] at h

/-- **The send.** A careful operation that sends a DATA packet leaves it recorded. -/
theorem sendsData_following {engine : QuicEngine} {op : EngineOp} {packet : QuicPacket}
    (hcareful : Careful engine op) (h : SendsData engine op packet) :
    ∃ j, Following (op.run engine).2 j packet 0 := by
  obtain ⟨hdata, addr, hsent⟩ := h
  cases op with
  | receive datagram addr' env =>
      rw [receive_sent hsent] at hdata
      simp at hdata
  | receiveTimeout now nowRetransmit sendOk => exact absurd hsent retransmit_sent
  | send p addr' env =>
      obtain ⟨rfl, hrc⟩ := mem_send_out hsent
      refine send_following hdata hrc (hcareful.slot engine ?_)
      obtain ⟨hlen, hok⟩ := send_rc.mp hrc
      rw [EngineOp.tracksIn, if_pos ⟨hdata, hlen, hok⟩]
  | sendToConnection p now env =>
      obtain ⟨i, hfind, hconn, hsend⟩ := sendToConnection_sent hsent
      have hsent : .sent packet addr ∈ (engine.sendToConnection p now env).out := hsent
      show ∃ j, Following (engine.sendToConnection p now env).engine j packet 0
      rw [hsend] at hsent ⊢
      obtain ⟨rfl, hrc⟩ := mem_send_out hsent
      obtain ⟨hlen, hok⟩ := send_rc.mp hrc
      refine send_following hdata hrc (hcareful.slot (engine.cleanupConnections now) ?_)
      rw [EngineOp.tracksIn, hfind]
      exact if_pos ⟨hconn, hdata, hlen, hok⟩
  | getConnection cid now => simp [EngineOp.run] at hsent
  | closeConnection cid env =>
      have hsent : .sent packet addr ∈ (engine.closeConnection cid env).out := hsent
      unfold QuicEngine.closeConnection at hsent
      generalize engine.closeLocked cid = result at hsent
      obtain ⟨_ | addr', closed⟩ := result
      · simp at hsent
      · rcases List.mem_append.mp hsent with hsent | hsent
        · rw [(mem_send_out hsent).1, closePacket_noData] at hdata
          simp at hdata
        · unfold emitState at hsent
          split_ifs at hsent <;> simp at hsent
  | setStateHandler installed => simp [EngineOp.run] at hsent
  | setStreamDataHandler installed => simp [EngineOp.run] at hsent

/-- **Sent data is under retransmission control** in every run in which each DATA packet that is sent
finds a free pending slot and no tick meets a due packet of a connection that is not there. -/
theorem sent_data_controlled (handler : Bool) (ops : List EngineOp) (engine : QuicEngine)
    (h : ((opSystem handler).restrict Careful).Run (quicEngineInit handler) ops engine) :
    Controlled handler ops := by
  obtain ⟨_, hcareful⟩ := Transition.System.run_restrict_ofFun.mp h
  intro before op after hsplit packet hsends
  obtain ⟨j, hfollow⟩ := sendsData_following (hcareful before op after hsplit) hsends
  refine ⟨j, fun mid rest hafter => ?_⟩
  have hjoin : ∀ more, runEngine (quicEngineInit handler) (before ++ op :: more)
      = runEngine (runEngine (quicEngineInit handler) (before ++ [op])) more := by
    intro more
    simp [runEngine]
  have hstart : Following (runEngine (quicEngineInit handler) (before ++ [op])) j packet 0 := by
    rw [runEngine_snoc]
    exact hfollow
  have horphan : ∀ b o a, mid = b ++ o :: a →
      ¬ Orphan (runEngine (runEngine (quicEngineInit handler) (before ++ [op])) b) o := by
    intro b o a hmid
    have := (hcareful (before ++ op :: b) o (a ++ rest) (by rw [hsplit, hafter, hmid]; simp)).noOrphan
    rw [← hjoin]
    exact this
  rw [hjoin]
  exact (tracked_run hstart mid horphan).imp_left Following.recorded

/-! ### Sixty-five packets -/

/-- An empty DATA packet of connection 7. -/
def samplePending (packetNumber : UInt32) : QuicPacket :=
  ⟨quicFlagData, 7, packetNumber, 0, 0, .empty⟩

/-- The packet is sent to the connection's address, and `sendto` takes it. -/
def sampleSend (packetNumber : UInt32) : EngineOp :=
  .send (samplePending packetNumber) sampleAddr ⟨true, 0⟩

theorem samplePending_data (packetNumber : UInt32) :
    (samplePending packetNumber).has quicFlagData = true :=
  show (quicFlagData &&& quicFlagData != 0) = true by decide

def sampleSends (n : Nat) : List EngineOp :=
  (List.range n).map fun k => sampleSend (UInt32.ofNat (k + 1))

/-- The first `n` slots hold the packets `1 .. n`, the others are free. -/
def Filled (n : Nat) (engine : QuicEngine) : Prop :=
  ∀ k : Fin quicMaxPending,
    (k.val < n → (engine.pending k).inUse = true ∧
      (engine.pending k).packetNumber = UInt32.ofNat (k.val + 1)) ∧
    (n ≤ k.val → (engine.pending k).inUse = false)

theorem filled_step {n : Nat} {engine : QuicEngine} (h : Filled n engine) (hn : n < quicMaxPending) :
    Filled (n + 1) ((sampleSend (UInt32.ofNat (n + 1))).run engine).2 := by
  have hfree : findFree QuicPendingEntry.inUse engine.countSent.pending = some ⟨n, hn⟩ := by
    refine findSlot_first ?_ fun j hj => ?_
    · show (!(engine.pending ⟨n, hn⟩).inUse) = true
      rw [(h ⟨n, hn⟩).2 le_rfl]
      rfl
    · show (!(engine.pending j).inUse) = false
      rw [((h j).1 hj).1]
      rfl
  have hsend : ((sampleSend (UInt32.ofNat (n + 1))).run engine).2
      = engine.countSent.trackPending (samplePending (UInt32.ofNat (n + 1)))
          (quicHeader (samplePending (UInt32.ofNat (n + 1))) ++ []) 0 := rfl
  rw [hsend, trackPending, if_neg (by simp [quicHeader]), if_neg (by simp [samplePending_data]), hfree]
  intro k
  dsimp only
  by_cases hk : k = ⟨n, hn⟩
  · rw [hk, setPending_self]
    exact ⟨fun _ => ⟨rfl, rfl⟩, fun hle => by simp only at hle; omega⟩
  · rw [setPending_ne hk]
    have hne : k.val ≠ n := fun heq => hk (Fin.ext heq)
    exact ⟨fun hlt => (h k).1 (by omega), fun hle => (h k).2 (by omega)⟩

theorem filled_sends {engine : QuicEngine} (h : Filled 0 engine) (n : Nat) (hn : n ≤ quicMaxPending) :
    Filled n (runEngine engine (sampleSends n)) := by
  induction n with
  | zero => exact h
  | succ n ih =>
      have hlast : sampleSends (n + 1) = sampleSends n ++ [sampleSend (UInt32.ofNat (n + 1))] := by
        simp [sampleSends, List.range_succ]
      rw [hlast, runEngine_snoc]
      exact filled_step (ih (by omega)) hn

theorem filled_full {engine : QuicEngine} (h : Filled quicMaxPending engine) (packetNumber : UInt32)
    (j : Fin quicMaxPending) :
    ((sampleSend packetNumber).run engine).2.pending j = engine.pending j :=
  send_pending_used engine (samplePending packetNumber) sampleAddr j ⟨true, 0⟩ ((h j).1 j.isLt).1

/-- With 64 packets in flight the 65th is reported as sent and recorded nowhere. -/
theorem sent_data_uncontrolled :
    ¬ Controlled false (sampleOps ++ sampleSends 64 ++ [sampleSend 65]) := by
  intro h
  have hempty : Filled 0 sampleConnection := by
    have hfree : ∀ k, (sampleConnection.pending k).inUse = false := by decide +kernel
    exact fun k => ⟨fun hlt => absurd hlt (Nat.not_lt_zero _), fun _ => hfree k⟩
  have hfull := filled_sends hempty 64 le_rfl
  have hbefore : runEngine (quicEngineInit false) (sampleOps ++ sampleSends 64)
      = runEngine sampleConnection (sampleSends 64) := by
    simp [runEngine, sampleConnection]
  rw [← hbefore] at hfull
  have hsent : SendsData (runEngine (quicEngineInit false) (sampleOps ++ sampleSends 64)) (sampleSend 65)
      (samplePending 65) := ⟨samplePending_data 65, sampleAddr, List.mem_singleton.mpr rfl⟩
  obtain ⟨j, hj⟩ := h (sampleOps ++ sampleSends 64) (sampleSend 65) [] rfl _ hsent
  rcases hj [] [] rfl with hrec | ⟨before, o, after, hsplit, _⟩ | hcount
  · have hpn := hrec.2.2.1
    rw [runEngine_snoc, filled_full hfull, ((hfull j).1 j.isLt).2] at hpn
    have hlt : j.val < 64 := j.isLt
    have hnat := congrArg UInt32.toNat hpn
    rw [UInt32.toNat_ofNat', show (samplePending 65).packetNumber.toNat = 65 from rfl] at hnat
    omega
  · simp at hsplit
  · simp [outputs, resentCount] at hcount

theorem not_orphan {engine : QuicEngine} {op : EngineOp}
    (hop : ∀ now nowRetransmit sendOk, op ≠ .receiveTimeout now nowRetransmit sendOk) :
    ¬ Orphan engine op := by
  intro h
  obtain ⟨now, nowRetransmit, sendOk, heq, _⟩ := h
  exact hop now nowRetransmit sendOk heq

theorem careful_of_untracked {engine : QuicEngine} {op : EngineOp} (h : op.tracksIn engine = none)
    (hop : ∀ now nowRetransmit sendOk, op ≠ .receiveTimeout now nowRetransmit sendOk) :
    Careful engine op :=
  ⟨fun e he => by simp [h] at he, not_orphan hop⟩

/-- A packet that is sent to an open connection and never acknowledged is under control. -/
theorem sent_data_controlled_one : Controlled false (sampleOps ++ [sampleSend 1]) := by
  refine sent_data_controlled false _ _ (Transition.System.run_append_iff.mpr
    ⟨sampleConnection, Transition.System.run_restrict_ofFun.mpr ⟨rfl, fun before op after hsplit => ?_⟩,
      Transition.System.run_cons_iff.mpr ⟨_, ⟨?_, rfl⟩, .nil⟩⟩)
  · -- neither opening operation is a tick or sends DATA
    have hop : op ∈ sampleOps := by rw [hsplit]; simp
    simp only [sampleOps, sampleReceive, List.mem_cons, List.not_mem_nil, or_false] at hop
    rcases hop with rfl | rfl
    · exact careful_of_untracked rfl fun _ _ _ h => by simp at h
    · exact careful_of_untracked rfl fun _ _ _ h => by simp at h
  · refine ⟨fun e he => ?_, not_orphan fun _ _ _ h => by simp [sampleSend] at h⟩
    have hsame : e = sampleConnection := by
      rw [sampleSend, EngineOp.tracksIn, if_pos (by decide)] at he
      exact (Option.some.inj he).symm
    exact ⟨0, by rw [hsame]; decide +kernel⟩

end OttQuic
