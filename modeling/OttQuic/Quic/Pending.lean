import OttQuic.Quic.Receive

/-!
# The pending table under one operation

A DATA packet that `quic_engine_send` reports as sent goes to the first free pending slot. `op_slot` says
everything one operation can do to a slot in use: leave it, retransmit it, or discharge it, that is, free
it because its packet was acknowledged, its connection ended or a retransmission failed. The one further
way a slot is freed is a retransmission tick that finds no connection for it (`Orphan`).
-/

namespace OttQuic

open SlotTable QuicEngine

/-! ### Retransmissions of a slot -/

/-- The outputs of the retransmissions of slot `j` that took the packet. -/
def resentCount (j : Fin quicMaxPending) (out : List QuicOutput) : Nat :=
  out.countP fun
    | .resent slot _ _ => slot = j
    | _ => false

/-- A retransmission of slot `j` failed. -/
def resendFailed (j : Fin quicMaxPending) (out : List QuicOutput) : Bool :=
  out.any fun
    | .resendFailed slot => slot = j
    | _ => false

theorem resentCount_append (j : Fin quicMaxPending) (out out' : List QuicOutput) :
    resentCount j (out ++ out') = resentCount j out + resentCount j out' :=
  List.countP_append

theorem resendFailed_append (j : Fin quicMaxPending) (out out' : List QuicOutput) :
    resendFailed j (out ++ out') = (resendFailed j out || resendFailed j out') :=
  List.any_append

theorem setPending_self (engine : QuicEngine) (i : Fin quicMaxPending) (entry : QuicPendingEntry) :
    (engine.setPending i entry).pending i = entry := by
  simp [setPending]

theorem setPending_ne {i j : Fin quicMaxPending} (h : j ≠ i) (engine : QuicEngine)
    (entry : QuicPendingEntry) : (engine.setPending i entry).pending j = engine.pending j := by
  simp [setPending, h]

/-- The slot after a retransmission that took the packet. -/
def QuicPendingEntry.resend (entry : QuicPendingEntry) (now : Int) : QuicPendingEntry :=
  { entry with
    lastSent := now, retries := entry.retries + 1,
    inUse := decide (entry.retries + 1 < quicMaxRetries) }

/-- The packet of the slot is due for retransmission. -/
def QuicPendingEntry.Due (entry : QuicPendingEntry) (now : Int) : Prop :=
  entry.inUse = true ∧ quicRetransTimeout ≤ now - entry.lastSent

instance (entry : QuicPendingEntry) (now : Int) : Decidable (entry.Due now) :=
  inferInstanceAs (Decidable (_ ∧ _))

/-- What a tick can change of slot `j`, and the connections it looks at. -/
structure SlotView where
  connections : Fin quicMaxConnections → QuicConnectionEntry
  entry : QuicPendingEntry
  resent : Nat
  failed : Bool

def slotView (j : Fin quicMaxPending) (s : List QuicOutput × QuicEngine) : SlotView :=
  ⟨s.2.connections, s.2.pending j, resentCount j s.1, resendFailed j s.1⟩

/-- A tick on the view of a slot; `ok` is whether its `sendto` takes the packet. -/
def SlotView.tick (now : Int) (ok : Bool) (v : SlotView) : SlotView :=
  if v.entry.Due now then
    match findKey QuicConnectionEntry.inUse QuicConnectionEntry.connectionId v.connections
        v.entry.connectionId with
    | none => { v with entry := { v.entry with inUse := false } }
    | some _ =>
      if ok then { v with entry := v.entry.resend now, resent := v.resent + 1 }
      else { v with entry := { v.entry with inUse := false }, failed := true }
  else v

theorem slotView_other (now : Int) (sendOk : Fin quicMaxPending → Bool) {i j : Fin quicMaxPending}
    (h : i ≠ j) (s : List QuicOutput × QuicEngine) :
    slotView j (retransmitSlot now sendOk s i) = slotView j s := by
  have hpending (entry : QuicPendingEntry) : (s.2.setPending i entry).pending j = s.2.pending j :=
    setPending_ne (Ne.symm h) s.2 entry
  unfold slotView
  obtain heq | ⟨entry, heq⟩ | ⟨buffer, addr, entry, sent, heq⟩ | ⟨entry, heq⟩ := retransmitSlot_cases now sendOk s i
  · rw [heq]
  · rw [heq]
    dsimp only
    rw [hpending]
    rfl
  · rw [heq]
    dsimp only
    rw [hpending, resentCount_append, resendFailed_append]
    simp [resentCount, resendFailed, h, setPending]
  · rw [heq]
    dsimp only
    rw [hpending, resentCount_append, resendFailed_append]
    simp [resentCount, resendFailed, h, setPending]

theorem slotView_self (now : Int) (sendOk : Fin quicMaxPending → Bool) (j : Fin quicMaxPending)
    (s : List QuicOutput × QuicEngine) :
    slotView j (retransmitSlot now sendOk s j) = (slotView j s).tick now (sendOk j) := by
  unfold retransmitSlot SlotView.tick
  by_cases hused : (s.2.pending j).inUse = true
  · by_cases hdue : now - (s.2.pending j).lastSent < quicRetransTimeout
    · have hnot : ¬ (slotView j s).entry.Due now := fun h => by
        have := h.2
        simp only [slotView] at this
        omega
      rw [if_neg hnot]
      simp [hused, hdue]
    · have hdue' : (slotView j s).entry.Due now := ⟨hused, by simp only [slotView]; omega⟩
      rw [if_pos hdue']
      have hfind : findKey QuicConnectionEntry.inUse QuicConnectionEntry.connectionId
          (slotView j s).connections (slotView j s).entry.connectionId
            = s.2.findEntry (s.2.pending j).connectionId := rfl
      rw [hfind]
      simp only [hused, Bool.not_true, Bool.false_eq_true, if_false, hdue]
      cases s.2.findEntry (s.2.pending j).connectionId with
      | none =>
          unfold slotView
          dsimp only
          rw [setPending_self]
          rfl
      | some i =>
          cases hok : sendOk j with
          | true =>
              unfold slotView
              simp only [if_true, resentCount_append, resendFailed_append]
              simp [resentCount, resendFailed, setPending, QuicPendingEntry.resend]
          | false =>
              unfold slotView
              simp only [Bool.false_eq_true, if_false, resentCount_append, resendFailed_append]
              simp [resentCount, resendFailed, setPending]
  · have hnot : ¬ (slotView j s).entry.Due now := fun h => hused h.1
    rw [if_neg hnot]
    simp [hused]

/-- **A tick, one slot.** -/
theorem retransmit_slotView (engine : QuicEngine) (now : Int) (sendOk : Fin quicMaxPending → Bool)
    (j : Fin quicMaxPending) :
    slotView j (engine.retransmitPending now sendOk)
      = (slotView j ([], engine)).tick now (sendOk j) :=
  forSlots_observe j (slotView j) (SlotView.tick now (sendOk j))
    (fun s _ h => slotView_other now sendOk h s) (slotView_self now sendOk j)

/-! ### What frees a slot -/

/-- The operation receives an ACK with the connection id and packet number. -/
def Acked (op : EngineOp) (cid : UInt64) (pn : UInt32) : Prop :=
  ∃ datagram addr env packet, op = .receive datagram addr env ∧
    quicPacketDeserialize (datagram.take quicMaxPacketSize) = some packet ∧
    packet.has quicFlagAck = true ∧ packet.connectionId = cid ∧ packet.packetNumber = pn

/-- The clock of the clean-up with which the operation begins, if there is one. -/
def EngineOp.cleanupTime : EngineOp → Option Int
  | receive datagram _ env =>
    if (quicPacketDeserialize (datagram.take quicMaxPacketSize)).isSome then some env.now else none
  | receiveTimeout now _ _ => some now
  | sendToConnection _ now _ => some now
  | getConnection _ now => some now
  | _ => none

/-- The operation finds the connection timed out, closes it, or receives a CLOSE that is accepted. -/
def Ends (engine : QuicEngine) (op : EngineOp) (cid : UInt64) : Prop :=
  (∃ now i, op.cleanupTime = some now ∧ (engine.connections i).TimedOut now ∧
    (engine.connections i).connectionId = cid) ∨
  (∃ env, op = .closeConnection cid env ∧ (engine.findEntry cid).isSome = true) ∨
  (∃ datagram addr env packet, op = .receive datagram addr env ∧
    quicPacketDeserialize (datagram.take quicMaxPacketSize) = some packet ∧
    packet.has quicFlagClose = true ∧ packet.connectionId = cid ∧
    ((engine.cleanupConnections env.now).packetTarget packet addr env.now env.nowAdd).isSome = true)

/-- The operation is a tick that meets a due packet whose connection id has no entry in use. -/
def Orphan (engine : QuicEngine) (op : EngineOp) : Prop :=
  ∃ now nowRetransmit sendOk, op = .receiveTimeout now nowRetransmit sendOk ∧
    ∃ j, ((engine.cleanupConnections now).pending j).Due nowRetransmit ∧
      (engine.cleanupConnections now).findEntry
        ((engine.cleanupConnections now).pending j).connectionId = none

/-! ### One operation, one slot -/

theorem handshakePacket_noData (cid : UInt64) : (handshakePacket cid).has quicFlagData = false :=
  show ((quicFlagHandshake ||| quicFlagAck) &&& quicFlagData != 0) = false by decide

theorem ackPacket_noData (packet : QuicPacket) : (ackPacket packet).has quicFlagData = false :=
  show (quicFlagAck &&& quicFlagData != 0) = false by decide

theorem closePacket_noData (cid : UInt64) : (closePacket cid).has quicFlagData = false :=
  show (quicFlagClose &&& quicFlagData != 0) = false by decide

/-- The outputs hold no retransmission of the slot. -/
def Quiet (j : Fin quicMaxPending) (out : List QuicOutput) : Prop :=
  resentCount j out = 0 ∧ resendFailed j out = false

theorem Quiet.nil (j : Fin quicMaxPending) : Quiet j [] := ⟨rfl, rfl⟩

theorem Quiet.append {j : Fin quicMaxPending} {out out' : List QuicOutput} (h : Quiet j out)
    (h' : Quiet j out') : Quiet j (out ++ out') :=
  ⟨by rw [resentCount_append, h.1, h'.1], by rw [resendFailed_append, h.2, h'.2]; rfl⟩

section Slot

variable (engine : QuicEngine) (packet : QuicPacket) (addr : SockAddr) (j : Fin quicMaxPending)

theorem send_quiet (env : SendEnv) : Quiet j (engine.send packet addr env).out := by
  rw [send_out]
  split_ifs
  · exact ⟨rfl, rfl⟩
  · exact .nil j

theorem receive_quiet (datagram : Bytes) (env : ReceiveEnv) :
    Quiet j (engine.receive datagram addr env).1 := by
  cases hparse : quicPacketDeserialize (datagram.take quicMaxPacketSize) with
  | none =>
      rw [receive, hparse]
      exact .nil j
  | some packet =>
      cases hout : ((engine.beforeProcess packet).processPacket packet addr env.now env.nowAdd).1 with
      | none =>
          rw [receive_refused hparse hout]
          exact .nil j
      | some outcome =>
          rw [receive_parts hparse hout]
          refine Quiet.append (.append (.append ?_ ?_) ?_) ?_
          · unfold notifyState emitState
            split
            · split_ifs <;> exact ⟨rfl, rfl⟩
            · exact .nil j
          · unfold answerHandshake
            split_ifs
            · exact send_quiet _ _ _ _ _
            · exact .nil j
          · unfold deliverAndAck
            split_ifs
            · refine Quiet.append ?_ (send_quiet _ _ _ _ _)
              unfold deliver emitStreamData
              split
              · exact .nil j
              · dsimp only
                split_ifs <;> exact ⟨rfl, rfl⟩
            · exact .nil j
          · split_ifs <;> exact ⟨rfl, rfl⟩

theorem trackPending_used (buffer : Bytes) (now : Int) (hused : (engine.pending j).inUse = true) :
    (engine.trackPending packet buffer now).pending j = engine.pending j := by
  unfold trackPending
  split_ifs
  · rfl
  · rfl
  · cases hfree : findFree QuicPendingEntry.inUse engine.pending with
    | none => rfl
    | some i =>
        apply setPending_ne
        rintro rfl
        simp [findFree_some hfree] at hused

theorem send_pending_used (env : SendEnv) (hused : (engine.pending j).inUse = true) :
    (engine.send packet addr env).engine.pending j = engine.pending j := by
  unfold QuicEngine.send
  cases quicPacketSerialize packet quicMaxPacketSize with
  | none => rfl
  | some buffer =>
      dsimp only
      split_ifs
      · exact trackPending_used _ _ _ _ _ hused
      · rfl

theorem send_pending_noData (env : SendEnv) (hdata : packet.has quicFlagData = false) :
    (engine.send packet addr env).engine.pending = engine.pending := by
  unfold QuicEngine.send
  cases quicPacketSerialize packet quicMaxPacketSize with
  | none => rfl
  | some buffer =>
      dsimp only
      split_ifs
      · unfold trackPending
        simp only [hdata, Bool.not_false, if_true]
        split_ifs <;> rfl
      · rfl

theorem ackPending_slot (cid : UInt64) (pn : UInt32) :
    (engine.ackPending cid pn).pending j = engine.pending j ∨
      (engine.pending j).connectionId = cid ∧ (engine.pending j).packetNumber = pn := by
  unfold ackPending
  split
  · rename_i i hfind
    by_cases hj : j = i
    · subst hj
      right
      have hkey := findSlot_some hfind
      simp only [Bool.and_eq_true, decide_eq_true_eq] at hkey
      exact ⟨hkey.1.2, hkey.2⟩
    · exact Or.inl (setPending_ne hj _ _)
  · exact Or.inl rfl

theorem onData_pending (i : Fin quicMaxConnections) (call : StreamCall) :
    (engine.onData i call).2.pending = engine.pending := rfl

theorem deliver_pending (alloc : SegmentAlloc) :
    (engine.deliver packet alloc).2.pending = engine.pending := by
  unfold deliver
  split
  · rfl
  · dsimp only
    split_ifs <;> exact onData_pending _ _ _

theorem receive_pending {datagram : Bytes} {packet : QuicPacket} (env : ReceiveEnv)
    (hparse : quicPacketDeserialize (datagram.take quicMaxPacketSize) = some packet) :
    (engine.receive datagram addr env).2.pending
      = ((engine.beforeProcess packet).processPacket packet addr env.now env.nowAdd).2.pending := by
  cases hout : ((engine.beforeProcess packet).processPacket packet addr env.now env.nowAdd).1 with
  | none => rw [receive_refused hparse hout]
  | some outcome =>
      rw [receive_parts hparse hout]
      dsimp only
      set processed := ((engine.beforeProcess packet).processPacket packet addr env.now env.nowAdd).2
      have hanswer : (processed.answerHandshake packet addr env outcome).engine.pending
          = processed.pending := by
        unfold answerHandshake
        split_ifs
        · exact send_pending_noData _ _ _ _ (handshakePacket_noData _)
        · rfl
      rw [← hanswer]
      unfold deliverAndAck
      split_ifs
      · dsimp only
        rw [send_pending_noData _ _ _ _ (ackPacket_noData _), deliver_pending]
      · rfl

theorem processPacket_slot {engine₀ : QuicEngine} (hconn : engine.connections = engine₀.connections)
    (now nowAdd : Int) :
    (engine.processPacket packet addr now nowAdd).2.pending j = engine.pending j ∨
      (∃ i, (engine₀.connections i).TimedOut now ∧
        (engine₀.connections i).connectionId = (engine.pending j).connectionId) ∨
      packet.has quicFlagClose = true ∧ packet.connectionId = (engine.pending j).connectionId ∧
        ((engine₀.cleanupConnections now).packetTarget packet addr now nowAdd).isSome = true := by
  rcases engine.cleanup_pending now j with hkept | ⟨_, i, hout, hid⟩
  · have hspec := (engine.processPacket_spec packet addr now nowAdd).2
    rw [packetTarget_congr (cleanup_connections_congr hconn now)] at hspec
    cases htarget : (engine₀.cleanupConnections now).packetTarget packet addr now nowAdd with
    | none =>
        rw [htarget] at hspec
        dsimp only at hspec
        rw [hspec]
        exact Or.inl hkept
    | some target =>
        rw [htarget] at hspec
        rw [hspec.2.1]
        by_cases hclose : packet.has quicFlagClose = true
        · rw [if_pos hclose, clearPending_pending, hkept]
          by_cases hkey : (engine.pending j).inUse = true ∧
              (engine.pending j).connectionId = packet.connectionId
          · exact Or.inr (Or.inr ⟨hclose, hkey.2.symm, rfl⟩)
          · rw [if_neg hkey]
            exact Or.inl rfl
        · rw [if_neg hclose]
          exact Or.inl hkept
  · rw [hconn] at hout hid
    exact Or.inr (Or.inl ⟨i, hout, hid⟩)

theorem cleanup_slot (op : EngineOp) {now : Int} (hop : op.cleanupTime = some now) :
    (engine.cleanupConnections now).pending j = engine.pending j ∨
      Ends engine op (engine.pending j).connectionId := by
  rcases engine.cleanup_pending now j with hkept | ⟨_, i, hout, hid⟩
  · exact Or.inl hkept
  · exact Or.inr (Or.inl ⟨now, i, hop, hout, hid⟩)

theorem getConnection_pending (cid : UInt64) (now : Int) :
    (engine.getConnection cid now).2.pending = (engine.cleanupConnections now).pending := by
  unfold QuicEngine.getConnection
  dsimp only
  split
  · rfl
  · split_ifs <;> rfl

end Slot

/-- The slot as an operation leaves it if it neither retransmits nor frees it. -/
def SlotKept (engine : QuicEngine) (op : EngineOp) (j : Fin quicMaxPending) : Prop :=
  (op.run engine).2.pending j = engine.pending j ∧ Quiet j (op.run engine).1

/-- The operation retransmits the packet of the slot. -/
def SlotResent (engine : QuicEngine) (op : EngineOp) (j : Fin quicMaxPending) : Prop :=
  ∃ now, (op.run engine).2.pending j = (engine.pending j).resend now ∧
    resentCount j (op.run engine).1 = 1

/-- The operation acknowledges the packet of the slot, ends its connection, or fails to retransmit it. -/
def Discharged (engine : QuicEngine) (op : EngineOp) (j : Fin quicMaxPending) : Prop :=
  Acked op (engine.pending j).connectionId (engine.pending j).packetNumber ∨
    Ends engine op (engine.pending j).connectionId ∨ resendFailed j (op.run engine).1 = true

theorem receive_slot (engine : QuicEngine) (datagram : Bytes) (addr : SockAddr) (env : ReceiveEnv)
    (j : Fin quicMaxPending) :
    SlotKept engine (.receive datagram addr env) j ∨ Discharged engine (.receive datagram addr env) j := by
  have hquiet := receive_quiet engine addr j datagram env
  cases hparse : quicPacketDeserialize (datagram.take quicMaxPacketSize) with
  | none =>
      left
      refine ⟨?_, hquiet⟩
      show (engine.receive datagram addr env).2.pending j = _
      rw [receive, hparse]
      rfl
  | some packet =>
      have hpending := congrFun (receive_pending engine addr env hparse) j
      by_cases hack : packet.has quicFlagAck = true ∧
          (engine.pending j).connectionId = packet.connectionId ∧
          (engine.pending j).packetNumber = packet.packetNumber
      · exact Or.inr (Or.inl ⟨datagram, addr, env, packet, rfl, hparse, hack.1, hack.2.1.symm,
          hack.2.2.symm⟩)
      · have hbefore : (engine.beforeProcess packet).pending j = engine.pending j := by
          unfold QuicEngine.beforeProcess
          split_ifs with hflag
          · rcases ackPending_slot engine.countReceived j packet.connectionId packet.packetNumber
              with hkept | hkey
            · exact hkept
            · exact absurd ⟨hflag, hkey.1, hkey.2⟩ hack
          · rfl
        have hconn := beforeProcess_connections engine packet
        have hslot := processPacket_slot (engine.beforeProcess packet) packet addr j hconn env.now
          env.nowAdd
        rw [hbefore] at hslot
        rcases hslot with hkept | ⟨i, hout, hid⟩ | ⟨hclose, hid, htarget⟩
        · exact Or.inl ⟨hpending.trans hkept, hquiet⟩
        · refine Or.inr (Or.inr (Or.inl (Or.inl ⟨env.now, i, ?_, hout, hid⟩)))
          simp [EngineOp.cleanupTime, hparse]
        · exact Or.inr (Or.inr (Or.inl (Or.inr (Or.inr
            ⟨datagram, addr, env, packet, rfl, hparse, hclose, hid, htarget⟩))))

theorem receiveTimeout_slot (engine : QuicEngine) (now nowRetransmit : Int)
    (sendOk : Fin quicMaxPending → Bool) (j : Fin quicMaxPending)
    (horphan : ¬ Orphan engine (.receiveTimeout now nowRetransmit sendOk)) :
    SlotKept engine (.receiveTimeout now nowRetransmit sendOk) j ∨
      SlotResent engine (.receiveTimeout now nowRetransmit sendOk) j ∨
      Discharged engine (.receiveTimeout now nowRetransmit sendOk) j := by
  rcases cleanup_slot engine j (.receiveTimeout now nowRetransmit sendOk) rfl with hkept | hends
  · set start := engine.cleanupConnections now with hstart
    have hview := retransmit_slotView start nowRetransmit sendOk j
    have hentry := congrArg SlotView.entry hview
    have hcount := congrArg SlotView.resent hview
    have hfailed := congrArg SlotView.failed hview
    have hv : slotView j ([], start) = ⟨start.connections, engine.pending j, 0, false⟩ := by
      rw [← hkept]
      rfl
    rw [hv] at hentry hcount hfailed
    unfold SlotView.tick at hentry hcount hfailed
    by_cases hdue : (engine.pending j).Due nowRetransmit
    · rw [if_pos hdue] at hentry hcount hfailed
      cases hfind : start.findEntry (engine.pending j).connectionId with
      | none =>
          exact absurd ⟨now, nowRetransmit, sendOk, rfl, j, by rw [← hstart, hkept]; exact hdue,
            by rw [← hstart, hkept]; exact hfind⟩ horphan
      | some i =>
          unfold findEntry at hfind
          simp only [hfind] at hentry hcount hfailed
          cases hok : sendOk j with
          | true =>
              simp only [hok, if_true] at hentry hcount hfailed
              exact Or.inr (Or.inl ⟨nowRetransmit, hentry, hcount⟩)
          | false =>
              simp only [hok, Bool.false_eq_true, if_false] at hentry hcount hfailed
              exact Or.inr (Or.inr (Or.inr (Or.inr hfailed)))
    · rw [if_neg hdue] at hentry hcount hfailed
      exact Or.inl ⟨hentry, hcount, hfailed⟩
  · exact Or.inr (Or.inr (Or.inr (Or.inl hends)))

/-- **One operation, one slot in use.** -/
theorem op_slot (engine : QuicEngine) (op : EngineOp) (j : Fin quicMaxPending)
    (hused : (engine.pending j).inUse = true) (horphan : ¬ Orphan engine op) :
    SlotKept engine op j ∨ SlotResent engine op j ∨ Discharged engine op j := by
  cases op with
  | receive datagram addr env => exact (receive_slot engine datagram addr env j).imp_right Or.inr
  | receiveTimeout now nowRetransmit sendOk =>
      exact receiveTimeout_slot engine now nowRetransmit sendOk j horphan
  | send packet addr env =>
      exact Or.inl ⟨send_pending_used _ _ _ _ _ hused, send_quiet _ _ _ _ _⟩
  | sendToConnection packet now env =>
      rcases cleanup_slot engine j (.sendToConnection packet now env) rfl with hkept | hends
      · left
        have hget := getConnection_pending engine packet.connectionId now
        show (engine.sendToConnection packet now env).engine.pending j = _ ∧
          Quiet j (engine.sendToConnection packet now env).out
        unfold QuicEngine.sendToConnection
        generalize engine.getConnection packet.connectionId now = result at hget ⊢
        obtain ⟨_ | addr, found⟩ := result
        · exact ⟨(congrFun hget j).trans hkept, .nil j⟩
        · have hfound : found.pending j = engine.pending j := (congrFun hget j).trans hkept
          refine ⟨?_, send_quiet _ _ _ _ _⟩
          dsimp only
          rw [send_pending_used _ _ _ _ _ (hfound ▸ hused), hfound]
      · exact Or.inr (Or.inr (Or.inr (Or.inl hends)))
  | getConnection cid now =>
      rcases cleanup_slot engine j (.getConnection cid now) rfl with hkept | hends
      · exact Or.inl ⟨(congrFun (getConnection_pending engine cid now) j).trans hkept, .nil j⟩
      · exact Or.inr (Or.inr (Or.inr (Or.inl hends)))
  | closeConnection cid env =>
      by_cases hends : (engine.findEntry cid).isSome = true ∧ (engine.pending j).connectionId = cid
      · exact Or.inr (Or.inr (Or.inr (Or.inl (Or.inr (Or.inl ⟨env, by rw [hends.2],
          by rw [hends.2]; exact hends.1⟩)))))
      · left
        have hclosed : (engine.closeLocked cid).2.pending j = engine.pending j := by
          unfold QuicEngine.closeLocked
          cases hfind : engine.findEntry cid with
          | none => rfl
          | some i =>
              dsimp only
              split_ifs
              · rw [closeEntry_pending, (findEntry_some hfind).2, clearPending_pending, if_neg]
                exact fun hkey => hends ⟨by rw [hfind]; rfl, hkey.2⟩
              · rfl
        show (engine.closeConnection cid env).engine.pending j = _ ∧
          Quiet j (engine.closeConnection cid env).out
        unfold QuicEngine.closeConnection
        generalize engine.closeLocked cid = result at hclosed ⊢
        obtain ⟨_ | addr, closed⟩ := result
        · exact ⟨hclosed, .nil j⟩
        · refine ⟨?_, (send_quiet _ _ _ _ _).append ?_⟩
          · dsimp only
            rw [send_pending_noData _ _ _ _ (closePacket_noData cid), hclosed]
          · unfold emitState
            split_ifs <;> exact ⟨rfl, rfl⟩
  | setStateHandler installed => exact Or.inl ⟨rfl, .nil j⟩
  | setStreamDataHandler installed => exact Or.inl ⟨rfl, .nil j⟩

end OttQuic
