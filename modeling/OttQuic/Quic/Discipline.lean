import OttQuic.Quic.SentPackets
import Mathlib.Data.List.Chain

/-!
# The discipline of retransmissions

What every function of the engine does to one pending slot: it leaves the slot as it is or frees it
(`SlotKeeps`), and beyond that only a DATA packet that is tracked fills a free slot (`trackPending_slot`)
and only a tick sends the packet of a slot that is due (`retransmit_resend`).

From the record of a packet in slot `j` until the next record there, `Paced` relates the slot to the
retransmissions so far: at most three, each a second after the clock of the one before it, with the bytes
recorded, to the address of the entry that carries the connection id.
-/

namespace OttQuic

open SlotTable QuicEngine

/-- The slot is as it was, or free. -/
def SlotKeeps (entry entry' : QuicPendingEntry) : Prop := entry' = entry ∨ entry'.inUse = false

/-- The retransmissions of slot `j` among the outputs. -/
def resentOn (j : Fin quicMaxPending) (out : List QuicOutput) : List (Bytes × SockAddr) :=
  out.filterMap fun
    | .resent slot buffer addr => if slot = j then some (buffer, addr) else none
    | _ => none

theorem resentOn_append (j : Fin quicMaxPending) (out out' : List QuicOutput) :
    resentOn j (out ++ out') = resentOn j out ++ resentOn j out' :=
  List.filterMap_append

/-! ### One function, one slot -/

section Functions

variable {entry entry' entry'' : QuicPendingEntry} (engine : QuicEngine) (j : Fin quicMaxPending)

theorem SlotKeeps.refl (entry : QuicPendingEntry) : SlotKeeps entry entry := Or.inl rfl

theorem SlotKeeps.trans (h : SlotKeeps entry entry') (h' : SlotKeeps entry' entry'') :
    SlotKeeps entry entry'' := by
  rcases h' with rfl | hfree
  · exact h
  · exact Or.inr hfree

theorem SlotKeeps.used (h : SlotKeeps entry entry') (hused : entry'.inUse = true) : entry' = entry := by
  rcases h with rfl | hfree
  · rfl
  · rw [hfree] at hused
    cases hused

theorem SlotKeeps.free (h : SlotKeeps entry entry') (hfree : entry.inUse = false) :
    entry'.inUse = false := by
  rcases h with rfl | hfree'
  · exact hfree
  · exact hfree'

theorem ackPending_keeps (cid : UInt64) (pn : UInt32) :
    SlotKeeps (engine.pending j) ((engine.ackPending cid pn).pending j) := by
  unfold ackPending
  split
  · rename_i i _
    by_cases hj : j = i
    · subst hj
      right
      rw [setPending_self]
    · left
      exact setPending_ne hj _ _
  · exact .refl _

theorem clearPending_keeps (cid : UInt64) :
    SlotKeeps (engine.pending j) ((engine.clearPendingForConnection cid).pending j) := by
  rw [clearPending_pending]
  split_ifs
  · exact Or.inr rfl
  · exact .refl _

theorem cleanup_keeps (now : Int) :
    SlotKeeps (engine.pending j) ((engine.cleanupConnections now).pending j) := by
  rcases engine.cleanup_pending now j with hkept | ⟨hfree, -⟩
  · exact Or.inl hkept
  · right
    rw [hfree]

theorem processPacket_start_keeps (packet : QuicPacket) (addr : SockAddr) (now nowAdd : Int) :
    SlotKeeps ((engine.cleanupConnections now).pending j)
      ((engine.processPacket packet addr now nowAdd).2.pending j) := by
  have hspec := (engine.processPacket_spec packet addr now nowAdd).2
  cases htarget : (engine.cleanupConnections now).packetTarget packet addr now nowAdd with
  | none =>
      rw [htarget] at hspec
      dsimp only at hspec
      rw [hspec]
      exact .refl _
  | some target =>
      rw [htarget] at hspec
      rw [hspec.2.1]
      split_ifs
      · exact clearPending_keeps _ j packet.connectionId
      · exact .refl _

theorem processPacket_keeps (packet : QuicPacket) (addr : SockAddr) (now nowAdd : Int) :
    SlotKeeps (engine.pending j) ((engine.processPacket packet addr now nowAdd).2.pending j) :=
  (cleanup_keeps engine j now).trans (processPacket_start_keeps engine j packet addr now nowAdd)

theorem getConnection_keeps (cid : UInt64) (now : Int) :
    SlotKeeps (engine.pending j) ((engine.getConnection cid now).2.pending j) := by
  rw [getConnection_pending]
  exact cleanup_keeps engine j now

theorem closeLocked_keeps (cid : UInt64) :
    SlotKeeps (engine.pending j) ((engine.closeLocked cid).2.pending j) := by
  unfold closeLocked
  split
  · exact .refl _
  · split_ifs
    · rw [closeEntry_pending]
      exact clearPending_keeps engine j _
    · exact .refl _

theorem beforeProcess_keeps (packet : QuicPacket) :
    SlotKeeps (engine.pending j) ((engine.beforeProcess packet).pending j) := by
  unfold QuicEngine.beforeProcess
  split_ifs
  · exact ackPending_keeps engine.countReceived j _ _
  · exact .refl _

theorem receive_keeps (datagram : Bytes) (addr : SockAddr) (env : ReceiveEnv) :
    SlotKeeps (engine.pending j) ((engine.receive datagram addr env).2.pending j) := by
  cases hparse : quicPacketDeserialize (datagram.take quicMaxPacketSize) with
  | none =>
      rw [QuicEngine.receive, hparse]
      exact .refl _
  | some packet =>
      rw [receive_pending engine addr env hparse]
      exact (beforeProcess_keeps engine j packet).trans (processPacket_keeps _ j packet addr env.now env.nowAdd)

/-! ### What frees a slot -/

theorem ackPending_frees {cid : UInt64} {pn : UInt32}
    (hfind : (findSlot engine.pending fun entry => entry.inUse && decide (entry.connectionId = cid) &&
      decide (entry.packetNumber = pn)) = some j) :
    ((engine.ackPending cid pn).pending j).inUse = false := by
  unfold ackPending
  rw [hfind]
  dsimp only
  rw [setPending_self]

theorem clearPending_frees {cid : UInt64} (hid : (engine.pending j).connectionId = cid) :
    ((engine.clearPendingForConnection cid).pending j).inUse = false := by
  rw [clearPending_pending]
  split_ifs with hmatch
  · rfl
  · rw [not_and'] at hmatch
    exact Bool.eq_false_iff.mpr (hmatch hid)

theorem cleanup_frees {now : Int} {i : Fin quicMaxConnections} (hout : (engine.connections i).TimedOut now)
    (hid : (engine.connections i).connectionId = (engine.pending j).connectionId) :
    ((engine.cleanupConnections now).pending j).inUse = false := by
  rw [cleanupConnections_eq]
  apply forSlots_establishes i (I := fun s : QuicEngine => s.connections i = engine.connections i ∧
    SlotKeeps (engine.pending j) (s.pending j)) (Q := fun s : QuicEngine => (s.pending j).inUse = false)
  · exact ⟨rfl, .refl _⟩
  · intro s k hk hs
    split_ifs
    · refine ⟨?_, hs.2.trans ?_⟩
      · rw [closeEntry_connections, Function.update_of_ne (Ne.symm hk), hs.1]
      · rw [closeEntry_pending]
        exact clearPending_keeps s j _
    · exact hs
  · intro s hs
    rw [hs.1, if_pos hout, closeEntry_pending, hs.1]
    by_cases hused : (s.pending j).inUse = true
    · apply clearPending_frees
      rw [hs.2.used hused, hid]
    · exact (clearPending_keeps s j _).free (Bool.eq_false_iff.mpr hused)
  · intro s k hs
    split_ifs
    · rw [closeEntry_pending]
      exact (clearPending_keeps s j _).free hs
    · exact hs

theorem closeLocked_frees {i : Fin quicMaxConnections}
    (hfind : engine.findEntry (engine.pending j).connectionId = some i)
    (hstate : (engine.connections i).state ≠ .closed) :
    ((engine.closeLocked (engine.pending j).connectionId).2.pending j).inUse = false := by
  unfold closeLocked
  rw [hfind]
  simp only [if_pos hstate]
  rw [closeEntry_pending]
  exact clearPending_frees engine j (findEntry_some hfind).2.symm

theorem processPacket_frees {packet : QuicPacket} {addr : SockAddr} {now nowAdd : Int}
    (hclose : packet.has quicFlagClose = true)
    (htarget : ((engine.cleanupConnections now).packetTarget packet addr now nowAdd).isSome = true)
    (hid : packet.connectionId = (engine.pending j).connectionId) :
    ((engine.processPacket packet addr now nowAdd).2.pending j).inUse = false := by
  obtain ⟨target, htarget⟩ := Option.isSome_iff_exists.mp htarget
  have hspec := (engine.processPacket_spec packet addr now nowAdd).2
  rw [htarget] at hspec
  rw [hspec.2.1, if_pos hclose]
  have hcleanup := cleanup_keeps engine j now
  by_cases hused : ((engine.cleanupConnections now).pending j).inUse = true
  · apply clearPending_frees
    rw [hcleanup.used hused, hid]
  · exact (clearPending_keeps _ j _).free (Bool.eq_false_iff.mpr hused)

/-! ### What fills a slot -/

/-- The slot as it is recorded. -/
def QuicPacket.recorded (packet : QuicPacket) (buffer : Bytes) (now : Int) : QuicPendingEntry :=
  ⟨true, packet.connectionId, packet.packetNumber, buffer.take quicMaxPacketSize, now, 0⟩

theorem trackPending_slot (packet : QuicPacket) (buffer : Bytes) (now : Int) :
    (engine.trackPending packet buffer now).pending j =
      if buffer ≠ [] ∧ packet.has quicFlagData = true ∧
          findFree QuicPendingEntry.inUse engine.pending = some j then packet.recorded buffer now
      else engine.pending j := by
  unfold trackPending
  by_cases hbuffer : buffer = []
  · simp [hbuffer]
  · rw [if_neg hbuffer]
    by_cases hdata : packet.has quicFlagData = true
    · simp only [hdata, Bool.not_true, Bool.false_eq_true, if_false]
      cases hfree : findFree QuicPendingEntry.inUse engine.pending with
      | none => simp
      | some i =>
          by_cases hj : i = j
          · subst hj
            rw [if_pos ⟨hbuffer, trivial, rfl⟩]
            exact setPending_self engine i _
          · rw [if_neg fun hall => hj (Option.some.inj hall.2.2)]
            exact setPending_ne (Ne.symm hj) engine _
    · simp [hdata]

end Functions

/-! ### A tick -/

/-- What a tick can change of slot `j`, the connections it looks at, and what it sends. -/
structure TickView where
  connections : Fin quicMaxConnections → QuicConnectionEntry
  entry : QuicPendingEntry
  resent : List (Bytes × SockAddr)

def tickView (j : Fin quicMaxPending) (s : List QuicOutput × QuicEngine) : TickView :=
  ⟨s.2.connections, s.2.pending j, resentOn j s.1⟩

/-- A tick on the view of a slot; `ok` is whether its `sendto` takes the packet. -/
def TickView.tick (now : Int) (ok : Bool) (v : TickView) : TickView :=
  if v.entry.Due now then
    match findKey QuicConnectionEntry.inUse QuicConnectionEntry.connectionId v.connections
        v.entry.connectionId with
    | none => { v with entry := { v.entry with inUse := false } }
    | some i =>
      if ok then { v with
        entry := v.entry.resend now
        resent := v.resent ++ [(v.entry.buffer, (v.connections i).addr)] }
      else { v with entry := { v.entry with inUse := false } }
  else v

theorem tickView_other (now : Int) (sendOk : Fin quicMaxPending → Bool) {i j : Fin quicMaxPending}
    (h : i ≠ j) (s : List QuicOutput × QuicEngine) :
    tickView j (retransmitSlot now sendOk s i) = tickView j s := by
  have hpending (entry : QuicPendingEntry) : (s.2.setPending i entry).pending j = s.2.pending j :=
    setPending_ne (Ne.symm h) s.2 entry
  unfold tickView
  obtain heq | ⟨entry, heq⟩ | ⟨buffer, addr, entry, sent, heq⟩ | ⟨entry, heq⟩ := retransmitSlot_cases now sendOk s i
  · rw [heq]
  · rw [heq]
    dsimp only
    rw [hpending]
    rfl
  · rw [heq]
    dsimp only
    rw [hpending, resentOn_append]
    simp [resentOn, h, setPending]
  · rw [heq]
    dsimp only
    rw [hpending, resentOn_append]
    simp [resentOn, setPending]

theorem tickView_self (now : Int) (sendOk : Fin quicMaxPending → Bool) (j : Fin quicMaxPending)
    (s : List QuicOutput × QuicEngine) :
    tickView j (retransmitSlot now sendOk s j) = (tickView j s).tick now (sendOk j) := by
  unfold retransmitSlot TickView.tick
  by_cases hdue : (s.2.pending j).Due now
  · have hlate : ¬ now - (s.2.pending j).lastSent < quicRetransTimeout := Int.not_lt.mpr hdue.2
    have hdue' : (tickView j s).entry.Due now := hdue
    have hfind : findKey QuicConnectionEntry.inUse QuicConnectionEntry.connectionId
        (tickView j s).connections (tickView j s).entry.connectionId
          = s.2.findEntry (s.2.pending j).connectionId := rfl
    rw [if_pos hdue', hfind]
    simp only [hdue.1, Bool.not_true, Bool.false_eq_true, if_false, hlate]
    cases s.2.findEntry (s.2.pending j).connectionId with
    | none =>
        unfold tickView
        dsimp only
        rw [setPending_self]
        rfl
    | some i =>
        cases sendOk j with
        | true =>
            unfold tickView
            simp only [if_true, resentOn_append]
            simp [resentOn, setPending, QuicPendingEntry.resend]
        | false =>
            unfold tickView
            simp only [Bool.false_eq_true, if_false, resentOn_append]
            simp [resentOn, setPending]
  · have hdue' : ¬ (tickView j s).entry.Due now := hdue
    rw [if_neg hdue']
    by_cases hused : (s.2.pending j).inUse = true
    · have hearly : now - (s.2.pending j).lastSent < quicRetransTimeout := by
        rw [QuicPendingEntry.Due, not_and] at hdue
        exact Int.not_le.mp (hdue hused)
      simp [hused, hearly]
    · simp [hused]

/-- **A tick, one slot**: it sends nothing and keeps or frees the slot, or the packet of the slot is due
and goes to the address of the entry that carries its connection id. -/
theorem retransmit_resend (engine : QuicEngine) (now : Int) (sendOk : Fin quicMaxPending → Bool)
    (j : Fin quicMaxPending) :
    let r := engine.retransmitPending now sendOk
    (resentOn j r.1 = [] ∧ SlotKeeps (engine.pending j) (r.2.pending j)) ∨
      (engine.pending j).Due now ∧ r.2.pending j = (engine.pending j).resend now ∧
        ∃ i, engine.findEntry (engine.pending j).connectionId = some i ∧
          resentOn j r.1 = [((engine.pending j).buffer, (engine.connections i).addr)] := by
  intro r
  have hview : tickView j r = (tickView j ([], engine)).tick now (sendOk j) :=
    forSlots_observe j (tickView j) (TickView.tick now (sendOk j))
      (fun s _ h => tickView_other now sendOk h s) (tickView_self now sendOk j)
  have hentry := congrArg TickView.entry hview
  have hsent := congrArg TickView.resent hview
  have hstart : tickView j ([], engine) = ⟨engine.connections, engine.pending j, []⟩ := rfl
  rw [hstart] at hentry hsent
  unfold TickView.tick at hentry hsent
  by_cases hdue : (engine.pending j).Due now
  · rw [if_pos hdue] at hentry hsent
    cases hfind : engine.findEntry (engine.pending j).connectionId with
    | none =>
        unfold findEntry at hfind
        simp only [hfind] at hentry hsent
        exact Or.inl ⟨hsent, Or.inr (by rw [show r.2.pending j = _ from hentry])⟩
    | some i =>
        unfold findEntry at hfind
        simp only [hfind] at hentry hsent
        by_cases hok : sendOk j = true
        · rw [if_pos hok] at hentry hsent
          exact Or.inr ⟨hdue, hentry, i, rfl, hsent⟩
        · rw [if_neg hok] at hentry hsent
          exact Or.inl ⟨hsent, Or.inr (by rw [show r.2.pending j = _ from hentry])⟩
  · rw [if_neg hdue] at hentry hsent
    exact Or.inl ⟨hsent, Or.inl hentry⟩

/-! ### One operation, one slot -/

/-- The packet that the operation is to send, and the clock when it is tracked. -/
def EngineOp.tracked : EngineOp → Option (QuicPacket × Int)
  | send packet _ env => some (packet, env.now)
  | sendToConnection packet _ env => some (packet, env.now)
  | _ => none

/-- The operation sends the DATA packet and records it in slot `j`, where the clock reads `now`. -/
def Records (engine : QuicEngine) (op : EngineOp) (j : Fin quicMaxPending) (packet : QuicPacket)
    (now : Int) : Prop :=
  op.tracked = some (packet, now) ∧
    ∃ e, op.tracksIn engine = some e ∧ findFree QuicPendingEntry.inUse e.pending = some j

/-- The bytes of the packet on the wire. -/
def QuicPacket.wire (packet : QuicPacket) : Bytes := quicHeader packet ++ packet.payload.bytes

theorem wire_serialized {packet : QuicPacket} (h : packet.payload.bytes.length ≤ quicMaxPayload) :
    quicPacketSerialize packet quicMaxPacketSize = some packet.wire ∧
      packet.wire.take quicMaxPacketSize = packet.wire := by
  refine ⟨quicPacketSerialize_some h, ?_⟩
  apply List.take_of_length_le
  rw [QuicPacket.wire, List.length_append, quicHeader_length]
  exact Nat.add_le_add_left h quicHeaderSize

theorem send_slot (engine : QuicEngine) (packet : QuicPacket) (addr : SockAddr) (env : SendEnv)
    (j : Fin quicMaxPending) :
    (engine.send packet addr env).engine.pending j =
      if (packet.has quicFlagData ∧ packet.payload.bytes.length ≤ quicMaxPayload ∧ env.ok) ∧
          findFree QuicPendingEntry.inUse engine.pending = some j then
        packet.recorded packet.wire env.now
      else engine.pending j := by
  unfold QuicEngine.send
  by_cases hlen : packet.payload.bytes.length ≤ quicMaxPayload
  · have hwire : packet.wire ≠ [] := by simp [QuicPacket.wire, quicHeader]
    rw [(wire_serialized hlen).1]
    by_cases hok : env.ok = true
    · simp only [hok, if_true, and_true, hlen]
      rw [trackPending_slot]
      simp only [hwire, ne_eq, not_false_eq_true, true_and]
      rfl
    · simp [hok]
  · have hnone : quicPacketSerialize packet quicMaxPacketSize = none := by
      rw [quicPacketSerialize, if_pos]
      rw [QuicPacket.length, Payload.length_toNat]
      omega
    rw [hnone]
    simp [hlen]

/-- A retransmission: the clock, the engine whose tables it looked at, and what it sent where. -/
structure Resend where
  now : Int
  engine : QuicEngine
  bytes : Bytes
  addr : SockAddr

/-- The retransmissions of slot `j` in one operation. -/
def EngineOp.resends (j : Fin quicMaxPending) (engine : QuicEngine) : EngineOp → List Resend
  | receiveTimeout now nowRetransmit sendOk =>
    (resentOn j (engine.receiveTimeout now nowRetransmit sendOk).1).map fun sent =>
      ⟨nowRetransmit, engine.cleanupConnections now, sent.1, sent.2⟩
  | _ => []

/-- The retransmissions of slot `j` in a run. -/
def resends (j : Fin quicMaxPending) : QuicEngine → List EngineOp → List Resend
  | _, [] => []
  | engine, op :: ops => op.resends j engine ++ resends j (op.run engine).2 ops

/-- **Only ticks** retransmit. -/
theorem tick_of_resent {engine : QuicEngine} {op : EngineOp} {slot : Fin quicMaxPending} {buffer : Bytes}
    {addr : SockAddr} (h : .resent slot buffer addr ∈ (op.run engine).1) :
    ∃ now nowRetransmit sendOk, op = .receiveTimeout now nowRetransmit sendOk := by
  have hsend : ∀ (e : QuicEngine) packet addr' env, ¬ .resent slot buffer addr ∈ (e.send packet addr' env).out := by
    intro e packet addr' env hmem
    rw [send_out] at hmem
    split_ifs at hmem <;> simp at hmem
  have hcount : ∀ {out : List QuicOutput}, .resent slot buffer addr ∈ out → ¬ Quiet slot out := by
    intro out hmem hquiet
    have hzero := List.countP_eq_zero.mp hquiet.1 _ hmem
    simp at hzero
  cases op with
  | receiveTimeout now nowRetransmit sendOk => exact ⟨now, nowRetransmit, sendOk, rfl⟩
  | receive datagram addr' env => exact absurd (receive_quiet engine addr' slot datagram env) (hcount h)
  | send packet addr' env => exact absurd h (hsend engine packet addr' env)
  | sendToConnection packet now env =>
      change .resent slot buffer addr ∈ (engine.sendToConnection packet now env).out at h
      unfold QuicEngine.sendToConnection at h
      split at h
      · simp at h
      · exact absurd h (hsend _ _ _ _)
  | getConnection cid now => simp [EngineOp.run] at h
  | closeConnection cid env =>
      change .resent slot buffer addr ∈ (engine.closeConnection cid env).out at h
      unfold QuicEngine.closeConnection emitState at h
      split at h
      · simp at h
      · rcases List.mem_append.mp h with h | h
        · exact absurd h (hsend _ _ _ _)
        · split_ifs at h <;> simp at h
  | setStateHandler installed => simp [EngineOp.run] at h
  | setStreamDataHandler installed => simp [EngineOp.run] at h

theorem sendToConnection_run (engine : QuicEngine) (packet : QuicPacket) (now : Int) (env : SendEnv) :
    let start := engine.cleanupConnections now
    let after := ((EngineOp.sendToConnection packet now env).run engine).2
    (∃ i, start.findEntry packet.connectionId = some i ∧ (start.connections i).state = .connected ∧
      after = ((start.setConnection i { start.connections i with lastSeen := now }).send packet
        (start.connections i).addr env).engine) ∨
    (EngineOp.sendToConnection packet now env).tracksIn engine = none ∧ after = start := by
  intro start after
  have hstart : engine.cleanupConnections now = start := rfl
  simp only [after, EngineOp.run, EngineOp.tracksIn, QuicEngine.sendToConnection, QuicEngine.getConnection,
    hstart]
  cases hfind : start.findEntry packet.connectionId with
  | none => exact Or.inr ⟨rfl, rfl⟩
  | some i =>
      by_cases hconn : (start.connections i).state = .connected
      · left
        refine ⟨i, rfl, hconn, ?_⟩
        simp only [if_pos hconn]
      · right
        simp [hconn]

/-- **The record** of a packet: its slot holds the packet, its bytes and the clock. -/
theorem records_slot {engine : QuicEngine} {op : EngineOp} {j : Fin quicMaxPending} {packet : QuicPacket}
    {now : Int} (h : Records engine op j packet now) :
    packet.payload.bytes.length ≤ quicMaxPayload ∧
      (op.run engine).2.pending j = packet.recorded packet.wire now := by
  obtain ⟨htracked, e, htracks, hfree⟩ := h
  cases op with
  | send p addr env =>
      obtain ⟨rfl, rfl⟩ := Prod.mk.inj (Option.some.inj htracked)
      simp only [EngineOp.tracksIn] at htracks
      split_ifs at htracks with hsend
      obtain rfl := Option.some.inj htracks
      refine ⟨hsend.2.1, (send_slot engine p addr env j).trans ?_⟩
      rw [if_pos ⟨hsend, hfree⟩]
  | sendToConnection p now' env =>
      obtain ⟨rfl, rfl⟩ := Prod.mk.inj (Option.some.inj htracked)
      rcases sendToConnection_run engine p now' env with ⟨i, hfind, hconn, hrun⟩ | ⟨hnone, -⟩
      · simp only [EngineOp.tracksIn, hfind] at htracks
        split_ifs at htracks with hsend
        obtain rfl := Option.some.inj htracks
        refine ⟨hsend.2.2.1, ?_⟩
        rw [hrun, send_slot, if_pos ⟨hsend.2, hfree⟩]
      · rw [hnone] at htracks
        cases htracks
  | _ => cases htracked

theorem sendToConnection_slot (engine : QuicEngine) (packet : QuicPacket) (now : Int) (env : SendEnv)
    (j : Fin quicMaxPending) :
    ((EngineOp.sendToConnection packet now env).run engine).2.pending j =
        (engine.cleanupConnections now).pending j ∨
      Records engine (.sendToConnection packet now env) j packet env.now := by
  rcases sendToConnection_run engine packet now env with ⟨i, hfind, hconn, hrun⟩ | ⟨-, hrun⟩
  · rw [hrun, send_slot]
    split_ifs with hsend
    · refine Or.inr ⟨rfl, engine.cleanupConnections now, ?_, hsend.2⟩
      simp only [EngineOp.tracksIn, hfind]
      rw [if_pos ⟨hconn, hsend.1⟩]
    · exact Or.inl rfl
  · rw [hrun]
    exact Or.inl rfl

/-- What one operation does to slot `j`. -/
inductive PendingStep (engine : QuicEngine) (op : EngineOp) (j : Fin quicMaxPending) : Prop
  | kept (hnone : op.resends j engine = []) (hslot : SlotKeeps (engine.pending j) ((op.run engine).2.pending j))
  | recorded (packet : QuicPacket) (now : Int) (hrecords : Records engine op j packet now)
  | resent (now : Int) (e : QuicEngine) (i : Fin quicMaxConnections)
      (hdue : (engine.pending j).Due now)
      (hfind : e.findEntry (engine.pending j).connectionId = some i)
      (hsent : op.resends j engine = [⟨now, e, (engine.pending j).buffer, (e.connections i).addr⟩])
      (hslot : (op.run engine).2.pending j = (engine.pending j).resend now)

/-- **One operation, one slot.** -/
theorem op_pendingStep (engine : QuicEngine) (op : EngineOp) (j : Fin quicMaxPending) :
    PendingStep engine op j := by
  cases op with
  | receive datagram addr env => exact .kept rfl (receive_keeps engine j datagram addr env)
  | receiveTimeout now nowRetransmit sendOk =>
      have hcleanup := cleanup_keeps engine j now
      rcases retransmit_resend (engine.cleanupConnections now) nowRetransmit sendOk j with
        ⟨hnone, hslot⟩ | ⟨hdue, hslot, i, hfind, hsent⟩
      · refine .kept ?_ (hcleanup.trans hslot)
        exact List.map_eq_nil_iff.mpr hnone
      · have hsame := hcleanup.used hdue.1
        rw [hsame] at hdue hslot hfind hsent
        refine .resent nowRetransmit (engine.cleanupConnections now) i hdue hfind ?_ hslot
        exact congrArg (List.map _) hsent
  | send packet addr env =>
      have hslot := send_slot engine packet addr env j
      split_ifs at hslot with hsend
      · refine .recorded packet env.now ⟨rfl, engine, ?_, hsend.2⟩
        rw [EngineOp.tracksIn, if_pos hsend.1]
      · exact .kept rfl (Or.inl hslot)
  | sendToConnection packet now env =>
      rcases sendToConnection_slot engine packet now env j with hkept | hrecords
      · refine .kept rfl ?_
        rw [hkept]
        exact cleanup_keeps engine j now
      · exact .recorded packet env.now hrecords
  | getConnection cid now => exact .kept rfl (getConnection_keeps engine j cid now)
  | closeConnection cid env =>
      refine .kept rfl ?_
      change SlotKeeps (engine.pending j) ((engine.closeConnection cid env).engine.pending j)
      have hclosed := closeLocked_keeps engine j cid
      unfold QuicEngine.closeConnection
      generalize engine.closeLocked cid = result at hclosed ⊢
      obtain ⟨_ | addr, closed⟩ := result
      · exact hclosed
      · dsimp only
        rw [send_pending_noData _ _ _ _ (closePacket_noData cid)]
        exact hclosed
  | setStateHandler installed => exact .kept rfl (.refl _)
  | setStreamDataHandler installed => exact .kept rfl (.refl _)

/-! ### Whole runs -/

/-- No operation of the run records a packet in slot `j`. -/
def NotReused (j : Fin quicMaxPending) (engine : QuicEngine) (ops : List EngineOp) : Prop :=
  ∀ before op after, ops = before ++ op :: after →
    ∀ packet now, ¬ Records (runEngine engine before) op j packet now

/-- The operation releases slot `j`: it receives an ACK for which the slot is the first match, a
retransmission of the slot fails, or its connection times out or is closed. -/
def Released (engine : QuicEngine) (op : EngineOp) (j : Fin quicMaxPending) : Prop :=
  (∃ datagram addr env packet, op = .receive datagram addr env ∧
    quicPacketDeserialize (datagram.take quicMaxPacketSize) = some packet ∧
    packet.has quicFlagAck = true ∧
    (findSlot engine.pending fun entry => entry.inUse && decide (entry.connectionId = packet.connectionId) &&
      decide (entry.packetNumber = packet.packetNumber)) = some j) ∨
  (∃ now nowRetransmit sendOk, op = .receiveTimeout now nowRetransmit sendOk ∧
    resendFailed j (op.run engine).1 = true) ∨
  (∃ now i, op.cleanupTime = some now ∧ (engine.connections i).TimedOut now ∧
    (engine.connections i).connectionId = (engine.pending j).connectionId) ∨
  (∃ env i, op = .closeConnection (engine.pending j).connectionId env ∧
    engine.findEntry (engine.pending j).connectionId = some i ∧ (engine.connections i).state ≠ .closed) ∨
  (∃ datagram addr env packet, op = .receive datagram addr env ∧
    quicPacketDeserialize (datagram.take quicMaxPacketSize) = some packet ∧
    packet.has quicFlagClose = true ∧ packet.connectionId = (engine.pending j).connectionId ∧
    ((engine.cleanupConnections env.now).packetTarget packet addr env.now env.nowAdd).isSome = true)

section Runs

variable {engine : QuicEngine} {j : Fin quicMaxPending} {packet : QuicPacket} {t : Int} {ops : List EngineOp}
  {op : EngineOp} {sent : List Resend}

/-- From the record of the packet at the clock `t` on: the retransmissions so far, and the slot while it
is in use. -/
structure Paced (engine : QuicEngine) (j : Fin quicMaxPending) (packet : QuicPacket) (t : Int)
    (sent : List Resend) : Prop where
  few : sent.length ≤ quicMaxRetries
  apart : (t :: sent.map (·.now)).IsChain fun earlier later => earlier + quicRetransTimeout ≤ later
  same : ∀ r ∈ sent, r.bytes = packet.wire ∧
    ∃ i, r.engine.findEntry packet.connectionId = some i ∧ r.addr = (r.engine.connections i).addr
  slot : (engine.pending j).inUse = true →
    (engine.pending j).connectionId = packet.connectionId ∧ (engine.pending j).buffer = packet.wire ∧
      (t :: sent.map (·.now)).getLast? = some (engine.pending j).lastSent ∧
      (engine.pending j).retries = sent.length ∧ sent.length < quicMaxRetries

theorem Paced.step (h : Paced engine j packet t sent) (hop : ∀ p now, ¬ Records engine op j p now) :
    Paced (op.run engine).2 j packet t (sent ++ op.resends j engine) := by
  rcases op_pendingStep engine op j with ⟨hnone, hslot⟩ | ⟨p, now, hrecords⟩ | ⟨now, e, i, hdue, hfind, hsent, hslot⟩
  · rw [hnone, List.append_nil]
    refine ⟨h.few, h.apart, h.same, fun hused => ?_⟩
    have hsame := hslot.used hused
    rw [hsame] at hused ⊢
    exact h.slot hused
  · exact absurd hrecords (hop p now)
  · obtain ⟨hcid, hbuffer, hlast, hretries, hfew⟩ := h.slot hdue.1
    rw [hsent]
    refine ⟨?_, ?_, ?_, fun hused => ?_⟩
    · rw [List.length_append, List.length_singleton]
      omega
    · rw [List.map_append, ← List.cons_append, List.isChain_append]
      refine ⟨h.apart, .singleton _, ?_⟩
      intro x hx y hy
      rw [hlast] at hx
      obtain rfl := Option.some.inj hx
      obtain rfl := Option.some.inj hy
      change (engine.pending j).lastSent + quicRetransTimeout ≤ now
      have hlate := hdue.2
      omega
    · intro r hr
      rcases List.mem_append.mp hr with hr | hr
      · exact h.same r hr
      · rw [List.mem_singleton.mp hr]
        rw [hcid] at hfind
        exact ⟨hbuffer, i, hfind, rfl⟩
    · rw [hslot] at hused ⊢
      have hmore : (engine.pending j).retries + 1 < quicMaxRetries := of_decide_eq_true hused
      refine ⟨hcid, hbuffer, ?_, ?_, ?_⟩
      · rw [List.map_append, ← List.cons_append, List.map_singleton, List.getLast?_concat]
        rfl
      · rw [List.length_append, List.length_singleton, ← hretries]
        rfl
      · rw [List.length_append, List.length_singleton, ← hretries]
        exact hmore

theorem notReused_cons (h : NotReused j engine (op :: ops)) :
    (∀ p now, ¬ Records engine op j p now) ∧ NotReused j (op.run engine).2 ops := by
  refine ⟨h [] op ops rfl, fun before o after hsplit => ?_⟩
  exact h (op :: before) o after (by rw [hsplit]; rfl)

theorem Paced.run (h : Paced engine j packet t sent) (hops : NotReused j engine ops) :
    Paced (runEngine engine ops) j packet t (sent ++ resends j engine ops) := by
  induction ops generalizing engine sent with
  | nil =>
      rw [resends, List.append_nil]
      exact h
  | cons op ops ih =>
      obtain ⟨hop, hrest⟩ := notReused_cons hops
      rw [resends, ← List.append_assoc]
      exact ih (h.step hop) hrest

theorem free_run (hfree : (engine.pending j).inUse = false) (hops : NotReused j engine ops) :
    resends j engine ops = [] := by
  induction ops generalizing engine with
  | nil => rfl
  | cons op ops ih =>
      obtain ⟨hop, hrest⟩ := notReused_cons hops
      rw [resends]
      rcases op_pendingStep engine op j with ⟨hnone, hslot⟩ | ⟨p, now, hrecords⟩ | ⟨now, e, i, hdue, -⟩
      · rw [hnone, ih (hslot.free hfree) hrest]
        rfl
      · exact absurd hrecords (hop p now)
      · rw [hdue.1] at hfree
        cases hfree

theorem SlotView.tick_failed {v : SlotView} {now : Int} {ok : Bool} (hv : v.failed = false)
    (h : (v.tick now ok).failed = true) : (v.tick now ok).entry.inUse = false := by
  unfold SlotView.tick at h ⊢
  by_cases hdue : v.entry.Due now
  · rw [if_pos hdue] at h ⊢
    generalize findKey QuicConnectionEntry.inUse QuicConnectionEntry.connectionId v.connections
      v.entry.connectionId = found at h ⊢
    cases found with
    | none => rfl
    | some i =>
        by_cases hok : ok = true
        · simp only [if_pos hok, hv] at h
          cases h
        · simp only [if_neg hok]
  · rw [if_neg hdue, hv] at h
    cases h

theorem tick_failed_free {now : Int} {sendOk : Fin quicMaxPending → Bool}
    (h : resendFailed j (engine.retransmitPending now sendOk).1 = true) :
    ((engine.retransmitPending now sendOk).2.pending j).inUse = false := by
  have hview := retransmit_slotView engine now sendOk j
  have hentry : (engine.retransmitPending now sendOk).2.pending j = _ := congrArg SlotView.entry hview
  have hfailed : resendFailed j (engine.retransmitPending now sendOk).1 = _ := congrArg SlotView.failed hview
  rw [h] at hfailed
  rw [hentry]
  exact SlotView.tick_failed rfl hfailed.symm

theorem timedOut_free {now : Int} {i : Fin quicMaxConnections} (hnow : op.cleanupTime = some now)
    (hout : (engine.connections i).TimedOut now)
    (hid : (engine.connections i).connectionId = (engine.pending j).connectionId)
    (hop : ∀ p now, ¬ Records engine op j p now) : ((op.run engine).2.pending j).inUse = false := by
  have hcleanup := cleanup_frees engine j hout hid
  cases op with
  | receive datagram addr env =>
      simp only [EngineOp.cleanupTime] at hnow
      split_ifs at hnow with hsome
      obtain ⟨packet, hparse⟩ := Option.isSome_iff_exists.mp hsome
      obtain rfl := Option.some.inj hnow
      change ((engine.receive datagram addr env).2.pending j).inUse = false
      rw [receive_pending engine addr env hparse]
      have hbefore := beforeProcess_keeps engine j packet
      have hconn := beforeProcess_connections engine packet
      apply (processPacket_start_keeps _ j packet addr env.now env.nowAdd).free
      by_cases hused : ((engine.beforeProcess packet).pending j).inUse = true
      · apply cleanup_frees (i := i)
        · rw [hconn]
          exact hout
        · rw [hconn, hbefore.used hused, hid]
      · exact (cleanup_keeps _ j env.now).free (Bool.eq_false_iff.mpr hused)
  | receiveTimeout now' nowRetransmit sendOk =>
      obtain rfl := Option.some.inj hnow
      rcases retransmit_resend (engine.cleanupConnections now') nowRetransmit sendOk j with
        ⟨-, hslot⟩ | ⟨hdue, -⟩
      · exact hslot.free hcleanup
      · rw [hdue.1] at hcleanup
        cases hcleanup
  | sendToConnection packet now' env =>
      obtain rfl := Option.some.inj hnow
      rcases sendToConnection_slot engine packet now' env j with hkept | hrecords
      · rw [hkept]
        exact hcleanup
      · exact absurd hrecords (hop packet env.now)
  | getConnection cid now' =>
      obtain rfl := Option.some.inj hnow
      change ((engine.getConnection cid now').2.pending j).inUse = false
      rw [getConnection_pending]
      exact hcleanup
  | _ => cases hnow

theorem Released.free (h : Released engine op j) (hop : ∀ p now, ¬ Records engine op j p now) :
    ((op.run engine).2.pending j).inUse = false := by
  rcases h with ⟨datagram, addr, env, packet, rfl, hparse, hack, hfind⟩ |
    ⟨now, nowRetransmit, sendOk, rfl, hfailed⟩ | ⟨now, i, hnow, hout, hid⟩ | ⟨env, i, rfl, hfind, hstate⟩ |
    ⟨datagram, addr, env, packet, rfl, hparse, hclose, hid, htarget⟩
  · change ((engine.receive datagram addr env).2.pending j).inUse = false
    rw [receive_pending engine addr env hparse]
    apply (processPacket_keeps _ j packet addr env.now env.nowAdd).free
    unfold QuicEngine.beforeProcess
    rw [if_pos hack]
    exact ackPending_frees engine.countReceived j hfind
  · exact tick_failed_free hfailed
  · exact timedOut_free hnow hout hid hop
  · change ((engine.closeConnection (engine.pending j).connectionId env).engine.pending j).inUse = false
    have hclosed := closeLocked_frees engine j hfind hstate
    unfold QuicEngine.closeConnection
    generalize engine.closeLocked (engine.pending j).connectionId = result at hclosed ⊢
    obtain ⟨_ | addr, closed⟩ := result
    · exact hclosed
    · dsimp only
      rw [send_pending_noData _ _ _ _ (closePacket_noData _)]
      exact hclosed
  · change ((engine.receive datagram addr env).2.pending j).inUse = false
    rw [receive_pending engine addr env hparse]
    have hbefore := beforeProcess_keeps engine j packet
    have hconn := beforeProcess_connections engine packet
    by_cases hused : ((engine.beforeProcess packet).pending j).inUse = true
    · apply processPacket_frees _ j hclose
      · rw [packetTarget_congr (cleanup_connections_congr hconn env.now)]
        exact htarget
      · rw [hbefore.used hused, hid]
    · exact (processPacket_keeps _ j packet addr env.now env.nowAdd).free (Bool.eq_false_iff.mpr hused)

end Runs

/-- **Retransmission discipline.** In every run, and whatever the clock readings, let an operation record
a DATA packet in slot `j`. Until the next record in the slot: the packet is retransmitted at most
`QUIC_MAX_RETRIES` times; the first retransmission is at least `QUIC_RETRANS_TIMEOUT` seconds after the
record and each further one after the one before; each carries the serialized packet and goes to the
address of the entry in use that carries its connection id; and none happens after the slot was released,
nor in any state in which it is free. Only ticks retransmit. -/
theorem retransmission_discipline (handler : Bool) (before : List EngineOp) (op : EngineOp)
    (after : List EngineOp) (j : Fin quicMaxPending) (packet : QuicPacket) (t : Int)
    (hrecords : Records (runEngine (quicEngineInit handler) before) op j packet t)
    (hafter : NotReused j (runEngine (quicEngineInit handler) (before ++ [op])) after) :
    let engine := runEngine (quicEngineInit handler) (before ++ [op])
    let sent := resends j engine after
    sent.length ≤ quicMaxRetries ∧
      (t :: sent.map (·.now)).IsChain (fun earlier later => earlier + quicRetransTimeout ≤ later) ∧
      (∀ r ∈ sent, quicPacketSerialize packet quicMaxPacketSize = some r.bytes ∧
        ∃ i, r.engine.findEntry packet.connectionId = some i ∧ r.addr = (r.engine.connections i).addr) ∧
      (∀ mid o rest, after = mid ++ o :: rest → Released (runEngine engine mid) o j →
        resends j (runEngine engine (mid ++ [o])) rest = []) ∧
      (∀ mid rest, after = mid ++ rest → ((runEngine engine mid).pending j).inUse = false →
        resends j (runEngine engine mid) rest = []) ∧
      ∀ (e : QuicEngine) o slot buffer addr, .resent slot buffer addr ∈ (EngineOp.run e o).1 →
        ∃ now nowRetransmit sendOk, o = .receiveTimeout now nowRetransmit sendOk := by
  intro engine sent
  obtain ⟨hlen, hslot⟩ := records_slot hrecords
  have hentry : engine.pending j = packet.recorded packet.wire t := by
    change (runEngine (quicEngineInit handler) (before ++ [op])).pending j = _
    rw [runEngine_snoc]
    exact hslot
  have hstart : Paced engine j packet t [] := by
    refine ⟨Nat.zero_le _, .singleton t, by simp, fun _ => ?_⟩
    rw [hentry]
    exact ⟨rfl, (wire_serialized hlen).2, rfl, rfl, by decide⟩
  have hall := hstart.run hafter
  rw [List.nil_append] at hall
  have hsplit : ∀ mid rest, after = mid ++ rest → NotReused j (runEngine engine mid) rest := by
    rintro mid rest rfl before' o after' rfl p now
    have hnot := hafter (mid ++ before') o after' (by rw [List.append_assoc]) p now
    have hjoin : runEngine engine (mid ++ before') = runEngine (runEngine engine mid) before' := List.foldl_append
    rwa [hjoin] at hnot
  refine ⟨hall.few, hall.apart, fun r hr => ?_, ?_, ?_, fun e o slot buffer addr => tick_of_resent⟩
  · obtain ⟨hbytes, haddr⟩ := hall.same r hr
    rw [hbytes]
    exact ⟨(wire_serialized hlen).1, haddr⟩
  · rintro mid o rest rfl hreleased
    have hnot := hsplit mid (o :: rest) rfl
    obtain ⟨hop, hrest⟩ := notReused_cons hnot
    rw [runEngine_snoc]
    exact free_run (hreleased.free hop) hrest
  · intro mid rest hafter' hfree'
    exact free_run hfree' (hsplit mid rest hafter')

/-- A packet that is sent at 0 on an open connection, and a tick at 1. -/
theorem retransmission_discipline_one :
    let sent := resends 0 (runEngine (quicEngineInit false) (sampleOps ++ [sampleSend 1]))
      [.receiveTimeout 1 1 fun _ => true]
    sent.map (fun r => (r.now, r.addr)) = [(1, sampleAddr)] ∧ sent.length ≤ quicMaxRetries := by
  refine ⟨by decide +kernel, (retransmission_discipline false sampleOps (sampleSend 1)
    [.receiveTimeout 1 1 fun _ => true] 0 (samplePending 1) 0 ⟨rfl, sampleConnection, ?_, ?_⟩ ?_).1⟩
  · change (sampleSend 1).tracksIn sampleConnection = some sampleConnection
    rw [sampleSend, EngineOp.tracksIn, if_pos (by decide)]
  · decide +kernel
  · intro before op after hsplit packet now hrecords
    have hop : op ∈ [EngineOp.receiveTimeout 1 1 fun _ => true] := by
      rw [hsplit]
      simp
    rw [List.mem_singleton.mp hop] at hrecords
    cases hrecords.1

end OttQuic
