import OttQuic.Quic.Discipline

/-!
# Senders beside the receive loop

`quic_engine_send` puts its datagram on the wire, counts it and records it in three steps, and
`quic_engine_send_to_connection` looks the connection up in one more before them. `SendState.step`
interleaves the steps of any number of sending threads with the sections of the receive loop and of
`quic_engine_close_connection`. Beside the engine the state keeps the history that the laws about these
runs speak of: the packets sent and acknowledged, how often each connection slot has been put in use, and
for each pending slot the incarnation of the connection that the lookup of its packet found.

The pending slots hold the wire form of DATA packets in every run (`Wired`), so that what a tick
retransmits says which packet it was.
-/

namespace OttQuic

open SlotTable QuicEngine Transition

/-- An entry of the connection table from one creation on: its slot, and how often the slot has been
created by then. -/
structure Incarnation where
  slot : Fin quicMaxConnections
  generation : Nat
  deriving DecidableEq

/-- Where a sending thread is; `found` is the incarnation its lookup has found, if it made one. -/
inductive Sender where
  | idle
  /-- `quic_engine_send` is entered with the address. -/
  | located (packet : QuicPacket) (addr : SockAddr) (found : Option Incarnation)
  /-- `sendto` has taken the datagram. -/
  | onWire (packet : QuicPacket) (buffer : Bytes) (found : Option Incarnation)
  /-- The metrics are updated. -/
  | counted (packet : QuicPacket) (buffer : Bytes) (found : Option Incarnation)
  deriving DecidableEq

/-- The key under which a packet is acknowledged. -/
def QuicPacket.key (packet : QuicPacket) : UInt64 × UInt32 := (packet.connectionId, packet.packetNumber)

/-- The engine, the sending threads, and the history. -/
structure SendState where
  engine : QuicEngine
  senders : Nat → Sender
  /-- The DATA packets that `quic_engine_send` has put on the wire. -/
  sent : List (UInt64 × UInt32)
  /-- The ACKs that `quic_engine_ack_pending` has processed. -/
  acked : List (UInt64 × UInt32)
  /-- How often each connection slot has been put in use. -/
  generation : Fin quicMaxConnections → Nat
  /-- What the lookup of the packet in each pending slot found. -/
  owner : Fin quicMaxPending → Option Incarnation

inductive SendStep where
  /-- The lookup of `quic_engine_send_to_connection`. -/
  | lookup (tid : Nat) (packet : QuicPacket) (now : Int)
  /-- A call of `quic_engine_send` with an address. -/
  | call (tid : Nat) (packet : QuicPacket) (addr : SockAddr)
  | sendto (tid : Nat) (ok : Bool)
  | count (tid : Nat)
  | track (tid : Nat) (now : Int)
  /-- A section of any other thread. -/
  | other (sec : EngineSection)

instance (engine : QuicEngine) (sec : EngineSection) (i : Fin quicMaxConnections) :
    Decidable (Created engine sec i) :=
  inferInstanceAs (Decidable (_ ∧ _))

/-- Only the sending threads record packets. -/
def EngineSection.records : EngineSection → Bool
  | trackPending .. => true
  | _ => false

/-- The ACK that the section processes. -/
def EngineSection.acks : EngineSection → List (UInt64 × UInt32)
  | ackPending cid pn => [(cid, pn)]
  | _ => []

namespace SendState

def initial (handler : Bool) : SendState where
  engine := quicEngineInit handler
  senders _ := .idle
  sent := []
  acked := []
  generation _ := 0
  owner _ := none

/-- A section, with its history. -/
def exec (s : SendState) (sec : EngineSection) : SendState :=
  { s with
    engine := sec.step s.engine
    acked := sec.acks ++ s.acked
    generation := fun i => if Created s.engine sec i then s.generation i + 1 else s.generation i }

def setSender (s : SendState) (tid : Nat) (sender : Sender) : SendState :=
  { s with senders := Function.update s.senders tid sender }

/-- The incarnation that a lookup finds. -/
def lookupFinds (s : SendState) (connectionId : UInt64) (now : Int) : Option Incarnation :=
  ((s.engine.cleanupConnections now).findEntry connectionId).map fun i => ⟨i, s.generation i⟩

/-- `quic_engine_track_pending`, with its history. -/
def record (s : SendState) (packet : QuicPacket) (buffer : Bytes) (found : Option Incarnation) (now : Int) :
    SendState :=
  { s.exec (.trackPending packet buffer now) with
    owner := fun j =>
      if buffer ≠ [] ∧ packet.has quicFlagData = true ∧
        findFree QuicPendingEntry.inUse s.engine.pending = some j then found else s.owner j }

/-- The datagram is on the wire. -/
def noteSent (s : SendState) (packet : QuicPacket) : SendState :=
  { s with sent := if packet.has quicFlagData then packet.key :: s.sent else s.sent }

/-- One step; a step of a thread that is elsewhere does nothing. -/
def step (s : SendState) : SendStep → SendState
  | .lookup tid packet now =>
    match s.senders tid with
    | .idle =>
      let s' := s.exec (.getConnection packet.connectionId now)
      match (s.engine.getConnection packet.connectionId now).1 with
      | some addr => s'.setSender tid (.located packet addr (s.lookupFinds packet.connectionId now))
      | none => s'
    | _ => s
  | .call tid packet addr =>
    match s.senders tid with
    | .idle => s.setSender tid (.located packet addr none)
    | _ => s
  | .sendto tid ok =>
    match s.senders tid with
    | .located packet _ found =>
      match quicPacketSerialize packet quicMaxPacketSize with
      | none => s.setSender tid .idle
      | some buffer =>
        if ok then (s.noteSent packet).setSender tid (.onWire packet buffer found)
        else s.setSender tid .idle
    | _ => s
  | .count tid =>
    match s.senders tid with
    | .onWire packet buffer found => (s.exec .countSent).setSender tid (.counted packet buffer found)
    | _ => s
  | .track tid now =>
    match s.senders tid with
    | .counted packet buffer found => (s.record packet buffer found now).setSender tid .idle
    | _ => s
  | .other sec => if sec.records then s else s.exec sec

/-- What the step puts on the wire. -/
def outputs (s : SendState) : SendStep → List QuicOutput
  | .sendto tid true =>
    match s.senders tid with
    | .located packet addr _ =>
      if (quicPacketSerialize packet quicMaxPacketSize).isSome then [.sent packet addr] else []
    | _ => []
  | .other (.receiveTimeout now nowRetransmit sendOk) =>
    (s.engine.receiveTimeout now nowRetransmit sendOk).1
  | _ => []

end SendState

/-- The senders and the engine, from the start of the engine. -/
def sendSystem (handler : Bool) : System SendState SendStep := .ofFun (.initial handler) SendState.step

/-- **`quic_engine_send`** is its steps with nothing in between. -/
theorem send_eq_steps (s : SendState) (tid : Nat) (packet : QuicPacket) (addr : SockAddr) (env : SendEnv)
    (hidle : s.senders tid = .idle) :
    ([.call tid packet addr, .sendto tid env.ok, .count tid, .track tid env.now].foldl SendState.step s).engine
      = (s.engine.send packet addr env).engine := by
  unfold QuicEngine.send
  cases hser : quicPacketSerialize packet quicMaxPacketSize with
  | none => simp [SendState.step, SendState.setSender, hidle, hser]
  | some buffer =>
      by_cases hok : env.ok = true
      · simp [SendState.step, SendState.setSender, SendState.exec, SendState.record, SendState.noteSent,
          EngineSection.step, hidle, hser, hok]
      · simp [SendState.step, SendState.setSender, hidle, hser, hok]

/-! ### The pending slots in one section -/

/-- A slot in use was in use before, for the same packet. -/
def KeepsPacket (entry entry' : QuicPendingEntry) : Prop :=
  entry'.inUse = true → entry.inUse = true ∧ entry'.connectionId = entry.connectionId ∧
    entry'.packetNumber = entry.packetNumber ∧ entry'.buffer = entry.buffer

theorem SlotKeeps.keepsPacket {entry entry' : QuicPendingEntry} (h : SlotKeeps entry entry') :
    KeepsPacket entry entry' := by
  intro hused
  have hsame := h.used hused
  rw [hsame] at hused ⊢
  exact ⟨hused, rfl, rfl, rfl⟩

theorem retransmit_keepsPacket (engine : QuicEngine) (now : Int) (sendOk : Fin quicMaxPending → Bool)
    (j : Fin quicMaxPending) :
    KeepsPacket (engine.pending j) ((engine.retransmitPending now sendOk).2.pending j) := by
  rcases retransmit_resend engine now sendOk j with ⟨-, hslot⟩ | ⟨hdue, hslot, -⟩
  · exact hslot.keepsPacket
  · intro _
    rw [hslot]
    exact ⟨hdue.1, rfl, rfl, rfl⟩

theorem section_keepsPacket (engine : QuicEngine) {sec : EngineSection} (hsec : sec.records = false)
    (j : Fin quicMaxPending) : KeepsPacket (engine.pending j) ((sec.step engine).pending j) := by
  cases sec with
  | trackPending packet buffer now => cases hsec
  | ackPending cid pn => exact (ackPending_keeps engine j cid pn).keepsPacket
  | processPacket packet addr now nowAdd =>
      exact (processPacket_keeps engine j packet addr now nowAdd).keepsPacket
  | getConnection cid now => exact (getConnection_keeps engine j cid now).keepsPacket
  | closeLocked cid => exact (closeLocked_keeps engine j cid).keepsPacket
  | receiveTimeout now nowRetransmit sendOk =>
      intro hused
      have htick := retransmit_keepsPacket (engine.cleanupConnections now) nowRetransmit sendOk j hused
      have hsame := (cleanup_keeps engine j now).used htick.1
      rw [hsame] at htick
      exact htick
  | onData slot call => exact (SlotKeeps.refl _).keepsPacket
  | countReceived => exact (SlotKeeps.refl _).keepsPacket
  | countSent => exact (SlotKeeps.refl _).keepsPacket
  | setStateHandler installed => exact (SlotKeeps.refl _).keepsPacket
  | setStreamDataHandler installed => exact (SlotKeeps.refl _).keepsPacket

/-! ### The packet of a slot -/

theorem serialize_eq_wire {packet : QuicPacket} {buffer : Bytes}
    (h : quicPacketSerialize packet quicMaxPacketSize = some buffer) :
    packet.payload.bytes.length ≤ quicMaxPayload ∧ buffer = packet.wire := by
  obtain ⟨hlen, -, hbuffer⟩ := quicPacketSerialize_eq_some.mp h
  exact ⟨hlen, hbuffer⟩

theorem wire_injective {packet packet' : QuicPacket} (hlen : packet.payload.bytes.length ≤ quicMaxPayload)
    (h : packet.wire = packet'.wire) : packet = packet' := by
  have hsize := congrArg List.length h
  rw [QuicPacket.wire, QuicPacket.wire, List.length_append, List.length_append, quicHeader_length,
    quicHeader_length] at hsize
  have hlen' : packet'.payload.bytes.length ≤ quicMaxPayload := by omega
  have hread := deserialize_serialized hlen
  have hread' := deserialize_serialized hlen'
  rw [← QuicPacket.wire] at hread hread'
  rw [h, hread'] at hread
  exact (Option.some.inj hread).symm

/-- The slot holds a DATA packet with its key and its bytes. -/
def HoldsData (entry : QuicPendingEntry) : Prop :=
  ∃ packet : QuicPacket, packet.payload.bytes.length ≤ quicMaxPayload ∧
    packet.key = (entry.connectionId, entry.packetNumber) ∧ entry.buffer = packet.wire

/-- The packet that is on the wire and not yet recorded, and its bytes. -/
def Sender.sending : Sender → Option (QuicPacket × Bytes)
  | onWire packet buffer _ => some (packet, buffer)
  | counted packet buffer _ => some (packet, buffer)
  | _ => none

/-- The slots in use hold DATA packets, and the threads their serialized packets. -/
structure Wired (s : SendState) : Prop where
  slots : ∀ j, (s.engine.pending j).inUse = true → HoldsData (s.engine.pending j)
  senders : ∀ tid packet buffer, (s.senders tid).sending = some (packet, buffer) →
    quicPacketSerialize packet quicMaxPacketSize = some buffer

namespace SendState

variable {s : SendState} {tid t : Nat} {sender : Sender}

theorem setSender_self (s : SendState) (tid : Nat) (sender : Sender) :
    (s.setSender tid sender).senders tid = sender := Function.update_self ..

theorem setSender_ne (h : t ≠ tid) (s : SendState) (sender : Sender) :
    (s.setSender tid sender).senders t = s.senders t := Function.update_of_ne h ..

end SendState

/-- What a step can do. -/
inductive StepCase (s : SendState) (l : SendStep) : SendState → Prop
  | stay : StepCase s l s
  | run (sec : EngineSection) (hsec : sec.records = false) (hl : l = .other sec) : StepCase s l (s.exec sec)
  | lookup (sec : EngineSection) (hsec : sec.records = false) (hacks : sec.acks = []) :
      StepCase s l (s.exec sec)
  | locate (sec : EngineSection) (hsec : sec.records = false) (hacks : sec.acks = []) (tid : Nat)
      (packet : QuicPacket) (addr : SockAddr) (found : Option Incarnation) :
      StepCase s l ((s.exec sec).setSender tid (.located packet addr found))
  | call (tid : Nat) (packet : QuicPacket) (addr : SockAddr) :
      StepCase s l (s.setSender tid (.located packet addr none))
  | fail (tid : Nat) : StepCase s l (s.setSender tid .idle)
  | put (tid : Nat) (packet : QuicPacket) (addr : SockAddr) (buffer : Bytes) (found : Option Incarnation)
      (hl : l = .sendto tid true) (hsender : s.senders tid = .located packet addr found)
      (hser : quicPacketSerialize packet quicMaxPacketSize = some buffer) :
      StepCase s l ((s.noteSent packet).setSender tid (.onWire packet buffer found))
  | count (tid : Nat) (packet : QuicPacket) (buffer : Bytes) (found : Option Incarnation)
      (hsender : s.senders tid = .onWire packet buffer found) :
      StepCase s l ((s.exec .countSent).setSender tid (.counted packet buffer found))
  | track (tid : Nat) (packet : QuicPacket) (buffer : Bytes) (found : Option Incarnation) (now : Int)
      (hl : l = .track tid now) (hsender : s.senders tid = .counted packet buffer found) :
      StepCase s l ((s.record packet buffer found now).setSender tid .idle)

/-- **One step.** -/
theorem step_case (s : SendState) (l : SendStep) : StepCase s l (s.step l) := by
  unfold SendState.step
  cases l with
  | lookup tid packet now =>
      dsimp only
      split
      · split
        · exact .locate (.getConnection packet.connectionId now) rfl rfl tid packet _ _
        · exact .lookup (.getConnection packet.connectionId now) rfl rfl
      · exact .stay
  | call tid packet addr =>
      dsimp only
      split
      · exact .call tid packet addr
      · exact .stay
  | sendto tid ok =>
      dsimp only
      split
      · rename_i packet addr found hsender
        split
        · exact .fail tid
        · rename_i buffer hser
          by_cases hok : ok = true
          · rw [if_pos hok, hok]
            exact .put tid packet addr buffer found rfl hsender hser
          · rw [if_neg hok]
            exact .fail tid
      · exact .stay
  | count tid =>
      dsimp only
      split
      · rename_i packet buffer found hsender
        exact .count tid packet buffer found hsender
      · exact .stay
  | track tid now =>
      dsimp only
      split
      · rename_i packet buffer found hsender
        exact .track tid packet buffer found now rfl hsender
      · exact .stay
  | other sec =>
      dsimp only
      cases hsec : sec.records with
      | true => exact .stay
      | false => exact .run sec hsec rfl

section Wired

variable {s : SendState}

theorem Wired.exec (h : Wired s) {sec : EngineSection} (hsec : sec.records = false) : Wired (s.exec sec) := by
  refine ⟨fun j hused => ?_, h.senders⟩
  obtain ⟨hold, hid, hpn, hbuffer⟩ := section_keepsPacket s.engine hsec j hused
  obtain ⟨packet, hlen, hkey, hwire⟩ := h.slots j hold
  exact ⟨packet, hlen, by rw [hkey, ← hid, ← hpn]; rfl, hbuffer.trans hwire⟩

theorem Wired.setSender (h : Wired s) (tid : Nat) (sender : Sender)
    (hsender : ∀ packet buffer, sender.sending = some (packet, buffer) →
      quicPacketSerialize packet quicMaxPacketSize = some buffer) : Wired (s.setSender tid sender) := by
  refine ⟨h.slots, fun t packet buffer ht => ?_⟩
  by_cases htid : t = tid
  · rw [htid, SendState.setSender_self] at ht
    exact hsender packet buffer ht
  · rw [SendState.setSender_ne htid] at ht
    exact h.senders t packet buffer ht

theorem record_pending (s : SendState) (packet : QuicPacket) (buffer : Bytes) (found : Option Incarnation)
    (now : Int) (j : Fin quicMaxPending) :
    (s.record packet buffer found now).engine.pending j =
      if buffer ≠ [] ∧ packet.has quicFlagData = true ∧
        findFree QuicPendingEntry.inUse s.engine.pending = some j then packet.recorded buffer now
      else s.engine.pending j := trackPending_slot s.engine j packet buffer now

theorem Wired.record (h : Wired s) {packet : QuicPacket} {buffer : Bytes} (found : Option Incarnation)
    (now : Int) (hser : quicPacketSerialize packet quicMaxPacketSize = some buffer) :
    Wired (s.record packet buffer found now) := by
  obtain ⟨hlen, hwire⟩ := serialize_eq_wire hser
  refine ⟨fun j hused => ?_, h.senders⟩
  rw [record_pending] at hused ⊢
  split_ifs at hused ⊢
  · refine ⟨packet, hlen, rfl, ?_⟩
    rw [hwire]
    exact (wire_serialized hlen).2
  · exact h.slots j hused

theorem Wired.step (h : Wired s) (l : SendStep) : Wired (s.step l) := by
  have hcase := step_case s l
  generalize s.step l = s' at hcase ⊢
  cases hcase with
  | stay => exact h
  | run sec hsec hl => exact h.exec hsec
  | lookup sec hsec hacks => exact h.exec hsec
  | locate sec hsec hacks tid packet addr found =>
      exact (h.exec hsec).setSender tid _ (by simp [Sender.sending])
  | call tid packet addr => exact h.setSender tid _ (by simp [Sender.sending])
  | fail tid => exact h.setSender tid _ (by simp [Sender.sending])
  | put tid packet addr buffer found hl hsender hser =>
      have hnoted : Wired (s.noteSent packet) := ⟨h.slots, h.senders⟩
      exact hnoted.setSender tid _ (by simpa [Sender.sending] using hser)
  | count tid packet buffer found hsender =>
      have hser := h.senders tid packet buffer (by rw [hsender]; rfl)
      exact (h.exec (by rfl)).setSender tid _ (by simpa [Sender.sending] using hser)
  | track tid packet buffer found now hl hsender =>
      have hser := h.senders tid packet buffer (by rw [hsender]; rfl)
      exact (h.record found now hser).setSender tid _ (by simp [Sender.sending])

theorem initial_wired (handler : Bool) : Wired (.initial handler) := by
  refine ⟨fun j hused => ?_, fun tid packet buffer hsender => ?_⟩
  · cases hused
  · cases hsender

end Wired

/-! ### What a tick retransmits -/

/-- The step retransmits the DATA packet with the key. -/
def Retransmits (s : SendState) (l : SendStep) (key : UInt64 × UInt32) : Prop :=
  ∃ packet : QuicPacket, packet.key = key ∧ ∃ j addr, .resent j packet.wire addr ∈ s.outputs l

section Ticks

variable {s : SendState} {l : SendStep} {j : Fin quicMaxPending} {buffer : Bytes} {addr : SockAddr}

theorem mem_resentOn {out : List QuicOutput} :
    (buffer, addr) ∈ resentOn j out ↔ .resent j buffer addr ∈ out := by
  unfold resentOn
  rw [List.mem_filterMap]
  constructor
  · rintro ⟨o, ho, hsome⟩
    split at hsome
    · split_ifs at hsome with hslot
      obtain ⟨rfl, rfl⟩ := Prod.mk.inj (Option.some.inj hsome)
      rw [← hslot]
      exact ho
    · cases hsome
  · exact fun ho => ⟨_, ho, if_pos rfl⟩

theorem resent_slot (h : .resent j buffer addr ∈ s.outputs l) :
    ∃ now nowRetransmit sendOk, l = .other (.receiveTimeout now nowRetransmit sendOk) ∧
      ((s.engine.cleanupConnections now).pending j).inUse = true ∧
      buffer = (s.engine.pending j).buffer := by
  unfold SendState.outputs at h
  split at h
  · split at h
    · split_ifs at h <;> simp at h
    · simp at h
  · rename_i now nowRetransmit sendOk
    have hmem := mem_resentOn.mpr h
    rcases retransmit_resend (s.engine.cleanupConnections now) nowRetransmit sendOk j with
      ⟨hnone, -⟩ | ⟨hdue, -, i, -, hsent⟩
    · change (buffer, addr) ∈ resentOn j ((s.engine.cleanupConnections now).retransmitPending nowRetransmit
        sendOk).1 at hmem
      rw [hnone] at hmem
      cases hmem
    · change (buffer, addr) ∈ resentOn j ((s.engine.cleanupConnections now).retransmitPending nowRetransmit
        sendOk).1 at hmem
      rw [hsent, List.mem_singleton] at hmem
      refine ⟨now, nowRetransmit, sendOk, rfl, hdue.1, ?_⟩
      rw [(Prod.mk.inj hmem).1, (cleanup_keeps s.engine j now).used hdue.1]
  · cases h

end Ticks

/-- An INITIAL and HANDSHAKE packet of connection 7. -/
def sampleOpen : SendStep :=
  .other (.processPacket ⟨quicFlagInitial ||| quicFlagHandshake, 7, 0, 0, 0, .empty⟩ sampleAddr 0 0)

/-- A tick at second 1. -/
def sampleTick : SendStep := .other (.receiveTimeout 1 1 fun _ => true)

end OttQuic
