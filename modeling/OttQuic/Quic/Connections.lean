import OttQuic.Quic.Engine

/-!
# What the engine's functions do to its tables

One lemma per function and table, so that nothing later unfolds the engine. The clean-up acts on every
connection slot by itself (`cleanup_connections`). A packet is for at most one slot of the table after
the clean-up (`packetTarget`), and processing it rewrites that slot only (`processPacket_connections`).
-/

namespace OttQuic

open SlotTable

/-- The entry is in use and was last seen too long ago. -/
def QuicConnectionEntry.TimedOut (entry : QuicConnectionEntry) (now : Int) : Prop :=
  entry.inUse = true ∧ now - entry.lastSeen > quicConnectionTimeout

instance (entry : QuicConnectionEntry) (now : Int) : Decidable (entry.TimedOut now) :=
  inferInstanceAs (Decidable (_ ∧ _))

namespace QuicEngine

variable {engine : QuicEngine} {i : Fin quicMaxConnections} {now nowAdd : Int} {cid : UInt64}
  {packet : QuicPacket} {addr : SockAddr}

/-! ### The clean-up -/

theorem cleanupConnections_eq (engine : QuicEngine) (now : Int) :
    engine.cleanupConnections now = forSlots (fun engine i =>
      if (engine.connections i).TimedOut now then engine.closeEntry i else engine) engine := rfl

@[simp] theorem closeEntry_connections (engine : QuicEngine) (i : Fin quicMaxConnections) :
    (engine.closeEntry i).connections
      = Function.update engine.connections i (engine.connections i).close := rfl

theorem closeEntry_pending (engine : QuicEngine) (i : Fin quicMaxConnections) :
    (engine.closeEntry i).pending
      = (engine.clearPendingForConnection (engine.connections i).connectionId).pending := rfl

theorem cleanup_connections (engine : QuicEngine) (now : Int) (i : Fin quicMaxConnections) :
    (engine.cleanupConnections now).connections i
      = if (engine.connections i).TimedOut now then (engine.connections i).close
        else engine.connections i := by
  rw [cleanupConnections_eq]
  refine forSlots_observe i (fun s : QuicEngine => s.connections i)
    (fun entry : QuicConnectionEntry => if entry.TimedOut now then entry.close else entry) ?_ ?_
  · intro s j hj
    split_ifs
    · rw [closeEntry_connections, Function.update_of_ne (Ne.symm hj)]
    · rfl
  · intro s
    split_ifs
    · rw [closeEntry_connections, Function.update_self]
    · rfl

/-- The handlers that are installed. -/
def handlers (engine : QuicEngine) : Bool × Bool × Bool :=
  (engine.handler, engine.streamHandler, engine.stateHandler)

theorem cleanup_handlers (engine : QuicEngine) (now : Int) :
    (engine.cleanupConnections now).handlers = engine.handlers := by
  rw [cleanupConnections_eq]
  refine forSlots_preserves (I := fun s : QuicEngine => s.handlers = engine.handlers) rfl fun s i hs => ?_
  split_ifs
  · exact hs
  · exact hs

/-- The pending slot `j` is as before the clean-up, or dropped with a connection that timed out. -/
def KeptOrTimedOut (engine : QuicEngine) (now : Int) (j : Fin quicMaxPending)
    (entry : QuicPendingEntry) : Prop :=
  entry = engine.pending j ∨
    entry = { engine.pending j with inUse := false } ∧
      ∃ i, (engine.connections i).TimedOut now ∧
        (engine.connections i).connectionId = (engine.pending j).connectionId

theorem clearPending_pending (engine : QuicEngine) (cid : UInt64) (j : Fin quicMaxPending) :
    (engine.clearPendingForConnection cid).pending j
      = if (engine.pending j).inUse = true ∧ (engine.pending j).connectionId = cid then
          { engine.pending j with inUse := false }
        else engine.pending j := rfl

theorem cleanup_pending (engine : QuicEngine) (now : Int) (j : Fin quicMaxPending) :
    engine.KeptOrTimedOut now j ((engine.cleanupConnections now).pending j) := by
  -- along the loop a connection is as it was or no longer in use
  have hloop : (∀ i, (engine.cleanupConnections now).connections i = engine.connections i ∨
        ((engine.cleanupConnections now).connections i).inUse = false) ∧
      engine.KeptOrTimedOut now j ((engine.cleanupConnections now).pending j) := by
    rw [cleanupConnections_eq]
    refine forSlots_preserves (I := fun s : QuicEngine => (∀ i, s.connections i = engine.connections i ∨
        (s.connections i).inUse = false) ∧ engine.KeptOrTimedOut now j (s.pending j)) ?_ ?_
    · exact ⟨fun _ => Or.inl rfl, Or.inl rfl⟩
    · intro s i hs
      obtain ⟨hconn, hpend⟩ := hs
      by_cases hout : (s.connections i).TimedOut now
      · have hsame : s.connections i = engine.connections i := by
          rcases hconn i with h | h
          · exact h
          · simp [hout.1] at h
        rw [if_pos hout]
        refine ⟨fun i' => ?_, ?_⟩
        · by_cases hi : i' = i
          · subst hi
            exact Or.inr (by simp [QuicConnectionEntry.close])
          · rw [closeEntry_connections, Function.update_of_ne hi]
            exact hconn i'
        · rw [closeEntry_pending, clearPending_pending]
          split_ifs with hkey
          · right
            rcases hpend with hpend | ⟨hpend, _⟩
            · rw [hpend] at hkey ⊢
              exact ⟨rfl, i, hsame ▸ hout, by rw [← hsame, ← hkey.2]⟩
            · simp [hpend] at hkey
          · exact hpend
      · rw [if_neg hout]
        exact ⟨hconn, hpend⟩
  exact hloop.2

/-! ### The slot of a packet -/

theorem findEntry_some (h : engine.findEntry cid = some i) :
    (engine.connections i).inUse = true ∧ (engine.connections i).connectionId = cid :=
  findKey_some h

theorem findEntry_none :
    engine.findEntry cid = none ↔
      ∀ i, (engine.connections i).inUse = true → (engine.connections i).connectionId ≠ cid :=
  findKey_none

/-- The slot a packet is for, its entry when it is found or created, and which of the two. -/
structure PacketTarget where
  slot : Fin quicMaxConnections
  entry : QuicConnectionEntry
  created : Bool

/-- The entry `quic_engine_add_connection_locked` writes. -/
def newEntry (connectionId : UInt64) (addr : SockAddr) (now : Int) : QuicConnectionEntry :=
  ⟨connectionId, addr, now, .connecting, true, quicStreamManagerInit⟩

/-- The target of a packet in a table that has been cleaned up. -/
def packetTarget (engine : QuicEngine) (packet : QuicPacket) (addr : SockAddr) (now nowAdd : Int) :
    Option PacketTarget :=
  match engine.findEntry packet.connectionId with
  | some i => some ⟨i, { engine.connections i with addr := addr, lastSeen := now }, false⟩
  | none =>
    if packet.has quicFlagInitial then
      (findFree QuicConnectionEntry.inUse engine.connections).map fun i =>
        ⟨i, newEntry packet.connectionId addr nowAdd, true⟩
    else none

/-- What processing makes of the target's entry. -/
def processedEntry (entry : QuicConnectionEntry) (packet : QuicPacket) : QuicConnectionEntry :=
  if packet.has quicFlagClose then entry.close
  else if entry.state = .connecting ∧ packet.has quicFlagHandshake then { entry with state := .connected }
  else entry

/-- The packet is not refused. -/
def Delivers (entry : QuicConnectionEntry) (packet : QuicPacket) : Prop :=
  packet.has quicFlagClose = true ∨ (processedEntry entry packet).state = .connected ∨
    packet.has quicFlagInitial = true ∨ packet.has quicFlagHandshake = true

theorem packetTarget_cases {target : PacketTarget}
    (h : engine.packetTarget packet addr now nowAdd = some target) :
    target.entry.connectionId = packet.connectionId ∧ target.entry.inUse = true ∧
      ((engine.findEntry packet.connectionId = some target.slot ∧ target.created = false ∧
          target.entry = { engine.connections target.slot with addr := addr, lastSeen := now }) ∨
        (engine.findEntry packet.connectionId = none ∧ target.created = true ∧
          packet.has quicFlagInitial = true ∧ (engine.connections target.slot).inUse = false ∧
          target.entry = newEntry packet.connectionId addr nowAdd)) := by
  unfold packetTarget at h
  cases hfind : engine.findEntry packet.connectionId with
  | some i =>
      rw [hfind] at h
      obtain rfl := Option.some.inj h
      obtain ⟨hused, hid⟩ := findEntry_some hfind
      exact ⟨hid, hused, Or.inl ⟨rfl, rfl, rfl⟩⟩
  | none =>
      rw [hfind] at h
      dsimp only at h
      split_ifs at h with hinit
      obtain ⟨i, hfree, rfl⟩ := Option.map_eq_some_iff.mp h
      exact ⟨rfl, rfl, Or.inr ⟨rfl, rfl, hinit, findFree_some hfree, rfl⟩⟩

/-! ### Processing a packet -/

section ProcessEntry

variable (engine : QuicEngine) (packet : QuicPacket) (addr : SockAddr) (i : Fin quicMaxConnections)
  (created : Bool) (changed : Option (QuicConnectionState × SockAddr))

theorem processEntry_connections :
    (engine.processEntry packet addr i created changed).2.connections
      = Function.update engine.connections i (processedEntry (engine.connections i) packet) := by
  unfold processEntry processedEntry
  by_cases hclose : packet.has quicFlagClose = true
  · rw [if_pos hclose, if_pos hclose]
    rfl
  · rw [if_neg hclose, if_neg hclose]
    by_cases hconnects : (engine.connections i).state = .connecting ∧ packet.has quicFlagHandshake = true
    · cases created <;> simp [hconnects, setConnection]
    · cases created <;> simp [hconnects]

theorem processEntry_pending :
    (engine.processEntry packet addr i created changed).2.pending
      = if packet.has quicFlagClose then
          (engine.clearPendingForConnection (engine.connections i).connectionId).pending
        else engine.pending := by
  unfold processEntry
  by_cases hclose : packet.has quicFlagClose = true
  · rw [if_pos hclose, if_pos hclose, closeEntry_pending]
  · rw [if_neg hclose, if_neg hclose]
    dsimp only
    split_ifs <;> rfl

theorem processEntry_handlers :
    (engine.processEntry packet addr i created changed).2.handlers = engine.handlers := by
  unfold processEntry
  dsimp only
  split_ifs <;> rfl

theorem processEntry_isSome :
    (engine.processEntry packet addr i created changed).1.isSome = true
      ↔ Delivers (engine.connections i) packet := by
  have hstate := congrFun (engine.processEntry_connections packet addr i created changed) i
  rw [Function.update_self] at hstate
  unfold Delivers
  rw [← hstate]
  unfold processEntry
  dsimp only
  by_cases hclose : packet.has quicFlagClose = true
  · simp [hclose]
  · by_cases hconnects : (engine.connections i).state = .connecting ∧ packet.has quicFlagHandshake = true
    · cases created <;> simp [hclose, hconnects, setConnection]
    · cases created <;> simp [hclose, hconnects]

theorem processEntry_handshakeNeeded {outcome : ProcessOutcome}
    (h : (engine.processEntry packet addr i created changed).1 = some outcome) :
    outcome.handshakeNeeded = created := by
  unfold processEntry at h
  dsimp only at h
  split_ifs at h
  all_goals
    obtain rfl := Option.some.inj h
    rfl

theorem processEntry_stateChanged {outcome : ProcessOutcome}
    (h : (engine.processEntry packet addr i created changed).1 = some outcome) :
    outcome.stateChanged =
      if packet.has quicFlagClose then some (.closed, addr)
      else if (engine.connections i).state = .connecting ∧ packet.has quicFlagHandshake then
        some (.connected, addr)
      else changed := by
  unfold processEntry at h
  dsimp only at h
  by_cases hclose : packet.has quicFlagClose = true
  · rw [if_pos hclose] at h ⊢
    rw [← Option.some.inj h]
  · rw [if_neg hclose] at h ⊢
    split_ifs at h ⊢
    all_goals
      obtain rfl := Option.some.inj h
      rfl

end ProcessEntry

theorem addConnection_eq (addr : SockAddr) (now : Int) (hnone : engine.findEntry cid = none)
    (hfree : findFree QuicConnectionEntry.inUse engine.connections = some i) :
    engine.addConnection cid addr now = some (engine.setConnection i (newEntry cid addr now)) ∧
      (engine.setConnection i (newEntry cid addr now)).findEntry cid = some i := by
  refine ⟨by rw [addConnection, hfree]; rfl, ?_⟩
  unfold findEntry findKey
  refine findSlot_unique ?_ fun j hj => ?_
  · simp [setConnection, newEntry]
  · by_contra hne
    simp only [setConnection, Function.update_of_ne hne, Bool.and_eq_true, decide_eq_true_eq] at hj
    exact findEntry_none.mp hnone j hj.1 hj.2

/-- The table after the clean-up and the writes that find or create the target's entry. -/
def targeted (engine : QuicEngine) (target : PacketTarget) (migrated : Bool) : QuicEngine :=
  let engine := engine.setConnection target.slot target.entry
  if migrated then
    { engine with metrics.connectionsMigrated := engine.metrics.connectionsMigrated + 1 }
  else engine

/-- What is noted for the state handler before the target is processed: a new connection, or the state of
one that has migrated. -/
def Noted (target : PacketTarget) (addr : SockAddr) (changed : Option (QuicConnectionState × SockAddr)) :
    Prop :=
  if target.created then changed = some (.connecting, addr)
  else changed = none ∨ changed = some (target.entry.state, addr)

theorem processPacket_eq (engine : QuicEngine) (packet : QuicPacket) (addr : SockAddr)
    (now nowAdd : Int) :
    (∃ target migrated changed,
        (engine.cleanupConnections now).packetTarget packet addr now nowAdd = some target ∧
        Noted target addr changed ∧
        engine.processPacket packet addr now nowAdd
          = ((engine.cleanupConnections now).targeted target migrated).processEntry packet addr
              target.slot target.created changed) ∨
      ((engine.cleanupConnections now).packetTarget packet addr now nowAdd = none ∧
        engine.processPacket packet addr now nowAdd = (none, engine.cleanupConnections now)) := by
  unfold processPacket packetTarget
  dsimp only
  cases hfind : (engine.cleanupConnections now).findEntry packet.connectionId with
  | some i =>
      left
      set entry := (engine.cleanupConnections now).connections i
      refine ⟨_, decide (entry.addr ≠ addr),
        if entry.addr ≠ addr then some (entry.state, addr) else none, rfl, ?_, ?_⟩
      · show _ ∨ _
        split_ifs
        · exact Or.inr rfl
        · exact Or.inl rfl
      · simp only [targeted, decide_eq_true_eq]
        rfl
  | none =>
      by_cases hinit : packet.has quicFlagInitial = true
      · cases hfree : findFree QuicConnectionEntry.inUse (engine.cleanupConnections now).connections with
        | none =>
            right
            simp [hinit, addConnection, hfree]
        | some i =>
            left
            obtain ⟨hadd, hagain⟩ := addConnection_eq addr nowAdd hfind hfree
            refine ⟨⟨i, newEntry packet.connectionId addr nowAdd, true⟩, false,
              some (.connecting, addr), by simp [hinit], rfl, ?_⟩
            simp [hinit, hadd, hagain, targeted]
      · right
        simp [hinit]

@[simp] theorem targeted_connections (target : PacketTarget) (migrated : Bool) :
    (engine.targeted target migrated).connections
      = Function.update engine.connections target.slot target.entry := by
  cases migrated <;> rfl

@[simp] theorem targeted_pending (target : PacketTarget) (migrated : Bool) :
    (engine.targeted target migrated).pending = engine.pending := by
  cases migrated <;> rfl

@[simp] theorem targeted_handlers (target : PacketTarget) (migrated : Bool) :
    (engine.targeted target migrated).handlers = engine.handlers := by
  cases migrated <;> rfl

/-- **What processing a packet does to the tables**: nothing beyond the clean-up, or it rewrites the
entry of its target, and a CLOSE drops the pending packets of the connection. -/
theorem processPacket_spec (engine : QuicEngine) (packet : QuicPacket) (addr : SockAddr)
    (now nowAdd : Int) :
    let start := engine.cleanupConnections now
    let result := engine.processPacket packet addr now nowAdd
    result.2.handlers = engine.handlers ∧
      match start.packetTarget packet addr now nowAdd with
      | none => result = (none, start)
      | some target =>
        result.2.connections
            = Function.update start.connections target.slot (processedEntry target.entry packet) ∧
          result.2.pending
            = (if packet.has quicFlagClose then
                (start.clearPendingForConnection packet.connectionId).pending
              else start.pending) ∧
          (result.1.isSome = true ↔ Delivers target.entry packet) ∧
          (∀ outcome, result.1 = some outcome → outcome.handshakeNeeded = target.created) := by
  intro start result
  rcases engine.processPacket_eq packet addr now nowAdd with
    ⟨target, migrated, changed, htarget, -, hresult⟩ | ⟨htarget, hresult⟩
  · have hslot : (start.targeted target migrated).connections target.slot = target.entry := by simp
    have hid := (packetTarget_cases htarget).1
    refine ⟨?_, ?_⟩
    · show (engine.processPacket packet addr now nowAdd).2.handlers = _
      rw [hresult, processEntry_handlers, targeted_handlers, cleanup_handlers]
    · rw [htarget]
      simp only [result, hresult]
      refine ⟨?_, ?_, ?_, fun outcome hout => processEntry_handshakeNeeded _ _ _ _ _ _ hout⟩
      · rw [processEntry_connections, hslot, targeted_connections, Function.update_idem]
      · rw [processEntry_pending, hslot, hid]
        unfold clearPendingForConnection
        rw [targeted_pending]
      · rw [processEntry_isSome, hslot]
  · rw [htarget]
    refine ⟨?_, hresult⟩
    show (engine.processPacket packet addr now nowAdd).2.handlers = _
    rw [hresult, cleanup_handlers]

/-! ### The tick of the retransmission -/

theorem retransmitSlot_cases (now : Int) (sendOk : Fin quicMaxPending → Bool)
    (s : List QuicOutput × QuicEngine) (j : Fin quicMaxPending) :
    retransmitSlot now sendOk s j = s ∨ (∃ entry, retransmitSlot now sendOk s j = (s.1, s.2.setPending j entry)) ∨
      (∃ buffer addr entry sent, retransmitSlot now sendOk s j =
        (s.1 ++ [.resent j buffer addr],
          { s.2.setPending j entry with metrics := { s.2.metrics with packetsSent := sent } })) ∨
      ∃ entry, retransmitSlot now sendOk s j = (s.1 ++ [.resendFailed j], s.2.setPending j entry) := by
  unfold retransmitSlot
  dsimp only
  split
  · exact .inl rfl
  split
  · exact .inl rfl
  split
  · exact .inr (.inl ⟨_, rfl⟩)
  split
  · exact .inr (.inr (.inl ⟨_, _, _, _, rfl⟩))
  · exact .inr (.inr (.inr ⟨_, rfl⟩))

theorem retransmitPending_frame {β : Type*} (f : QuicEngine → β)
    (hpending : ∀ engine j entry, f (setPending engine j entry) = f engine)
    (hsent : ∀ (engine : QuicEngine) sent, f { engine with metrics := { engine.metrics with packetsSent := sent } } = f engine)
    (engine : QuicEngine) (now : Int) (sendOk : Fin quicMaxPending → Bool) :
    f (engine.retransmitPending now sendOk).2 = f engine := by
  unfold retransmitPending
  refine forSlots_preserves (I := fun s : List QuicOutput × QuicEngine => f s.2 = f engine) rfl fun s j hs => ?_
  obtain heq | ⟨entry, heq⟩ | ⟨buffer, addr, entry, sent, heq⟩ | ⟨entry, heq⟩ := retransmitSlot_cases now sendOk s j
  · rw [heq, hs]
  · rw [heq, hpending, hs]
  · rw [heq, ← hs, ← hpending s.2 j entry]
    exact hsent (s.2.setPending j entry) sent
  · rw [heq, hpending, hs]

theorem mem_retransmitPending {engine : QuicEngine} {now : Int} {sendOk : Fin quicMaxPending → Bool} {o : QuicOutput}
    (h : o ∈ (engine.retransmitPending now sendOk).1) :
    (∃ j buffer addr, o = .resent j buffer addr) ∨ ∃ j, o = .resendFailed j := by
  revert h
  unfold retransmitPending
  refine forSlots_preserves (I := fun s : List QuicOutput × QuicEngine => o ∈ s.1 →
    (∃ j buffer addr, o = .resent j buffer addr) ∨ ∃ j, o = .resendFailed j) ?_ fun s j hs => ?_
  · exact fun h => absurd h List.not_mem_nil
  · obtain heq | ⟨entry, heq⟩ | ⟨buffer, addr, entry, sent, heq⟩ | ⟨entry, heq⟩ := retransmitSlot_cases now sendOk s j
    · rwa [heq]
    · rwa [heq]
    · rw [heq]
      intro h
      obtain hold | hnew := List.mem_append.mp h
      · exact hs hold
      · exact .inl ⟨j, buffer, addr, List.mem_singleton.mp hnew⟩
    · rw [heq]
      intro h
      obtain hold | hnew := List.mem_append.mp h
      · exact hs hold
      · exact .inr ⟨j, List.mem_singleton.mp hnew⟩

end QuicEngine

end OttQuic
