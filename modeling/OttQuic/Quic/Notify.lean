import OttQuic.Quic.SentPackets

/-!
# State notifications

The state handler is called for what a packet does to its connection and by `close_connection`; the clean-up
that closes what has timed out calls nobody. `op_watched` says, for one operation and one connection, what
the table shows before and after it and what is reported: the last report is the state in the table, and
every CLOSED that is not a time-out is reported once. So reports and table agree in exactly the runs in
which nothing times out (`reports_track_iff`).
-/

namespace OttQuic

open SlotTable QuicEngine

/-- The state that is reported for the connection, if this is such a call. -/
def QuicOutput.report? (cid : UInt64) : QuicOutput → Option QuicConnectionState
  | state connectionId reported _ => if connectionId = cid then some reported else none
  | _ => none

/-- The states reported for the connection, in call order. -/
def reportsFor (cid : UInt64) (out : List QuicOutput) : List QuicConnectionState :=
  out.filterMap (QuicOutput.report? cid)

theorem reportsFor_append (cid : UInt64) (out out' : List QuicOutput) :
    reportsFor cid (out ++ out') = reportsFor cid out ++ reportsFor cid out' :=
  List.filterMap_append

namespace QuicEngine

/-- The state of the connection's entry in use. -/
def lookupState (engine : QuicEngine) (cid : UInt64) : Option QuicConnectionState :=
  (engine.findEntry cid).map fun i => (engine.connections i).state

/-- The current state of a connection: CLOSED when it has no entry in use. -/
def currentState (engine : QuicEngine) (cid : UInt64) : QuicConnectionState :=
  (engine.lookupState cid).getD .closed

/-- An entry of the connection is timed out. -/
def timesOut (engine : QuicEngine) (now : Int) (cid : UInt64) : Bool :=
  decide (∃ i, (engine.connections i).TimedOut now ∧ (engine.connections i).connectionId = cid)

end QuicEngine

namespace EngineOp

/-- The clean-up with which the operation begins closes the connection. -/
def timedOut (engine : QuicEngine) (cid : UInt64) (op : EngineOp) : Bool :=
  (op.cleanupTime.map fun now => engine.timesOut now cid).getD false

/-- The operation closes the connection after the clean-up: an accepted CLOSE, or `close_connection`. -/
def closed (engine : QuicEngine) (cid : UInt64) : EngineOp → Bool
  | receive datagram addr env =>
    match quicPacketDeserialize (datagram.take quicMaxPacketSize) with
    | some packet =>
      decide (packet.connectionId = cid) && packet.has quicFlagClose &&
        ((engine.cleanupConnections env.now).packetTarget packet addr env.now env.nowAdd).isSome
    | none => false
  | closeConnection connectionId _ =>
    decide (connectionId = cid) &&
      (engine.findEntry connectionId).any fun i => (engine.connections i).state ≠ .closed
  | _ => false

/-- How often the operation takes the connection to CLOSED. -/
def transitions (engine : QuicEngine) (cid : UInt64) (op : EngineOp) : Nat :=
  (op.timedOut engine cid).toNat + (op.closed engine cid).toNat

/-- The operation creates an entry for the connection. -/
def creates (engine : QuicEngine) (cid : UInt64) : EngineOp → Bool
  | receive datagram addr env =>
    match quicPacketDeserialize (datagram.take quicMaxPacketSize) with
    | some packet =>
      decide (packet.connectionId = cid) &&
        ((engine.cleanupConnections env.now).packetTarget packet addr env.now env.nowAdd).any
          PacketTarget.created
    | none => false
  | _ => false

/-- The engine after the clean-up with which the operation begins. -/
def cleaned (engine : QuicEngine) (op : EngineOp) : QuicEngine :=
  match op.cleanupTime with
  | some now => engine.cleanupConnections now
  | none => engine

end EngineOp

/-- What one operation reports for a connection, by what the table shows of it after the clean-up and after
the operation. -/
inductive Watched (before after : Option QuicConnectionState) (created closed : Bool) :
    List QuicConnectionState → Prop
  | silent (hsame : after = before) (hcreated : created = false) (hclosed : closed = false) :
      Watched before after created closed []
  | reported (state : QuicConnectionState) (hafter : after = some state) (hopen : state ≠ .closed)
      (hclosed : closed = false) : Watched before after created closed [state]
  | closed (hafter : after = none) (hclosed : closed = true) : Watched before after created closed [.closed]

/-! ### Lookups -/

section Lookup

variable {engine engine' : QuicEngine} {cid : UInt64} {st : QuicConnectionState}

/-- What a lookup sees of the table. -/
def QuicEngine.view (engine : QuicEngine) (i : Fin quicMaxConnections) : Bool × UInt64 × QuicConnectionState :=
  ((engine.connections i).inUse, (engine.connections i).connectionId, (engine.connections i).state)

theorem lookupState_congr (h : engine.view = engine'.view) (cid : UInt64) :
    engine.lookupState cid = engine'.lookupState cid := by
  have hslot : ∀ i, engine.view i = engine'.view i := fun i => congrFun h i
  simp only [view, Prod.mk.injEq] at hslot
  have hfind : engine.findEntry cid = engine'.findEntry cid := by
    unfold findEntry findKey
    refine findSlot_congr fun i => ?_
    rw [(hslot i).1, (hslot i).2.1]
  rw [lookupState, lookupState, hfind]
  simp only [(hslot _).2.2]

theorem lookupState_eq_some
    (h : UniqueKeys QuicConnectionEntry.inUse QuicConnectionEntry.connectionId engine.connections) :
    engine.lookupState cid = some st ↔ ∃ i, (engine.connections i).inUse = true ∧
      (engine.connections i).connectionId = cid ∧ (engine.connections i).state = st := by
  rw [lookupState, Option.map_eq_some_iff]
  constructor
  · rintro ⟨i, hfind, hstate⟩
    exact ⟨i, (findEntry_some hfind).1, (findEntry_some hfind).2, hstate⟩
  · rintro ⟨i, hused, hid, hstate⟩
    exact ⟨i, h.findKey_eq hused hid, hstate⟩

theorem lookupState_eq_none : engine.lookupState cid = none ↔ engine.findEntry cid = none :=
  Option.map_eq_none_iff

theorem lookupState_eq_of_iff
    (h : UniqueKeys QuicConnectionEntry.inUse QuicConnectionEntry.connectionId engine.connections)
    (h' : UniqueKeys QuicConnectionEntry.inUse QuicConnectionEntry.connectionId engine'.connections)
    (hsame : ∀ i, (engine.connections i).connectionId = cid ∧ (engine.connections i).inUse = true ∨
        (engine'.connections i).connectionId = cid ∧ (engine'.connections i).inUse = true →
      engine.view i = engine'.view i) :
    engine.lookupState cid = engine'.lookupState cid := by
  refine Option.ext fun st => ?_
  rw [lookupState_eq_some h, lookupState_eq_some h']
  refine exists_congr fun i => ?_
  simp only [view, Prod.mk.injEq] at hsame
  constructor
  · rintro ⟨hused, hid, hstate⟩
    obtain ⟨h1, h2, h3⟩ := hsame i (Or.inl ⟨hid, hused⟩)
    exact ⟨h1 ▸ hused, h2 ▸ hid, h3 ▸ hstate⟩
  · rintro ⟨hused, hid, hstate⟩
    obtain ⟨h1, h2, h3⟩ := hsame i (Or.inr ⟨hid, hused⟩)
    exact ⟨h1 ▸ hused, h2 ▸ hid, h3 ▸ hstate⟩

theorem lookupState_cleanup (hok : TableOk engine) (now : Int) (cid : UInt64) :
    (engine.cleanupConnections now).lookupState cid =
      if engine.timesOut now cid then none else engine.lookupState cid := by
  split_ifs with hout
  · obtain ⟨i, hi, hid⟩ := of_decide_eq_true hout
    rw [lookupState_eq_none, findEntry_none]
    intro j hj hjid
    rw [cleanup_connections] at hj hjid
    split_ifs at hj hjid with hjout
    · exact Bool.noConfusion hj
    · exact hjout ((hok.unique j i hj hi.1 (hjid.trans hid.symm)) ▸ hi)
  · have hnone : ∀ i, (engine.connections i).connectionId = cid → ¬ (engine.connections i).TimedOut now :=
      fun i hid hi => hout (decide_eq_true ⟨i, hi, hid⟩)
    refine lookupState_eq_of_iff (cleanup_unique hok now) hok.unique fun i hi => ?_
    have hid : (engine.connections i).connectionId = cid := by
      rw [cleanup_connections] at hi
      split_ifs at hi
      · exact hi.elim And.left And.left
      · exact hi.elim And.left And.left
    rw [view, view, cleanup_connections, if_neg (hnone i hid)]

theorem lookupState_update_other {i : Fin quicMaxConnections} {entry : QuicConnectionEntry}
    (h : UniqueKeys QuicConnectionEntry.inUse QuicConnectionEntry.connectionId engine.connections)
    (h' : UniqueKeys QuicConnectionEntry.inUse QuicConnectionEntry.connectionId engine'.connections)
    (htable : engine'.connections = Function.update engine.connections i entry)
    (hold : (engine.connections i).inUse = true → (engine.connections i).connectionId ≠ cid)
    (hnew : entry.connectionId ≠ cid) : engine'.lookupState cid = engine.lookupState cid := by
  refine lookupState_eq_of_iff h' h fun j hj => ?_
  rw [view, view, htable]
  by_cases hji : j = i
  · subst hji
    rw [htable, Function.update_self] at hj
    rcases hj with hj | hj
    · exact absurd hj.1 hnew
    · exact absurd hj.1 (hold hj.2)
  · rw [Function.update_of_ne hji]

end Lookup

/-! ### Received packets -/

section Receive

variable {engine : QuicEngine} {datagram : Bytes} {packet : QuicPacket} {addr : SockAddr}
  {env : ReceiveEnv}

theorem stateHandler_of_handlers {engine engine' : QuicEngine} (h : engine.handlers = engine'.handlers) :
    engine.stateHandler = engine'.stateHandler :=
  congrArg (fun installed : Bool × Bool × Bool => installed.2.2) h

theorem send_reports (cid : UInt64) (engine : QuicEngine) (packet : QuicPacket) (addr : SockAddr)
    (env : SendEnv) : reportsFor cid (engine.send packet addr env).out = [] := by
  rw [send_out]
  split_ifs <;> rfl

theorem view_of_connections {engine engine' : QuicEngine} (h : engine.connections = engine'.connections) :
    engine.view = engine'.view := by
  unfold view
  rw [h]

theorem setConnection_view {engine : QuicEngine} {i : Fin quicMaxConnections} {entry : QuicConnectionEntry}
    (hused : entry.inUse = (engine.connections i).inUse)
    (hid : entry.connectionId = (engine.connections i).connectionId)
    (hstate : entry.state = (engine.connections i).state) : (engine.setConnection i entry).view = engine.view := by
  funext j
  rw [view, view, setConnection]
  dsimp only
  by_cases hj : j = i
  · subst hj
    rw [Function.update_self, hused, hid, hstate]
  · rw [Function.update_of_ne hj]

theorem deliver_frame (engine : QuicEngine) (packet : QuicPacket) (alloc : SegmentAlloc) :
    (engine.deliver packet alloc).2.view = engine.view ∧
      (engine.deliver packet alloc).2.handlers = engine.handlers ∧
      ∀ cid, reportsFor cid (engine.deliver packet alloc).1 = [] := by
  unfold QuicEngine.deliver
  cases engine.findEntry packet.connectionId with
  | none => exact ⟨rfl, rfl, fun _ => rfl⟩
  | some i =>
      have hview : (engine.onData i (streamCall packet alloc)).2.view = engine.view :=
        setConnection_view rfl rfl rfl
      dsimp only
      split_ifs
      · refine ⟨hview, rfl, fun cid => ?_⟩
        rw [emitStreamData]
        split_ifs <;> rfl
      · exact ⟨hview, rfl, fun _ => rfl⟩

theorem deliverAndAck_frame (engine : QuicEngine) (packet : QuicPacket) (addr : SockAddr)
    (env : ReceiveEnv) :
    (engine.deliverAndAck packet addr env).2.view = engine.view ∧
      (engine.deliverAndAck packet addr env).2.handlers = engine.handlers ∧
      ∀ cid, reportsFor cid (engine.deliverAndAck packet addr env).1 = [] := by
  obtain ⟨hview, hhandlers, hreports⟩ := deliver_frame engine packet env.alloc
  unfold QuicEngine.deliverAndAck
  split_ifs
  · refine ⟨(view_of_connections (send_connections _ _ _ _)).trans hview,
      (send_handlers _ _ _ _).trans hhandlers, fun cid => ?_⟩
    dsimp only
    rw [reportsFor_append, hreports, send_reports, List.append_nil]
  · exact ⟨rfl, rfl, fun _ => rfl⟩

theorem answerHandshake_reports (engine : QuicEngine) (packet : QuicPacket) (addr : SockAddr)
    (env : ReceiveEnv) (outcome : ProcessOutcome) (cid : UInt64) :
    reportsFor cid (engine.answerHandshake packet addr env outcome).out = [] := by
  unfold QuicEngine.answerHandshake
  split_ifs
  · exact send_reports _ _ _ _ _
  · rfl

/-- After processing, an accepted packet changes no entry but in its streams, and reports its state. -/
theorem receive_frame {outcome : ProcessOutcome}
    (hparse : quicPacketDeserialize (datagram.take quicMaxPacketSize) = some packet)
    (h : ((engine.beforeProcess packet).processPacket packet addr env.now env.nowAdd).1 = some outcome) :
    let processed := ((engine.beforeProcess packet).processPacket packet addr env.now env.nowAdd).2
    (engine.receive datagram addr env).2.view = processed.view ∧
      (engine.receive datagram addr env).2.handlers = processed.handlers ∧
      ∀ cid, reportsFor cid (engine.receive datagram addr env).1 =
        reportsFor cid (processed.notifyState packet outcome) := by
  intro processed
  obtain ⟨hconn, hhandlers, -⟩ := answerHandshake_frame processed packet addr env outcome
  obtain ⟨hview, hdhandlers, hreports⟩ :=
    deliverAndAck_frame (processed.answerHandshake packet addr env outcome).engine packet addr env
  rw [receive_parts hparse h]
  refine ⟨hview.trans (view_of_connections hconn), hdhandlers.trans hhandlers, fun cid => ?_⟩
  dsimp only [processed] at hreports ⊢
  rw [reportsFor_append, reportsFor_append, reportsFor_append, answerHandshake_reports, hreports,
    List.append_nil, List.append_nil]
  split_ifs
  · exact List.append_nil _
  · exact List.append_nil _

theorem notifyState_some {processed : QuicEngine} {outcome : ProcessOutcome} {st : QuicConnectionState}
    {stateAddr : SockAddr} (hhandler : processed.stateHandler = true)
    (h : outcome.stateChanged = some (st, stateAddr)) (hidle : st ≠ .idle) :
    reportsFor packet.connectionId (processed.notifyState packet outcome) = [st] := by
  rw [QuicEngine.notifyState, h]
  dsimp only
  rw [if_pos hidle, emitState, if_pos hhandler]
  simp [reportsFor, QuicOutput.report?]

theorem notifyState_none {processed : QuicEngine} {outcome : ProcessOutcome} {cid : UInt64}
    (h : outcome.stateChanged = none) : reportsFor cid (processed.notifyState packet outcome) = [] := by
  rw [QuicEngine.notifyState, h]
  rfl

theorem notifyState_other {processed : QuicEngine} {outcome : ProcessOutcome} {cid : UInt64}
    (h : packet.connectionId ≠ cid) : reportsFor cid (processed.notifyState packet outcome) = [] := by
  unfold QuicEngine.notifyState emitState
  split
  · split_ifs
    · simp [reportsFor, QuicOutput.report?, h]
    · rfl
    · rfl
  · rfl

theorem processed_watched {target : PacketTarget} {processed : QuicEngine} {outcome : ProcessOutcome}
    {changed : Option (QuicConnectionState × SockAddr)} (hok : TableOk engine)
    (htarget : (engine.cleanupConnections env.now).packetTarget packet addr env.now env.nowAdd =
      some target)
    (hnoted : Noted target addr changed)
    (hchanged : outcome.stateChanged =
      if packet.has quicFlagClose then some (.closed, addr)
      else if target.entry.state = .connecting ∧ packet.has quicFlagHandshake then some (.connected, addr)
      else changed)
    (htable : processed.connections = Function.update (engine.cleanupConnections env.now).connections
      target.slot (processedEntry target.entry packet))
    (hhandler : processed.stateHandler = true) :
    Watched ((engine.cleanupConnections env.now).lookupState packet.connectionId)
      (processed.lookupState packet.connectionId) target.created (packet.has quicFlagClose)
      (reportsFor packet.connectionId (processed.notifyState packet outcome)) := by
  have hfind := findEntry_processed (cleanup_unique hok env.now) htarget htable
  cases hclose : packet.has quicFlagClose with
  | true =>
      rw [hclose, if_pos rfl] at hfind
      rw [hclose, if_pos rfl] at hchanged
      rw [notifyState_some hhandler hchanged (by decide)]
      exact .closed (lookupState_eq_none.mpr hfind) rfl
  | false =>
      rw [hclose, if_neg Bool.false_ne_true] at hfind
      have hafter : processed.lookupState packet.connectionId =
          some (processedEntry target.entry packet).state := by
        rw [lookupState, hfind, Option.map_some, htable, Function.update_self]
      rw [processedEntry_state hclose] at hafter
      rw [hclose, if_neg Bool.false_ne_true] at hchanged
      by_cases hconnects : target.entry.state = .connecting ∧ packet.has quicFlagHandshake = true
      · rw [if_pos hconnects] at hafter hchanged
        rw [notifyState_some hhandler hchanged (by decide)]
        exact .reported .connected hafter (by decide) rfl
      · rw [if_neg hconnects] at hafter hchanged
        have hlive := target_state hok htarget
        have hidle : target.entry.state ≠ .idle := by rcases hlive with h | h <;> rw [h] <;> decide
        have hopen : target.entry.state ≠ .closed := by rcases hlive with h | h <;> rw [h] <;> decide
        obtain ⟨-, -, hwhich⟩ := packetTarget_cases htarget
        rw [Noted] at hnoted
        rcases hwhich with ⟨hbefore, hcreated, hentry⟩ | ⟨-, hcreated, -, -, hentry⟩
        · rw [hcreated, if_neg Bool.false_ne_true] at hnoted
          rw [hcreated]
          rcases hnoted with rfl | rfl
          · rw [notifyState_none hchanged]
            refine .silent ?_ rfl rfl
            rw [hafter, lookupState, hbefore, Option.map_some, hentry]
          · rw [notifyState_some hhandler hchanged hidle]
            exact .reported _ hafter hopen rfl
        · rw [hcreated, if_pos rfl] at hnoted
          rw [notifyState_some hhandler (hchanged.trans hnoted) (by decide)]
          refine .reported .connecting ?_ (by decide) rfl
          rw [hafter, hentry]
          rfl

theorem closed_receive
    (hparse : quicPacketDeserialize (datagram.take quicMaxPacketSize) = some packet) (cid : UInt64) :
    (EngineOp.receive datagram addr env).closed engine cid =
      (decide (packet.connectionId = cid) && packet.has quicFlagClose &&
        ((engine.cleanupConnections env.now).packetTarget packet addr env.now env.nowAdd).isSome) := by
  simp only [EngineOp.closed, hparse]

theorem creates_receive
    (hparse : quicPacketDeserialize (datagram.take quicMaxPacketSize) = some packet) (cid : UInt64) :
    (EngineOp.receive datagram addr env).creates engine cid =
      (decide (packet.connectionId = cid) &&
        ((engine.cleanupConnections env.now).packetTarget packet addr env.now env.nowAdd).any
          PacketTarget.created) := by
  simp only [EngineOp.creates, hparse]

theorem refused_lookupState {target : PacketTarget} {processed : QuicEngine} (hok : TableOk engine)
    (htarget : (engine.cleanupConnections env.now).packetTarget packet addr env.now env.nowAdd =
      some target)
    (htable : processed.connections = Function.update (engine.cleanupConnections env.now).connections
      target.slot (processedEntry target.entry packet))
    (hrefused : ¬ Delivers target.entry packet) :
    processed.lookupState packet.connectionId =
        (engine.cleanupConnections env.now).lookupState packet.connectionId ∧
      target.created = false ∧ packet.has quicFlagClose = false := by
  have hfind := findEntry_processed (cleanup_unique hok env.now) htarget htable
  unfold Delivers at hrefused
  simp only [not_or, Bool.not_eq_true] at hrefused
  obtain ⟨hclose, -, hinit, hhand⟩ := hrefused
  obtain ⟨-, -, ⟨hbefore, hcreated, hentry⟩ | ⟨-, -, hinitial, -, -⟩⟩ := packetTarget_cases htarget
  · refine ⟨?_, hcreated, hclose⟩
    rw [hclose, if_neg Bool.false_ne_true] at hfind
    have hstay : ¬ (target.entry.state = .connecting ∧ packet.has quicFlagHandshake = true) := by
      rw [hhand]
      exact fun h => Bool.false_ne_true h.2
    rw [lookupState, hfind, lookupState, hbefore, Option.map_some, Option.map_some, htable,
      Function.update_self, processedEntry_state hclose, if_neg hstay, hentry]
  · rw [hinitial] at hinit
    exact Bool.noConfusion hinit

theorem processed_other {target : PacketTarget} {processed : QuicEngine} {cid : UInt64} (hok : TableOk engine)
    (hunique : UniqueKeys QuicConnectionEntry.inUse QuicConnectionEntry.connectionId processed.connections)
    (htarget : (engine.cleanupConnections env.now).packetTarget packet addr env.now env.nowAdd =
      some target)
    (htable : processed.connections = Function.update (engine.cleanupConnections env.now).connections
      target.slot (processedEntry target.entry packet))
    (hcid : packet.connectionId ≠ cid) :
    processed.lookupState cid = (engine.cleanupConnections env.now).lookupState cid := by
  obtain ⟨hid, -, hwhich⟩ := packetTarget_cases htarget
  refine lookupState_update_other (cleanup_unique hok env.now) hunique htable (fun hused => ?_) ?_
  · rcases hwhich with ⟨hbefore, -, -⟩ | ⟨-, -, -, hfree, -⟩
    · rw [(findEntry_some hbefore).2]
      exact hcid
    · rw [hfree] at hused
      exact Bool.noConfusion hused
  · rw [processedEntry_connectionId, hid]
    exact hcid

/-- **A received packet**, as the state handler and the table show it. -/
theorem receive_watched (hok : TableOk engine) (hhandler : engine.stateHandler = true)
    (hparse : quicPacketDeserialize (datagram.take quicMaxPacketSize) = some packet) (cid : UInt64) :
    Watched ((engine.cleanupConnections env.now).lookupState cid)
      ((engine.receive datagram addr env).2.lookupState cid)
      ((EngineOp.receive datagram addr env).creates engine cid)
      ((EngineOp.receive datagram addr env).closed engine cid)
      (reportsFor cid (engine.receive datagram addr env).1) := by
  have hconn := beforeProcess_connections engine packet
  have hcleanup := cleanup_connections_congr hconn env.now
  have hbeforeOk : TableOk (engine.beforeProcess packet) := ⟨by rw [hconn]; exact hok.unique, fun i => by
    rw [hconn]; exact hok.state i⟩
  have hunique := processPacket_unique hbeforeOk packet addr env.now env.nowAdd
  obtain ⟨hhandlers, hspec⟩ :=
    (engine.beforeProcess packet).processPacket_spec packet addr env.now env.nowAdd
  have hinstalled : ((engine.beforeProcess packet).processPacket packet addr env.now env.nowAdd).2.stateHandler
      = true := by
    rw [stateHandler_of_handlers (hhandlers.trans (beforeProcess_handlers engine packet)), hhandler]
  rw [packetTarget_congr hcleanup] at hspec
  rw [closed_receive hparse, creates_receive hparse]
  rcases (engine.beforeProcess packet).processPacket_eq packet addr env.now env.nowAdd with
    ⟨target, migrated, changed, htarget, hnoted, hresult⟩ | ⟨htarget, hresult⟩
  · rw [packetTarget_congr hcleanup] at htarget
    rw [htarget] at hspec ⊢
    obtain ⟨htable, -, hsome, -⟩ := hspec
    rw [hcleanup] at htable
    by_cases hcid : packet.connectionId = cid
    · subst hcid
      rw [decide_eq_true (rfl : packet.connectionId = packet.connectionId), Bool.true_and, Bool.true_and,
        Option.isSome_some, Bool.and_true, Option.any_some]
      cases houtcome : ((engine.beforeProcess packet).processPacket packet addr env.now env.nowAdd).1 with
      | none =>
          have hrefused : ¬ Delivers target.entry packet := fun h => by
            have hout := hsome.mpr h
            rw [houtcome] at hout
            exact Bool.noConfusion hout
          obtain ⟨hsame, hcreated, hclose⟩ := refused_lookupState hok htarget htable hrefused
          rw [receive_refused hparse houtcome]
          exact .silent hsame hcreated hclose
      | some outcome =>
          obtain ⟨hview, -, hreports⟩ := receive_frame hparse houtcome
          rw [lookupState_congr hview, hreports]
          rw [hresult] at houtcome
          have hchanged := processEntry_stateChanged _ _ _ _ _ _ houtcome
          rw [targeted_connections, Function.update_self] at hchanged
          exact processed_watched hok htarget hnoted hchanged htable hinstalled
    · rw [decide_eq_false hcid, Bool.false_and, Bool.false_and]
      have hsame := processed_other hok hunique htarget htable hcid
      cases houtcome : ((engine.beforeProcess packet).processPacket packet addr env.now env.nowAdd).1 with
      | none =>
          rw [receive_refused hparse houtcome]
          exact .silent hsame rfl rfl
      | some outcome =>
          obtain ⟨hview, -, hreports⟩ := receive_frame hparse houtcome
          rw [lookupState_congr hview, hreports, notifyState_other hcid]
          exact .silent hsame rfl rfl
  · rw [packetTarget_congr hcleanup] at htarget
    rw [htarget, receive_refused hparse (by rw [hresult]), hresult]
    refine .silent (lookupState_congr (view_of_connections hcleanup) cid) ?_ ?_
    · exact Bool.and_false _
    · exact Bool.and_false _

end Receive

/-! ### Operations -/

section Operations

variable {engine : QuicEngine} {cid : UInt64}

theorem silent_of_view {engine' : QuicEngine} (h : engine'.view = engine.view) :
    Watched (engine.lookupState cid) (engine'.lookupState cid) false false [] :=
  .silent (lookupState_congr h cid) rfl rfl

theorem receiveTimeout_reports (engine : QuicEngine) (now : Int) (sendOk : Fin quicMaxPending → Bool)
    (cid : UInt64) : reportsFor cid (engine.retransmitPending now sendOk).1 = [] := by
  rw [reportsFor, List.filterMap_eq_nil_iff]
  intro o ho
  obtain ⟨j, buffer, addr, rfl⟩ | ⟨j, rfl⟩ := mem_retransmitPending ho <;> rfl

theorem getConnection_view (engine : QuicEngine) (cid : UInt64) (now : Int) :
    (engine.getConnection cid now).2.view = (engine.cleanupConnections now).view := by
  unfold QuicEngine.getConnection
  dsimp only
  cases (engine.cleanupConnections now).findEntry cid with
  | none => rfl
  | some i =>
      dsimp only
      split_ifs
      · exact setConnection_view (by rfl) (by rfl) (by rfl)
      · rfl

theorem closeConnection_watched (hok : TableOk engine) (hhandler : engine.stateHandler = true)
    (connectionId : UInt64) (env : SendEnv) (cid : UInt64) :
    Watched (engine.lookupState cid) ((engine.closeConnection connectionId env).engine.lookupState cid) false
      ((EngineOp.closeConnection connectionId env).closed engine cid)
      (reportsFor cid (engine.closeConnection connectionId env).out) := by
  have hunique := (step_tableOk hok (.closeLocked connectionId)).unique
  change UniqueKeys _ _ (engine.closeLocked connectionId).2.connections at hunique
  have hclosed : (EngineOp.closeConnection connectionId env).closed engine cid =
      (decide (connectionId = cid) &&
        (engine.findEntry connectionId).any fun i => (engine.connections i).state ≠ .closed) := rfl
  rw [hclosed]
  unfold QuicEngine.closeConnection
  unfold QuicEngine.closeLocked at hunique ⊢
  cases hfind : engine.findEntry connectionId with
  | none => exact .silent rfl rfl (Bool.and_false _)
  | some i =>
      obtain ⟨hused, hid⟩ := findEntry_some hfind
      rw [hfind] at hunique
      dsimp only at hunique ⊢
      by_cases hopen : (engine.connections i).state ≠ .closed
      · rw [if_pos hopen] at hunique ⊢
        dsimp only at hunique ⊢
        have hinstalled : ((engine.closeEntry i).send (closePacket connectionId)
            (engine.connections i).addr env).engine.stateHandler = true := by
          rw [stateHandler_of_handlers (send_handlers _ _ _ _)]
          exact hhandler
        rw [lookupState_congr (view_of_connections (send_connections _ _ _ _)), reportsFor_append, send_reports,
          List.nil_append, emitState, if_pos hinstalled, Option.any_some, decide_eq_true hopen, Bool.and_true]
        by_cases hcid : connectionId = cid
        · subst hcid
          have hreport : reportsFor connectionId [QuicOutput.state connectionId .closed
              (engine.connections i).addr] = [.closed] := by
            simp [reportsFor, QuicOutput.report?]
          rw [hreport]
          refine .closed (lookupState_eq_none.mpr (findEntry_none.mpr fun j hj hjid => ?_))
            (decide_eq_true rfl)
          rw [closeEntry_connections] at hj hjid
          by_cases hji : j = i
          · subst hji
            rw [Function.update_self] at hj
            exact Bool.noConfusion hj
          · rw [Function.update_of_ne hji] at hj hjid
            exact hji (hok.unique j i hj hused (hjid.trans hid.symm))
        · have hreport : reportsFor cid [QuicOutput.state connectionId .closed
              (engine.connections i).addr] = [] := by
            simp [reportsFor, QuicOutput.report?, hcid]
          rw [hreport]
          refine .silent (lookupState_update_other hok.unique hunique (closeEntry_connections engine i)
            (fun _ => ?_) ?_) rfl (decide_eq_false hcid)
          · rw [hid]
            exact hcid
          · rw [QuicConnectionEntry.close, hid]
            exact hcid
      · rw [if_neg hopen, Option.any_some, decide_eq_false hopen]
        exact .silent rfl rfl (Bool.and_false _)

/-- **One operation and one connection.** -/
theorem op_watched (hok : TableOk engine) (hhandler : engine.stateHandler = true) (op : EngineOp)
    (cid : UInt64) :
    Watched ((op.cleaned engine).lookupState cid) ((op.run engine).2.lookupState cid)
      (op.creates engine cid) (op.closed engine cid) (reportsFor cid (op.run engine).1) := by
  cases op with
  | receive datagram addr env =>
      cases hparse : quicPacketDeserialize (datagram.take quicMaxPacketSize) with
      | none =>
          have hrun : engine.receive datagram addr env = ([], engine.countReceived) := by
            rw [QuicEngine.receive, hparse]
          have hcleaned : (EngineOp.receive datagram addr env).cleaned engine = engine := by
            rw [EngineOp.cleaned, EngineOp.cleanupTime, hparse]
            rfl
          rw [hcleaned]
          show Watched _ ((engine.receive datagram addr env).2.lookupState cid) _ _
            (reportsFor cid (engine.receive datagram addr env).1)
          rw [hrun]
          refine .silent (lookupState_congr rfl cid) ?_ ?_
          · simp only [EngineOp.creates, hparse]
          · simp only [EngineOp.closed, hparse]
      | some packet =>
          have hwatched : Watched _ _ _ _ (reportsFor cid (engine.receive datagram addr env).1) :=
            receive_watched hok hhandler hparse cid
          have hcleaned : (EngineOp.receive datagram addr env).cleaned engine =
              engine.cleanupConnections env.now := by
            rw [EngineOp.cleaned, EngineOp.cleanupTime, hparse]
            rfl
          rw [hcleaned]
          exact hwatched
  | receiveTimeout now nowRetransmit sendOk =>
      show Watched _ _ _ _ (reportsFor cid ((engine.cleanupConnections now).retransmitPending
        nowRetransmit sendOk).1)
      rw [receiveTimeout_reports]
      exact silent_of_view (view_of_connections (retransmitPending_connections _ nowRetransmit sendOk))
  | send packet addr env =>
      show Watched _ _ _ _ (reportsFor cid (engine.send packet addr env).out)
      rw [send_reports]
      exact silent_of_view (view_of_connections (send_connections engine packet addr env))
  | sendToConnection packet now env =>
      have hget := getConnection_view engine packet.connectionId now
      show Watched _ ((engine.sendToConnection packet now env).engine.lookupState cid) _ _
        (reportsFor cid (engine.sendToConnection packet now env).out)
      unfold QuicEngine.sendToConnection
      generalize engine.getConnection packet.connectionId now = result at hget ⊢
      obtain ⟨_ | addr, found⟩ := result
      · exact silent_of_view hget
      · dsimp only
        rw [send_reports]
        exact silent_of_view ((view_of_connections (send_connections _ _ _ _)).trans hget)
  | getConnection connectionId now => exact silent_of_view (getConnection_view engine connectionId now)
  | closeConnection connectionId env => exact closeConnection_watched hok hhandler connectionId env cid
  | setStateHandler installed => exact silent_of_view rfl
  | setStreamDataHandler installed => exact silent_of_view rfl

theorem lookupState_cleaned (hok : TableOk engine) (op : EngineOp) (cid : UInt64) :
    (op.cleaned engine).lookupState cid =
      if op.timedOut engine cid then none else engine.lookupState cid := by
  unfold EngineOp.cleaned EngineOp.timedOut
  cases op.cleanupTime with
  | none => rfl
  | some now => exact lookupState_cleanup hok now cid

theorem Watched.count_closed {before after : Option QuicConnectionState} {created closed : Bool}
    {reports : List QuicConnectionState} (h : Watched before after created closed reports) :
    reports.count .closed = closed.toNat := by
  cases h with
  | silent hsame hcreated hclosed => rw [hclosed]; rfl
  | reported state hafter hopen hclosed => rw [hclosed, List.count_singleton]; simp [hopen]
  | closed hafter hclosed => rw [hclosed]; rfl

theorem getConnection_handlers (engine : QuicEngine) (cid : UInt64) (now : Int) :
    (engine.getConnection cid now).2.handlers = engine.handlers := by
  rw [← cleanup_handlers engine now]
  unfold QuicEngine.getConnection
  dsimp only
  cases (engine.cleanupConnections now).findEntry cid with
  | none => rfl
  | some i =>
      dsimp only
      split_ifs <;> rfl

theorem closeLocked_handlers (engine : QuicEngine) (cid : UInt64) :
    (engine.closeLocked cid).2.handlers = engine.handlers := by
  unfold QuicEngine.closeLocked
  cases engine.findEntry cid with
  | none => rfl
  | some i =>
      dsimp only
      split_ifs <;> rfl

theorem retransmitPending_handlers (engine : QuicEngine) (now : Int)
    (sendOk : Fin quicMaxPending → Bool) :
    (engine.retransmitPending now sendOk).2.handlers = engine.handlers :=
  retransmitPending_frame handlers (fun _ _ _ => rfl) (fun _ _ => rfl) engine now sendOk

theorem op_stateHandler {op : EngineOp} (hhandler : engine.stateHandler = true)
    (hop : op ≠ .setStateHandler false) : (op.run engine).2.stateHandler = true := by
  cases op with
  | receive datagram addr env =>
      show (engine.receive datagram addr env).2.stateHandler = true
      cases hparse : quicPacketDeserialize (datagram.take quicMaxPacketSize) with
      | none =>
          rw [QuicEngine.receive, hparse]
          exact hhandler
      | some packet =>
          have hprocessed :=
            ((engine.beforeProcess packet).processPacket_spec packet addr env.now env.nowAdd).1.trans
              (beforeProcess_handlers engine packet)
          cases houtcome :
              ((engine.beforeProcess packet).processPacket packet addr env.now env.nowAdd).1 with
          | none =>
              rw [receive_refused hparse houtcome, stateHandler_of_handlers hprocessed]
              exact hhandler
          | some outcome =>
              obtain ⟨-, hhandlers, -⟩ := receive_frame hparse houtcome
              rw [stateHandler_of_handlers (hhandlers.trans hprocessed)]
              exact hhandler
  | setStateHandler installed =>
      cases installed with
      | true => rfl
      | false => exact absurd rfl hop
  | setStreamDataHandler installed => exact hhandler
  | receiveTimeout now nowRetransmit sendOk =>
      rw [← hhandler]
      exact stateHandler_of_handlers ((retransmitPending_handlers _ nowRetransmit sendOk).trans
        (cleanup_handlers engine now))
  | send packet addr env =>
      rw [← hhandler]
      exact stateHandler_of_handlers (send_handlers engine packet addr env)
  | getConnection cid now =>
      rw [← hhandler]
      exact stateHandler_of_handlers (getConnection_handlers engine cid now)
  | sendToConnection packet now env =>
      have hget := getConnection_handlers engine packet.connectionId now
      show (engine.sendToConnection packet now env).engine.stateHandler = true
      rw [← hhandler]
      unfold QuicEngine.sendToConnection
      generalize engine.getConnection packet.connectionId now = result at hget ⊢
      obtain ⟨_ | addr, found⟩ := result
      · exact stateHandler_of_handlers hget
      · exact stateHandler_of_handlers ((send_handlers found packet addr env).trans hget)
  | closeConnection cid env =>
      have hclose := closeLocked_handlers engine cid
      show (engine.closeConnection cid env).engine.stateHandler = true
      rw [← hhandler]
      unfold QuicEngine.closeConnection
      generalize engine.closeLocked cid = result at hclose ⊢
      obtain ⟨_ | addr, closed⟩ := result
      · exact stateHandler_of_handlers hclose
      · exact stateHandler_of_handlers ((send_handlers closed (closePacket cid) addr env).trans hclose)

end Operations

/-! ### Runs -/

/-- The engine with a state handler installed. -/
def watchedEngine (handler : Bool) : QuicEngine := { quicEngineInit handler with stateHandler := true }

theorem watched_run (handler : Bool) {ops : List EngineOp} (hops : .setStateHandler false ∉ ops) :
    TableOk (runEngine (watchedEngine handler) ops) ∧
      (runEngine (watchedEngine handler) ops).stateHandler = true := by
  refine ⟨reachable_tableOk (reachable_runEngine handler (.setStateHandler true :: ops)), ?_⟩
  induction ops using List.reverseRecOn with
  | nil => rfl
  | append_singleton ops op ih =>
      rw [List.mem_append, not_or, List.mem_singleton] at hops
      rw [runEngine_snoc]
      exact op_stateHandler (ih hops.1) (Ne.symm hops.2)

/-- The handler has been told nothing of the connection and no entry was ever created for it, or it was
told last what the table shows. -/
def LastReport (engine : QuicEngine) (ops : List EngineOp) (cid : UInt64) : Prop :=
  (reportsFor cid (outputs engine ops) = [] ∧ (runEngine engine ops).lookupState cid = none ∧
      ∀ before op after, ops = before ++ op :: after → op.creates (runEngine engine before) cid = false) ∨
    (reportsFor cid (outputs engine ops)).getLast? = some ((runEngine engine ops).currentState cid)

theorem LastReport.snoc {engine : QuicEngine} {ops : List EngineOp} {op : EngineOp} {cid : UInt64}
    (h : LastReport engine ops cid)
    (hwatched : Watched ((runEngine engine ops).lookupState cid)
      ((runEngine engine (ops ++ [op])).lookupState cid) (op.creates (runEngine engine ops) cid)
      (op.closed (runEngine engine ops) cid) (reportsFor cid (op.run (runEngine engine ops)).1)) :
    LastReport engine (ops ++ [op]) cid := by
  unfold LastReport
  rw [outputs_snoc, reportsFor_append]
  generalize hreports : reportsFor cid (op.run (runEngine engine ops)).1 = reports at hwatched
  cases hwatched with
  | silent hsame hcreated hclosed =>
      rw [List.append_nil, currentState, hsame]
      rcases h with ⟨hnone, hlookup, hnever⟩ | hlast
      · refine Or.inl ⟨hnone, hlookup, fun before o after hsplit => ?_⟩
        rcases List.eq_nil_or_concat after with rfl | ⟨after', last, rfl⟩
        · obtain ⟨rfl, hlast⟩ := List.append_inj' hsplit rfl
          rw [← List.singleton_inj.mp hlast]
          exact hcreated
        · rw [List.concat_eq_append, ← List.cons_append, ← List.append_assoc] at hsplit
          exact hnever before o after' (List.append_inj' hsplit rfl).1
      · exact Or.inr hlast
  | reported state hafter hopen hclosed =>
      right
      rw [List.getLast?_concat, currentState, hafter]
      rfl
  | closed hafter hclosed =>
      right
      rw [List.getLast?_concat, currentState, hafter]
      rfl

/-- The run tells the state handler the truth: the last report for a connection that ever had an entry is its
state in the table, and each operation reports each transition to CLOSED once. -/
def Tracks (engine : QuicEngine) (ops : List EngineOp) : Prop :=
  (∀ cid, (∃ before op after, ops = before ++ op :: after ∧
      op.creates (runEngine engine before) cid = true) →
    (reportsFor cid (outputs engine ops)).getLast? = some ((runEngine engine ops).currentState cid)) ∧
  ∀ cid before op after, ops = before ++ op :: after →
    (reportsFor cid (op.run (runEngine engine before)).1).count .closed =
      op.transitions (runEngine engine before) cid

theorem lastReport_run (handler : Bool) {ops : List EngineOp} (hops : .setStateHandler false ∉ ops)
    (cid : UInt64) (hin : ∀ before op after, ops = before ++ op :: after →
      op.timedOut (runEngine (watchedEngine handler) before) cid = false) :
    LastReport (watchedEngine handler) ops cid := by
  induction ops using List.reverseRecOn with
  | nil =>
      refine Or.inl ⟨rfl, lookupState_eq_none.mpr (findEntry_none.mpr fun i hi => ?_), fun before op after h => ?_⟩
      · exact Bool.noConfusion hi
      · simp at h
  | append_singleton ops op ih =>
      have hbefore : .setStateHandler false ∉ ops := fun h => hops (List.mem_append_left _ h)
      obtain ⟨hok, hhandler⟩ := watched_run handler hbefore
      have hlast := ih hbefore fun before o after hsplit =>
        hin before o (after ++ [op]) (by rw [hsplit]; simp)
      have hwatched := op_watched hok hhandler op cid
      rw [lookupState_cleaned hok, hin ops op [] rfl, if_neg Bool.false_ne_true, ← runEngine_snoc] at hwatched
      exact hlast.snoc hwatched

/-- **State notifications.** In a run with a state handler installed, the reports track the table exactly if
no clean-up of the run finds a connection timed out. -/
theorem reports_track_iff (handler : Bool) (ops : List EngineOp) (hops : .setStateHandler false ∉ ops) :
    Tracks (watchedEngine handler) ops ↔
      ∀ cid before op after, ops = before ++ op :: after →
        op.timedOut (runEngine (watchedEngine handler) before) cid = false := by
  -- the CLOSED reports of one operation are its transitions without the time-outs
  have hcount : ∀ cid before op after, ops = before ++ op :: after →
      (reportsFor cid (op.run (runEngine (watchedEngine handler) before)).1).count .closed =
        (op.closed (runEngine (watchedEngine handler) before) cid).toNat := by
    intro cid before op after hsplit
    have hbefore : .setStateHandler false ∉ before := fun h =>
      hops (by rw [hsplit]; exact List.mem_append_left _ h)
    obtain ⟨hok, hhandler⟩ := watched_run handler hbefore
    exact (op_watched hok hhandler op cid).count_closed
  constructor
  · rintro ⟨-, hclosed⟩ cid before op after hsplit
    have htransitions := hclosed cid before op after hsplit
    rw [hcount cid before op after hsplit, EngineOp.transitions] at htransitions
    rw [← Bool.toNat_eq_zero]
    omega
  · intro hin
    refine ⟨fun cid hexisted => ?_, fun cid before op after hsplit => ?_⟩
    · obtain ⟨before, op, after, hsplit, hcreates⟩ := hexisted
      rcases lastReport_run handler hops cid (hin cid) with ⟨-, -, hnever⟩ | hlast
      · rw [hnever before op after hsplit] at hcreates
        exact Bool.noConfusion hcreates
      · exact hlast
    · rw [hcount cid before op after hsplit, EngineOp.transitions, hin cid before op after hsplit]
      exact (Nat.zero_add _).symm

/-- A connection is opened, and nothing comes for 31 seconds. -/
def sampleSilence : List EngineOp :=
  [sampleReceive ⟨quicFlagInitial ||| quicFlagHandshake, 7, 0, 0, 0, .empty⟩,
    .receiveTimeout 31 31 fun _ => true]

theorem reports_track_iff_sample :
    Tracks (watchedEngine false) sampleSilence ↔
      ∀ cid before op after, sampleSilence = before ++ op :: after →
        op.timedOut (runEngine (watchedEngine false) before) cid = false :=
  reports_track_iff false sampleSilence (by simp [sampleSilence, sampleReceive])

/-- The clean-up closes the connection, and the handler is told nothing. -/
theorem silence_not_tracked : ¬ Tracks (watchedEngine false) sampleSilence := by
  intro h
  have hcount := h.2 7 [sampleReceive ⟨quicFlagInitial ||| quicFlagHandshake, 7, 0, 0, 0, .empty⟩]
    (.receiveTimeout 31 31 fun _ => true) [] rfl
  revert hcount
  decide +kernel

end OttQuic
