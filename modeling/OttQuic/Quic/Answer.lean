import OttQuic.Quic.Refusal
import OttQuic.Quic.SentPackets

/-!
# The answer to an INITIAL

The receive loop answers the packet that creates an entry, so an INITIAL that is repeated because the answer
was lost finds its entry and is accepted without one. `initials_answered_iff` says so of every run: all INITIALs
that are accepted and leave their connection CONNECTING are answered exactly if each of them is the first of its
connection, and its answer can be sent.
-/

namespace OttQuic

open SlotTable QuicEngine

/-- The call of `quic_engine_process_packet` in the loop body. -/
abbrev QuicEngine.processing (engine : QuicEngine) (packet : QuicPacket) (addr : SockAddr) (env : ReceiveEnv) :
    Option ProcessOutcome × QuicEngine :=
  (engine.beforeProcess packet).processPacket packet addr env.now env.nowAdd

/-- A datagram with INITIAL and without CLOSE that is accepted and leaves its connection CONNECTING is
answered, to its source. -/
def Answered (engine : QuicEngine) (op : EngineOp) : Prop :=
  ∀ datagram addr env packet outcome i, op = .receive datagram addr env →
    quicPacketDeserialize (datagram.take quicMaxPacketSize) = some packet →
    packet.has quicFlagInitial = true → packet.has quicFlagClose = false →
    (engine.processing packet addr env).1 = some outcome →
    ((engine.processing packet addr env).2.connections i).inUse = true →
    ((engine.processing packet addr env).2.connections i).connectionId = packet.connectionId →
    ((engine.processing packet addr env).2.connections i).state = .connecting →
    .sent (handshakePacket packet.connectionId) addr ∈ (op.run engine).1

/-- The datagram carries INITIAL without CLOSE and HANDSHAKE. Its connection has an entry that is CONNECTING
and has not timed out, or there is none, a slot is free, and `sendto` does not take the answer. -/
def Unanswered (engine : QuicEngine) (op : EngineOp) : Prop :=
  ∃ datagram addr env packet, op = .receive datagram addr env ∧
    quicPacketDeserialize (datagram.take quicMaxPacketSize) = some packet ∧
    packet.has quicFlagInitial = true ∧ packet.has quicFlagClose = false ∧
    packet.has quicFlagHandshake = false ∧
    ((∃ i, (engine.connections i).inUse = true ∧ (engine.connections i).connectionId = packet.connectionId ∧
        (engine.connections i).state = .connecting ∧ ¬ (engine.connections i).TimedOut env.now) ∨
      (∀ i, (engine.connections i).inUse = true → (engine.connections i).connectionId = packet.connectionId →
          (engine.connections i).TimedOut env.now) ∧
        (∃ i, (engine.connections i).inUse = true → (engine.connections i).TimedOut env.now) ∧
        env.handshake.ok = false)

section

variable {engine : QuicEngine} {datagram : Bytes} {packet : QuicPacket} {addr : SockAddr} {env : ReceiveEnv}
  {target : PacketTarget}

theorem processed_target
    (htarget : (engine.cleanupConnections env.now).packetTarget packet addr env.now env.nowAdd = some target) :
    let process := engine.processing packet addr env
    process.2.connections = Function.update (engine.cleanupConnections env.now).connections target.slot
        (processedEntry target.entry packet) ∧
      (process.1.isSome = true ↔ Delivers target.entry packet) ∧
      ∀ outcome, process.1 = some outcome → outcome.handshakeNeeded = target.created := by
  intro process
  have hcleanup := cleanup_connections_congr (beforeProcess_connections engine packet) env.now
  have hspec := ((engine.beforeProcess packet).processPacket_spec packet addr env.now env.nowAdd).2
  rw [packetTarget_congr hcleanup, htarget] at hspec
  obtain ⟨hconnections, -, hdelivers, hneeded⟩ := hspec
  rw [hcleanup] at hconnections
  exact ⟨hconnections, hdelivers, hneeded⟩

theorem answer_sent_iff (hparse : quicPacketDeserialize (datagram.take quicMaxPacketSize) = some packet)
    (htarget : (engine.cleanupConnections env.now).packetTarget packet addr env.now env.nowAdd = some target)
    (hdelivers : Delivers target.entry packet) :
    .sent (handshakePacket packet.connectionId) addr ∈ (engine.receive datagram addr env).1 ↔
      target.created = true ∧ env.handshake.ok = true := by
  obtain ⟨-, hisSome, hneeded⟩ := processed_target htarget
  obtain ⟨outcome, houtcome⟩ := Option.isSome_iff_exists.mp (hisSome.mpr hdelivers)
  have hcreated := hneeded outcome houtcome
  constructor
  · intro hsent
    obtain ⟨packet', outcome', hparse', houtcome', hwhich⟩ := receive_sent_cases hsent
    obtain rfl := Option.some.inj (hparse.symm.trans hparse')
    obtain rfl := Option.some.inj (houtcome.symm.trans houtcome')
    obtain ⟨hanswer, hok, -⟩ | hack := hwhich
    · exact ⟨hcreated ▸ hanswer, hok⟩
    · -- an acknowledgement does not have the flags of an answer
      have hflags : (quicFlagHandshake ||| quicFlagAck : UInt8) = quicFlagAck :=
        congrArg QuicPacket.flags hack
      exact absurd hflags (by decide)
  · rintro ⟨htrue, hok⟩
    rw [receive_parts hparse houtcome]
    have hrc : ((engine.processing packet addr env).2.send
        (handshakePacket packet.connectionId) addr env.handshake).rc = 0 :=
      send_rc.mpr ⟨Nat.zero_le _, hok⟩
    simp only [List.mem_append]
    left
    left
    right
    rw [answerHandshake, if_pos (hcreated.trans htrue), send_out, if_pos hrc]
    exact List.mem_singleton_self _

theorem left_connecting_iff (hok : TableOk engine) (hinitial : packet.has quicFlagInitial = true)
    (hclose : packet.has quicFlagClose = false)
    (htarget : (engine.cleanupConnections env.now).packetTarget packet addr env.now env.nowAdd = some target) :
    let process := engine.processing packet addr env
    (∃ outcome i, process.1 = some outcome ∧ (process.2.connections i).inUse = true ∧
        (process.2.connections i).connectionId = packet.connectionId ∧
        (process.2.connections i).state = .connecting) ↔
      target.entry.state = .connecting ∧ packet.has quicFlagHandshake = false := by
  intro process
  obtain ⟨hconnections, hisSome, -⟩ := processed_target htarget
  obtain ⟨hid, hused, -⟩ := packetTarget_cases htarget
  have hunique := cleanup_unique hok env.now
  have hfind := findEntry_processed hunique htarget hconnections
  rw [if_neg (by rw [hclose]; exact Bool.false_ne_true)] at hfind
  have hentry : process.2.connections target.slot = processedEntry target.entry packet := by
    rw [hconnections, Function.update_self]
  have hstate := @processedEntry_state packet target.entry hclose
  constructor
  · rintro ⟨outcome, i, -, hinUse, hkey, hconnecting⟩
    have hslot : i = target.slot := by
      by_contra hne
      rw [hconnections, Function.update_of_ne hne] at hinUse hkey
      obtain ⟨-, -, ⟨hfound, -⟩ | ⟨hnone, -⟩⟩ := packetTarget_cases htarget
      · obtain ⟨hused', hid'⟩ := findEntry_some hfound
        exact hne (hunique i target.slot hinUse hused' (hkey.trans hid'.symm))
      · exact findEntry_none.mp hnone i hinUse hkey
    rw [hslot, hentry, hstate] at hconnecting
    split_ifs at hconnecting with hconnects
    refine ⟨hconnecting, ?_⟩
    rw [← Bool.not_eq_true]
    exact fun hflag => hconnects ⟨hconnecting, hflag⟩
  · rintro ⟨hconnecting, hhandshake⟩
    obtain ⟨outcome, houtcome⟩ := Option.isSome_iff_exists.mp (hisSome.mpr (.inr (.inr (.inl hinitial))))
    have hfound := findEntry_some hfind
    refine ⟨outcome, target.slot, houtcome, hfound.1, hfound.2, ?_⟩
    rw [hentry, hstate, if_neg, hconnecting]
    rw [hhandshake]
    exact fun hboth => Bool.false_ne_true hboth.2

theorem findEntry_cleanup_none {connectionId : UInt64} {now : Int} :
    (engine.cleanupConnections now).findEntry connectionId = none ↔
      ∀ i, (engine.connections i).inUse = true → (engine.connections i).connectionId = connectionId →
        (engine.connections i).TimedOut now := by
  rw [findEntry_none]
  refine forall_congr' fun i => ?_
  rw [cleanup_connections]
  split_ifs with hout
  · simp [hout, QuicConnectionEntry.close]
  · simp [hout]

theorem findFree_cleanup_isSome {now : Int} :
    (findFree QuicConnectionEntry.inUse (engine.cleanupConnections now).connections).isSome = true ↔
      ∃ i, (engine.connections i).inUse = true → (engine.connections i).TimedOut now := by
  rw [← not_iff_not, Option.not_isSome_iff_eq_none, findFree_none]
  push Not
  refine forall_congr' fun i => ?_
  rw [cleanup_connections]
  split_ifs with hout
  · simp [hout, QuicConnectionEntry.close]
  · simp [hout]

theorem repeated_target_iff (addr : SockAddr) (env : ReceiveEnv) (hok : TableOk engine) :
    (∃ target, (engine.cleanupConnections env.now).packetTarget packet addr env.now env.nowAdd = some target ∧
        target.entry.state = .connecting ∧ target.created = false) ↔
      ∃ i, (engine.connections i).inUse = true ∧ (engine.connections i).connectionId = packet.connectionId ∧
        (engine.connections i).state = .connecting ∧ ¬ (engine.connections i).TimedOut env.now := by
  constructor
  · rintro ⟨target, htarget, hstate, hcreated⟩
    obtain ⟨-, -, ⟨hfind, -, hentry⟩ | ⟨-, htrue, -⟩⟩ := packetTarget_cases htarget
    · obtain ⟨hused, hid⟩ := findEntry_some hfind
      obtain ⟨hslot, hkept⟩ := cleanup_inUse hused
      rw [hentry, hslot] at hstate
      rw [hslot] at hused hid
      exact ⟨target.slot, hused, hid, hstate, hkept⟩
    · rw [hcreated] at htrue
      cases htrue
  · rintro ⟨i, hused, hid, hstate, hkept⟩
    have hfind := findEntry_cleanup hok hused hkept
    have hslot : (engine.cleanupConnections env.now).connections i = engine.connections i := by
      rw [cleanup_connections, if_neg hkept]
    rw [hid] at hfind
    refine ⟨⟨i, { engine.connections i with addr := addr, lastSeen := env.now }, false⟩, ?_, hstate, rfl⟩
    rw [packetTarget, hfind]
    dsimp only
    rw [hslot]

theorem new_target_iff (addr : SockAddr) (env : ReceiveEnv) (hinitial : packet.has quicFlagInitial = true) :
    (∃ target, (engine.cleanupConnections env.now).packetTarget packet addr env.now env.nowAdd = some target ∧
        target.entry.state = .connecting ∧ target.created = true) ↔
      (∀ i, (engine.connections i).inUse = true → (engine.connections i).connectionId = packet.connectionId →
          (engine.connections i).TimedOut env.now) ∧
        ∃ i, (engine.connections i).inUse = true → (engine.connections i).TimedOut env.now := by
  rw [← findEntry_cleanup_none, ← findFree_cleanup_isSome]
  constructor
  · rintro ⟨target, htarget, -, hcreated⟩
    obtain ⟨-, -, ⟨-, hfalse, -⟩ | ⟨hfind, -⟩⟩ := packetTarget_cases htarget
    · rw [hcreated] at hfalse
      cases hfalse
    · refine ⟨hfind, ?_⟩
      rw [packetTarget, hfind] at htarget
      dsimp only at htarget
      rw [if_pos hinitial] at htarget
      obtain ⟨i, hi, -⟩ := Option.map_eq_some_iff.mp htarget
      rw [hi]
      rfl
  · rintro ⟨hfind, hslot⟩
    obtain ⟨i, hi⟩ := Option.isSome_iff_exists.mp hslot
    refine ⟨⟨i, newEntry packet.connectionId addr env.nowAdd, true⟩, ?_, rfl, rfl⟩
    rw [packetTarget, hfind]
    dsimp only
    rw [if_pos hinitial, hi]
    rfl

end

/-- **One operation.** -/
theorem answered_iff {engine : QuicEngine} {op : EngineOp} (hok : TableOk engine) :
    Answered engine op ↔ ¬ Unanswered engine op := by
  constructor
  · rintro hanswered ⟨datagram, addr, env, packet, rfl, hparse, hinitial, hclose, hhandshake, hwhich⟩
    have hrepeated := @repeated_target_iff engine packet addr env hok
    have hnew := @new_target_iff engine packet addr env hinitial
    -- the target of the packet, which is answered only if it is new and the answer is taken
    have hunsent : ∃ target, (engine.cleanupConnections env.now).packetTarget packet addr env.now env.nowAdd =
        some target ∧ target.entry.state = .connecting ∧
          ¬ (target.created = true ∧ env.handshake.ok = true) := by
      obtain hfound | ⟨hunknown, hfree, hfails⟩ := hwhich
      · obtain ⟨target, htarget, hstate, hcreated⟩ := hrepeated.mpr hfound
        exact ⟨target, htarget, hstate, fun hsent => Bool.false_ne_true (hcreated.symm.trans hsent.1)⟩
      · obtain ⟨target, htarget, hstate, -⟩ := hnew.mpr ⟨hunknown, hfree⟩
        exact ⟨target, htarget, hstate, fun hsent => Bool.false_ne_true (hfails.symm.trans hsent.2)⟩
    obtain ⟨target, htarget, hstate, hnot⟩ := hunsent
    obtain ⟨outcome, i, houtcome, hinUse, hid, hconnecting⟩ :=
      (left_connecting_iff hok hinitial hclose htarget).mpr ⟨hstate, hhandshake⟩
    have hsent := hanswered datagram addr env packet outcome i rfl hparse hinitial hclose houtcome hinUse hid
      hconnecting
    exact hnot ((answer_sent_iff hparse htarget (.inr (.inr (.inl hinitial)))).mp hsent)
  · rintro hnot datagram addr env packet outcome i rfl hparse hinitial hclose houtcome hinUse hid hconnecting
    have hrepeated := @repeated_target_iff engine packet addr env hok
    have hnew := @new_target_iff engine packet addr env hinitial
    cases htarget : (engine.cleanupConnections env.now).packetTarget packet addr env.now env.nowAdd with
    | none =>
        -- without a target the packet is refused
        have hcleanup := cleanup_connections_congr (beforeProcess_connections engine packet) env.now
        have hspec := ((engine.beforeProcess packet).processPacket_spec packet addr env.now env.nowAdd).2
        rw [packetTarget_congr hcleanup, htarget] at hspec
        dsimp only at hspec
        rw [QuicEngine.processing, hspec] at houtcome
        cases houtcome
    | some target =>
        obtain ⟨hstate, hhandshake⟩ := (left_connecting_iff hok hinitial hclose htarget).mp
          ⟨outcome, i, houtcome, hinUse, hid, hconnecting⟩
        refine (answer_sent_iff hparse htarget (.inr (.inr (.inl hinitial)))).mpr ?_
        by_contra hunsent
        refine hnot ⟨datagram, addr, env, packet, rfl, hparse, hinitial, hclose, hhandshake, ?_⟩
        cases hcreated : target.created with
        | false => exact .inl (hrepeated.mp ⟨target, htarget, hstate, hcreated⟩)
        | true =>
            obtain ⟨hunknown, hfree⟩ := hnew.mp ⟨target, htarget, hstate, hcreated⟩
            refine .inr ⟨hunknown, hfree, ?_⟩
            rw [← Bool.not_eq_true]
            exact fun hsent => hunsent ⟨hcreated, hsent⟩

/-- **Every accepted INITIAL is answered** in a run of the engine's operations, exactly if none of them repeats
an INITIAL of a connection that is CONNECTING and `sendto` takes every answer. -/
theorem initials_answered_iff (handler : Bool) (ops : List EngineOp) :
    (∀ before op after, ops = before ++ op :: after →
      Answered (runEngine (quicEngineInit handler) before) op) ↔
    ∀ before op after, ops = before ++ op :: after →
      ¬ Unanswered (runEngine (quicEngineInit handler) before) op :=
  forall_congr' fun before => forall_congr' fun _ => forall_congr' fun _ => imp_congr_right fun _ =>
    answered_iff (reachable_tableOk (reachable_runEngine handler before))

/-- The same INITIAL twice: the second one is accepted and gets no answer. -/
theorem repeated_initial_unanswered :
    ¬ Answered (runEngine (quicEngineInit false) [sampleReceive ⟨quicFlagInitial, 7, 0, 0, 0, .empty⟩])
      (sampleReceive ⟨quicFlagInitial, 7, 0, 0, 0, .empty⟩) := by
  rw [answered_iff (reachable_tableOk (reachable_runEngine false _)), not_not]
  refine ⟨_, _, _, ⟨quicFlagInitial, 7, 0, 0, 0, .empty⟩, rfl, by decide +kernel, by decide, by decide, by decide,
    .inl ⟨0, ?_⟩⟩
  decide +kernel

end OttQuic
