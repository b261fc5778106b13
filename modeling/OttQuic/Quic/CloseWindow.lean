import OttQuic.Quic.Senders

/-!
# Connections that end while a packet is sent

`OwnersOpen` says that a pending slot in use belongs to an incarnation of its connection that is still in
the connection table: a connection that ends takes its pending slots along (`EntryKept`). A packet whose
connection is closed before it is recorded breaks it, and is retransmitted to whoever opens the connection
next (`closed_data_retransmitted`); runs that record none keep it.
-/

namespace OttQuic

open SlotTable QuicEngine Transition

/-! ### Connections that end -/

section Entries

variable {engine : QuicEngine} {sec : EngineSection} {i : Fin quicMaxConnections} {j : Fin quicMaxPending}

theorem cleanup_keeps_entry {now : Int} (hused : ((engine.cleanupConnections now).pending j).inUse = true)
    (hid : (engine.connections i).connectionId = (engine.pending j).connectionId) :
    (engine.cleanupConnections now).connections i = engine.connections i := by
  rw [cleanup_connections]
  split_ifs with hout
  · rw [cleanup_frees engine j hout hid] at hused
    cases hused
  · rfl

/-- What a section that keeps the slot of a packet leaves of the entry of its connection: it is in use with
its id from the clean-up on. -/
structure EntryKept (engine : QuicEngine) (sec : EngineSection) (i : Fin quicMaxConnections) : Prop where
  start : ((sec.start engine).connections i).inUse = true
  used : ((sec.step engine).connections i).inUse = true
  id : ((sec.step engine).connections i).connectionId = (engine.connections i).connectionId

theorem EntryKept.of_eq (hused : (engine.connections i).inUse = true)
    (hstart : (sec.start engine).connections i = engine.connections i)
    (hstep : (sec.step engine).connections i = engine.connections i) : EntryKept engine sec i := by
  refine ⟨?_, ?_, ?_⟩
  · rw [hstart]
    exact hused
  · rw [hstep]
    exact hused
  · rw [hstep]

theorem processPacket_entryKept {packet : QuicPacket} {addr : SockAddr} {now nowAdd : Int}
    (hafter : ((engine.processPacket packet addr now nowAdd).2.pending j).inUse = true)
    (hused : (engine.connections i).inUse = true)
    (hid : (engine.connections i).connectionId = (engine.pending j).connectionId) :
    EntryKept engine (.processPacket packet addr now nowAdd) i := by
  have hclean := (processPacket_start_keeps engine j packet addr now nowAdd).used hafter
  have hstart : (engine.cleanupConnections now).connections i = engine.connections i := by
    apply cleanup_keeps_entry _ hid
    rw [← hclean]
    exact hafter
  have hspec := (engine.processPacket_spec packet addr now nowAdd).2
  cases htarget : (engine.cleanupConnections now).packetTarget packet addr now nowAdd with
  | none =>
      rw [htarget] at hspec
      refine EntryKept.of_eq hused hstart ?_
      change (engine.processPacket packet addr now nowAdd).2.connections i = _
      rw [hspec]
      exact hstart
  | some target =>
      rw [htarget] at hspec
      have htable : (engine.processPacket packet addr now nowAdd).2.connections = _ := hspec.1
      by_cases hi : target.slot = i
      · obtain ⟨htid, htused, hwhich⟩ := packetTarget_cases htarget
        rcases hwhich with ⟨-, -, hentry⟩ | ⟨-, -, -, hfree, -⟩
        · have hsame : target.entry.connectionId = (engine.connections i).connectionId := by
            rw [hentry, hi, hstart]
          have hclose : ¬ packet.has quicFlagClose = true := by
            intro hclose
            have hfreed := processPacket_frees engine j hclose (by rw [htarget]; rfl)
              (by rw [← htid, hsame, hid])
            rw [hfreed] at hafter
            cases hafter
          have hprocessed : ((engine.processPacket packet addr now nowAdd).2.connections i) =
              processedEntry target.entry packet := by
            rw [htable, hi, Function.update_self]
          have hkeeps : (processedEntry target.entry packet).inUse = true ∧
              (processedEntry target.entry packet).connectionId = target.entry.connectionId := by
            unfold processedEntry
            rw [if_neg hclose]
            split_ifs
            · exact ⟨htused, rfl⟩
            · exact ⟨htused, rfl⟩
          refine ⟨?_, ?_, ?_⟩
          · change ((engine.cleanupConnections now).connections i).inUse = true
            rw [hstart]
            exact hused
          · change ((engine.processPacket packet addr now nowAdd).2.connections i).inUse = true
            rw [hprocessed]
            exact hkeeps.1
          · change ((engine.processPacket packet addr now nowAdd).2.connections i).connectionId = _
            rw [hprocessed, hkeeps.2, hsame]
        · rw [hi, hstart, hused] at hfree
          cases hfree
      · refine EntryKept.of_eq hused hstart ?_
        change (engine.processPacket packet addr now nowAdd).2.connections i = _
        rw [htable, Function.update_of_ne (Ne.symm hi)]
        exact hstart

theorem getConnection_entryKept {cid : UInt64} {now : Int}
    (hafter : ((engine.getConnection cid now).2.pending j).inUse = true)
    (hused : (engine.connections i).inUse = true)
    (hid : (engine.connections i).connectionId = (engine.pending j).connectionId) :
    EntryKept engine (.getConnection cid now) i := by
  rw [getConnection_pending] at hafter
  have hstart := cleanup_keeps_entry hafter hid
  have hcases : (engine.getConnection cid now).2.connections i = engine.connections i ∨
      (engine.getConnection cid now).2.connections i = { engine.connections i with lastSeen := now } := by
    unfold QuicEngine.getConnection
    dsimp only
    split
    · exact Or.inl hstart
    · rename_i k _
      split_ifs
      · by_cases hk : i = k
        · subst hk
          right
          rw [← hstart]
          exact Function.update_self ..
        · left
          rw [← hstart]
          exact Function.update_of_ne hk ..
      · exact Or.inl hstart
  rcases hcases with hstep | hstep
  · exact .of_eq hused hstart hstep
  · refine ⟨?_, ?_, ?_⟩
    · change ((engine.cleanupConnections now).connections i).inUse = true
      rw [hstart]
      exact hused
    · change ((engine.getConnection cid now).2.connections i).inUse = true
      rw [hstep]
      exact hused
    · change ((engine.getConnection cid now).2.connections i).connectionId = _
      rw [hstep]

theorem closeLocked_entryKept {cid : UInt64} (hafter : ((engine.closeLocked cid).2.pending j).inUse = true)
    (hused : (engine.connections i).inUse = true)
    (hid : (engine.connections i).connectionId = (engine.pending j).connectionId) :
    EntryKept engine (.closeLocked cid) i := by
  apply EntryKept.of_eq hused rfl
  change (engine.closeLocked cid).2.connections i = engine.connections i
  unfold QuicEngine.closeLocked at hafter ⊢
  split at hafter
  · rfl
  · rename_i k hfind
    split_ifs at hafter ⊢ with hstate
    · by_cases hk : i = k
      · subst hk
        have hfreed := clearPending_frees engine j hid.symm
        rw [closeEntry_pending] at hafter
        rw [hfreed] at hafter
        cases hafter
      · rw [closeEntry_connections]
        exact Function.update_of_ne hk ..
    · rfl

/-- **A section that keeps the slot of a packet** keeps the entry of its connection. -/
theorem section_entryKept (hsec : sec.records = false) (hafter : ((sec.step engine).pending j).inUse = true)
    (hused : (engine.connections i).inUse = true)
    (hid : (engine.connections i).connectionId = (engine.pending j).connectionId) :
    EntryKept engine sec i := by
  cases sec with
  | trackPending packet buffer now => cases hsec
  | processPacket packet addr now nowAdd => exact processPacket_entryKept hafter hused hid
  | getConnection cid now => exact getConnection_entryKept hafter hused hid
  | closeLocked cid => exact closeLocked_entryKept hafter hused hid
  | receiveTimeout now nowRetransmit sendOk =>
      have htick := retransmit_keepsPacket (engine.cleanupConnections now) nowRetransmit sendOk j hafter
      have hstart := cleanup_keeps_entry htick.1 hid
      refine EntryKept.of_eq hused hstart ?_
      change ((engine.cleanupConnections now).retransmitPending nowRetransmit sendOk).2.connections i = _
      rw [retransmitPending_connections]
      exact hstart
  | ackPending cid pn =>
      exact .of_eq hused rfl (congrFun (ackPending_connections engine cid pn) i)
  | onData slot call =>
      by_cases hi : i = slot
      · subst hi
        refine ⟨hused, ?_, ?_⟩
        · change ((engine.onData i call).2.connections i).inUse = true
          rw [onData_connections, Function.update_self]
          exact hused
        · change ((engine.onData i call).2.connections i).connectionId = _
          rw [onData_connections, Function.update_self]
      · apply EntryKept.of_eq hused rfl
        change (engine.onData slot call).2.connections i = _
        rw [onData_connections, Function.update_of_ne hi]
  | countReceived => exact .of_eq hused rfl rfl
  | countSent => exact .of_eq hused rfl rfl
  | setStateHandler installed => exact .of_eq hused rfl rfl
  | setStreamDataHandler installed => exact .of_eq hused rfl rfl

end Entries

/-! ### Data of a connection that has ended -/

/-- The incarnation of the connection is in the table. -/
def SendState.IsOpen (s : SendState) (connectionId : UInt64) (found : Incarnation) : Prop :=
  (s.engine.connections found.slot).inUse = true ∧
    (s.engine.connections found.slot).connectionId = connectionId ∧ s.generation found.slot = found.generation

theorem lookup_isOpen {s : SendState} {tid : Nat} {packet : QuicPacket} {now : Int} {addr : SockAddr}
    (hidle : s.senders tid = .idle)
    (hfound : (s.engine.getConnection packet.connectionId now).1 = some addr) :
    ∃ found, (s.step (.lookup tid packet now)).senders tid = .located packet addr (some found) ∧
      (s.step (.lookup tid packet now)).IsOpen packet.connectionId found := by
  set start := s.engine.cleanupConnections now with hstart
  have hget : ∃ i, start.findEntry packet.connectionId = some i ∧
      (s.engine.getConnection packet.connectionId now).2 =
        start.setConnection i { start.connections i with lastSeen := now } := by
    unfold QuicEngine.getConnection at hfound ⊢
    rw [← hstart] at hfound ⊢
    dsimp only at hfound ⊢
    split at hfound
    · cases hfound
    · rename_i i hfind
      split_ifs at hfound ⊢ with hconn
      · exact ⟨i, hfind, rfl⟩
  obtain ⟨i, hfind, hengine⟩ := hget
  obtain ⟨hused, hid⟩ := findEntry_some hfind
  have hstep : s.step (.lookup tid packet now) =
      (s.exec (.getConnection packet.connectionId now)).setSender tid
        (.located packet addr (some ⟨i, s.generation i⟩)) := by
    simp only [SendState.step, hidle, hfound, SendState.lookupFinds, ← hstart, hfind, Option.map_some]
  have hentry : (s.engine.getConnection packet.connectionId now).2.connections i =
      { start.connections i with lastSeen := now } := by
    rw [hengine]
    exact Function.update_self ..
  refine ⟨⟨i, s.generation i⟩, ?_, ?_⟩
  · rw [hstep, SendState.setSender_self]
  · rw [hstep]
    refine ⟨?_, ?_, ?_⟩
    · change ((s.engine.getConnection packet.connectionId now).2.connections i).inUse = true
      rw [hentry]
      exact hused
    · change ((s.engine.getConnection packet.connectionId now).2.connections i).connectionId = _
      rw [hentry]
      exact hid
    · change (if Created s.engine (.getConnection packet.connectionId now) i then _ else _) = _
      rw [if_neg]
      intro hcreated
      have hfree : (start.connections i).inUse = false := hcreated.1
      rw [hused] at hfree
      cases hfree

/-- The step records no DATA packet whose connection has ended since its lookup. -/
def RecordedOpen (s : SendState) (l : SendStep) : Prop :=
  ∀ tid now packet buffer found, l = .track tid now → s.senders tid = .counted packet buffer (some found) →
    packet.has quicFlagData = true → s.IsOpen packet.connectionId found

/-- Every slot in use holds a packet of a connection that is still open. -/
def OwnersOpen (s : SendState) : Prop :=
  ∀ j found, (s.engine.pending j).inUse = true → s.owner j = some found →
    s.IsOpen (s.engine.pending j).connectionId found

section Owners

variable {s : SendState} {cid : UInt64} {found : Incarnation}

theorem exec_isOpen {sec : EngineSection} (h : s.IsOpen cid found) (hkept : EntryKept s.engine sec found.slot) :
    (s.exec sec).IsOpen cid found := by
  refine ⟨hkept.used, hkept.id.trans h.2.1, ?_⟩
  change (if Created s.engine sec found.slot then _ else _) = _
  rw [if_neg]
  · exact h.2.2
  · intro hcreated
    have hfree := hcreated.1
    rw [hkept.start] at hfree
    cases hfree

theorem OwnersOpen.exec (h : OwnersOpen s) {sec : EngineSection} (hsec : sec.records = false) :
    OwnersOpen (s.exec sec) := by
  intro j found hused howner
  obtain ⟨hold, hid, -, -⟩ := section_keepsPacket s.engine hsec j hused
  have hopen := h j found hold howner
  have hcid : ((s.exec sec).engine.pending j).connectionId = (s.engine.pending j).connectionId := hid
  rw [hcid]
  exact exec_isOpen hopen (section_entryKept hsec hused hopen.1 hopen.2.1)

theorem OwnersOpen.record (h : OwnersOpen s) {packet : QuicPacket} {buffer : Bytes} {found : Option Incarnation}
    (now : Int) (hopen : ∀ f, found = some f → packet.has quicFlagData = true → s.IsOpen packet.connectionId f) :
    OwnersOpen (s.record packet buffer found now) := by
  intro j f hused howner
  have hslot := record_pending s packet buffer found now j
  have hexec : ∀ cid, s.IsOpen cid f → (s.record packet buffer found now).IsOpen cid f := by
    intro cid hf
    exact exec_isOpen hf (.of_eq hf.1 rfl (congrFun (trackPending_connections s.engine packet buffer now) _))
  change (if buffer ≠ [] ∧ packet.has quicFlagData = true ∧
    findFree QuicPendingEntry.inUse s.engine.pending = some j then found else s.owner j) = some f at howner
  split_ifs at hslot howner with hfills
  · rw [hslot]
    exact hexec _ (hopen f howner hfills.2.1)
  · rw [hslot] at hused ⊢
    exact hexec _ (h j f hused howner)

theorem OwnersOpen.step (h : OwnersOpen s) {l : SendStep} (hrecord : RecordedOpen s l) :
    OwnersOpen (s.step l) := by
  have hcase := step_case s l
  generalize s.step l = s' at hcase ⊢
  cases hcase with
  | stay => exact h
  | run sec hsec hl => exact h.exec hsec
  | lookup sec hsec hacks => exact h.exec hsec
  | locate sec hsec hacks tid packet addr found => exact h.exec hsec
  | call tid packet addr => exact h
  | fail tid => exact h
  | put tid packet addr buffer found hl hsender hser => exact h
  | count tid packet buffer found hsender =>
      have hcounted : OwnersOpen (s.exec .countSent) := h.exec rfl
      exact hcounted
  | track tid packet buffer found now hl hsender =>
      apply OwnersOpen.record h now
      rintro f rfl hdata
      exact hrecord tid now packet buffer f hl hsender hdata

/-- **An incarnation that has ended** does not come back: its slot gets a new generation when it is put in
use again. -/
theorem exec_stays_ended {sec : EngineSection} (hgen : found.generation ≤ s.generation found.slot)
    (h : ¬ s.IsOpen cid found) :
    found.generation ≤ (s.exec sec).generation found.slot ∧ ¬ (s.exec sec).IsOpen cid found := by
  have hgrows : s.generation found.slot ≤ (s.exec sec).generation found.slot := by
    change _ ≤ (if Created s.engine sec found.slot then _ else _)
    split_ifs <;> omega
  refine ⟨hgen.trans hgrows, fun hopen => h ?_⟩
  obtain ⟨hused, hid, hsame⟩ := hopen
  change ((sec.step s.engine).connections found.slot).inUse = true at hused
  change ((sec.step s.engine).connections found.slot).connectionId = cid at hid
  change (if Created s.engine sec found.slot then s.generation found.slot + 1
    else s.generation found.slot) = found.generation at hsame
  split_ifs at hsame with hcreated
  · omega
  · have hstart : ((sec.start s.engine).connections found.slot).inUse = true := by
      by_contra hfree
      exact hcreated ⟨Bool.eq_false_iff.mpr hfree, hused⟩
    have hbefore := start_used hstart
    have hstep := step_slot s.engine sec found.slot
    rw [hbefore] at hstart hstep
    refine ⟨hstart, ?_, hsame⟩
    cases hstep with
    | kept hsameId _ _ => rw [← hsameId, hid]
    | freed hfree _ =>
        rw [hfree] at hused
        cases hused
    | created _ hfree _ _ _ =>
        rw [hfree] at hstart
        cases hstart
    | connected _ hsameId _ _ _ => rw [← hsameId, hid]

theorem step_stays_ended (hgen : found.generation ≤ s.generation found.slot) (h : ¬ s.IsOpen cid found)
    (l : SendStep) :
    found.generation ≤ (s.step l).generation found.slot ∧ ¬ (s.step l).IsOpen cid found := by
  have hcase := step_case s l
  generalize s.step l = s' at hcase ⊢
  cases hcase with
  | stay => exact ⟨hgen, h⟩
  | run sec hsec hl => exact exec_stays_ended hgen h
  | lookup sec hsec hacks => exact exec_stays_ended hgen h
  | locate sec hsec hacks tid packet addr f => exact exec_stays_ended hgen h
  | call tid packet addr => exact ⟨hgen, h⟩
  | fail tid => exact ⟨hgen, h⟩
  | put tid packet addr buffer f hl hsender hser => exact ⟨hgen, h⟩
  | count tid packet buffer f hsender => exact exec_stays_ended hgen h
  | track tid packet buffer f now hl hsender => exact exec_stays_ended hgen h

end Owners

/-- The step retransmits a packet of the connection whose lookup found the incarnation. -/
def RetransmitsFor (s : SendState) (l : SendStep) (connectionId : UInt64) (found : Incarnation) : Prop :=
  ∃ j buffer addr, .resent j buffer addr ∈ s.outputs l ∧ s.owner j = some found ∧
    (s.engine.pending j).connectionId = connectionId

theorem OwnersOpen.retransmits {s : SendState} (h : OwnersOpen s) {l : SendStep} {cid : UInt64}
    {found : Incarnation} (hsent : RetransmitsFor s l cid found) :
    ∃ now nowRetransmit sendOk, l = .other (.receiveTimeout now nowRetransmit sendOk) ∧
      SendState.IsOpen { s with engine := s.engine.cleanupConnections now } cid found := by
  obtain ⟨j, buffer, addr, hout, howner, rfl⟩ := hsent
  obtain ⟨now, nowRetransmit, sendOk, rfl, hused, -⟩ := resent_slot hout
  have hsame := (cleanup_keeps s.engine j now).used hused
  have hopen := h j found (by rw [← hsame]; exact hused) howner
  have hentry := cleanup_keeps_entry hused hopen.2.1
  refine ⟨now, nowRetransmit, sendOk, rfl, ?_, ?_, hopen.2.2⟩
  · change ((s.engine.cleanupConnections now).connections found.slot).inUse = true
    rw [hentry]
    exact hopen.1
  · change ((s.engine.cleanupConnections now).connections found.slot).connectionId = _
    rw [hentry]
    exact hopen.2.1

/-- **Data of a connection that has ended is not retransmitted** in a run that records no DATA packet
whose connection has ended since its lookup: not in the tick whose clean-up ends it, and not in any state
after one in which it has ended, whoever has opened the connection again. -/
theorem ended_data_never_retransmitted (handler : Bool) (before after : List SendStep) (s₁ s : SendState)
    (hbefore : ((sendSystem handler).restrict RecordedOpen).Run (.initial handler) before s₁)
    (hafter : ((sendSystem handler).restrict RecordedOpen).Run s₁ after s) (cid : UInt64) (found : Incarnation) :
    (∀ now nowRetransmit sendOk,
      RetransmitsFor s (.other (.receiveTimeout now nowRetransmit sendOk)) cid found →
      SendState.IsOpen { s with engine := s.engine.cleanupConnections now } cid found) ∧
    (found.generation ≤ s₁.generation found.slot → ¬ s₁.IsOpen cid found →
      ∀ l, ¬ RetransmitsFor s l cid found) := by
  have howners : OwnersOpen s := by
    refine (hbefore.trans hafter).preserves (I := OwnersOpen) ?_ ?_
    · intro j f hused
      cases hused
    · rintro s l _ h ⟨hrecord, rfl⟩
      exact h.step hrecord
  refine ⟨fun now nowRetransmit sendOk hsent => ?_, fun hgen hended l hsent => ?_⟩
  · obtain ⟨now', nowRetransmit', sendOk', heq, hopen⟩ := howners.retransmits hsent
    cases heq
    exact hopen
  · have hstays : found.generation ≤ s.generation found.slot ∧ ¬ s.IsOpen cid found := by
      refine hafter.preserves (I := fun s => found.generation ≤ s.generation found.slot ∧ ¬ s.IsOpen cid found)
        ⟨hgen, hended⟩ ?_
      rintro s l _ ⟨hgen, hended⟩ ⟨-, rfl⟩
      exact step_stays_ended hgen hended l
    obtain ⟨j, buffer, addr, hout, howner, rfl⟩ := hsent
    obtain ⟨now, -, -, -, hused, -⟩ := resent_slot hout
    have hsame := (cleanup_keeps s.engine j now).used hused
    exact hstays.2 (howners j found (by rw [← hsame]; exact hused) howner)

/-- A lookup finds connection 7 and the datagram goes out; then the connection is closed. -/
def closedInWindow : List SendStep :=
  [sampleOpen, .lookup 0 (samplePending 1) 0, .sendto 0 true, .count 0, .other (.closeLocked 7)]

/-- The client opens connection 7 again, and the old packet is recorded: the tick sends it to the new
connection. -/
theorem closed_data_retransmitted :
    ¬ ∀ (handler : Bool) (before after : List SendStep) (s₁ s : SendState),
      (sendSystem handler).Run (.initial handler) before s₁ → (sendSystem handler).Run s₁ after s →
      ∀ (cid : UInt64) (found : Incarnation),
        found.generation ≤ s₁.generation found.slot → ¬ s₁.IsOpen cid found →
        ∀ l, ¬ RetransmitsFor s l cid found := by
  intro h
  have hended := h false closedInWindow [sampleOpen, .track 0 0] _ _ (System.run_ofFun.mpr rfl)
    (System.run_ofFun.mpr rfl) 7 ⟨0, 1⟩ (by decide +kernel) ?_ sampleTick
  · apply hended
    refine ⟨0, (samplePending 1).wire, sampleAddr, mem_resentOn.mp ?_, ?_, ?_⟩
    · decide +kernel
    · decide +kernel
    · decide +kernel
  · intro hopen
    have hused := hopen.1
    revert hused
    decide +kernel

/-- The same packet, recorded before the connection is closed. -/
def recordedInTime : List SendStep :=
  [sampleOpen, .lookup 0 (samplePending 1) 0, .sendto 0 true, .count 0, .track 0 0, .other (.closeLocked 7)]

theorem ended_data_never_retransmitted_one :
    ¬ RetransmitsFor ([sampleOpen].foldl SendState.step (recordedInTime.foldl SendState.step (.initial false)))
      sampleTick 7 ⟨0, 1⟩ := by
  have hother : ∀ {s : SendState} {l : SendStep}, (∀ tid now, l ≠ .track tid now) → RecordedOpen s l :=
    fun htrack tid now _ _ _ hl => absurd hl (htrack tid now)
  refine (ended_data_never_retransmitted false recordedInTime [sampleOpen]
    (recordedInTime.foldl SendState.step (.initial false)) _ ?_ ?_ 7 ⟨0, 1⟩).2 (by decide +kernel) ?_ sampleTick
  · refine System.run_cons_iff.mpr ⟨_, ⟨hother (by simp [sampleOpen]), rfl⟩, ?_⟩
    refine System.run_cons_iff.mpr ⟨_, ⟨hother (by simp), rfl⟩, ?_⟩
    refine System.run_cons_iff.mpr ⟨_, ⟨hother (by simp), rfl⟩, ?_⟩
    refine System.run_cons_iff.mpr ⟨_, ⟨hother (by simp), rfl⟩, ?_⟩
    refine System.run_cons_iff.mpr ⟨_, ⟨?_, rfl⟩, ?_⟩
    · intro tid now packet buffer found hl hsender hdata
      have hthread : ([sampleOpen, .lookup 0 (samplePending 1) 0, .sendto 0 true, .count 0].foldl SendState.step
          (.initial false)).senders 0 = .counted (samplePending 1) (samplePending 1).wire (some ⟨0, 1⟩) := by
        decide +kernel
      obtain ⟨rfl, -⟩ := SendStep.track.inj hl
      obtain ⟨rfl, -, hfound⟩ := Sender.counted.inj (hsender.symm.trans hthread)
      rw [Option.some.inj hfound]
      refine ⟨?_, ?_, ?_⟩ <;> decide +kernel
    · exact System.run_cons_iff.mpr ⟨_, ⟨hother (by simp), rfl⟩, .nil⟩
  · exact System.run_cons_iff.mpr ⟨_, ⟨hother (by simp [sampleOpen]), rfl⟩, .nil⟩
  · intro hopen
    have hused := hopen.1
    revert hused
    decide +kernel

end OttQuic
