import OttQuic.Quic.Sections

/-!
# The connection table

Slots are reused after a close and after a time-out, and one packet may carry any flags, so that it can
create, connect and close its connection at once. Two facts carry the table through all of it. Every
lookup comes after the clean-up and before the write, so a packet that creates an entry has just found
none with its id (`step_uniqueIds`). And a slot goes from unused to used only in a section that processes
an INITIAL packet, from CONNECTING to CONNECTED only in one that processes a HANDSHAKE (`SlotStep`);
a run therefore has, for every used slot, the section that created it last (`lifetime_run`).
-/

namespace OttQuic

open SlotTable QuicEngine

/-- An entry in use is CONNECTING or CONNECTED, an unused one IDLE or CLOSED. -/
def QuicConnectionEntry.StateOk (entry : QuicConnectionEntry) : Prop :=
  (entry.inUse = true → entry.state = .connecting ∨ entry.state = .connected) ∧
    (entry.inUse = false → entry.state = .idle ∨ entry.state = .closed)

structure TableOk (engine : QuicEngine) : Prop where
  unique : UniqueKeys QuicConnectionEntry.inUse QuicConnectionEntry.connectionId engine.connections
  state : ∀ i, (engine.connections i).StateOk

theorem stateOk_of_unused {entry : QuicConnectionEntry} (hused : entry.inUse = false)
    (hstate : entry.state = .idle ∨ entry.state = .closed) : entry.StateOk :=
  ⟨fun h => by simp [hused] at h, fun _ => hstate⟩

theorem stateOk_of_used {entry : QuicConnectionEntry} (hused : entry.inUse = true)
    (hstate : entry.state = .connecting ∨ entry.state = .connected) : entry.StateOk :=
  ⟨fun _ => hstate, fun h => by simp [hused] at h⟩

theorem init_tableOk (handler : Bool) : TableOk (quicEngineInit handler) := by
  refine ⟨fun i j hi => ?_, fun i => stateOk_of_unused rfl (Or.inl rfl)⟩
  simp [quicEngineInit] at hi

/-! ### One section -/

theorem cleanup_unique {engine : QuicEngine} (h : TableOk engine) (now : Int) :
    UniqueKeys QuicConnectionEntry.inUse QuicConnectionEntry.connectionId
      (engine.cleanupConnections now).connections := by
  refine h.unique.mono fun i hi => ?_
  rw [cleanup_connections] at hi ⊢
  split_ifs at hi ⊢ with hout
  · simp [QuicConnectionEntry.close] at hi
  · exact ⟨hi, rfl⟩

theorem processedEntry_connectionId (entry : QuicConnectionEntry) (packet : QuicPacket) :
    (processedEntry entry packet).connectionId = entry.connectionId := by
  unfold processedEntry
  split_ifs <;> rfl

theorem processPacket_unique {engine : QuicEngine} (h : TableOk engine) (packet : QuicPacket)
    (addr : SockAddr) (now nowAdd : Int) :
    UniqueKeys QuicConnectionEntry.inUse QuicConnectionEntry.connectionId
      (engine.processPacket packet addr now nowAdd).2.connections := by
  have hstart := cleanup_unique h now
  have hspec := (engine.processPacket_spec packet addr now nowAdd).2
  cases htarget : (engine.cleanupConnections now).packetTarget packet addr now nowAdd with
  | none =>
      rw [htarget] at hspec
      dsimp only at hspec
      rw [hspec]
      exact hstart
  | some target =>
      rw [htarget] at hspec
      rw [hspec.1]
      obtain ⟨hid, _, hwhich⟩ := packetTarget_cases htarget
      refine hstart.update fun j hj hused hkey => ?_
      rw [processedEntry_connectionId, hid] at hkey
      rcases hwhich with ⟨hfind, _⟩ | ⟨hnone, _⟩
      · have hown := findEntry_some hfind
        exact hj (hstart j target.slot hused hown.1 (by rw [hkey, hown.2]))
      · exact findEntry_none.mp hnone j hused hkey

theorem start_used {engine : QuicEngine} {sec : EngineSection} {i : Fin quicMaxConnections}
    (h : ((sec.start engine).connections i).inUse = true) :
    (sec.start engine).connections i = engine.connections i := by
  rcases start_slot engine sec i with hsame | ⟨_, hclose⟩
  · exact hsame
  · simp [hclose, QuicConnectionEntry.close] at h

theorem step_uniqueIds {engine : QuicEngine} (h : TableOk engine) (sec : EngineSection) :
    UniqueKeys QuicConnectionEntry.inUse QuicConnectionEntry.connectionId
      (sec.step engine).connections := by
  by_cases hsec : ∃ packet addr now nowAdd, sec = .processPacket packet addr now nowAdd
  · obtain ⟨packet, addr, now, nowAdd, rfl⟩ := hsec
    exact processPacket_unique h packet addr now nowAdd
  · -- no other section puts a slot in use
    refine h.unique.mono fun i hi => ?_
    have hkeep : ((sec.start engine).connections i).inUse = true ∧
        ((sec.step engine).connections i).connectionId
          = ((sec.start engine).connections i).connectionId := by
      cases step_slot engine sec i with
      | kept hid hused _ => exact ⟨hused ▸ hi, hid⟩
      | freed hused _ => simp [hused] at hi
      | created hproc _ _ _ _ =>
          obtain ⟨packet, addr, now, nowAdd, heq, _⟩ := hproc
          exact absurd ⟨packet, addr, now, nowAdd, heq⟩ hsec
      | connected _ hid hfrom _ _ => exact ⟨hfrom, hid⟩
    rw [start_used hkeep.1] at hkeep
    exact hkeep

theorem step_stateOk {engine : QuicEngine} (h : TableOk engine) (sec : EngineSection)
    (i : Fin quicMaxConnections) : ((sec.step engine).connections i).StateOk := by
  have hstart : ((sec.start engine).connections i).StateOk := by
    rcases start_slot engine sec i with hsame | ⟨_, hclose⟩
    · rw [hsame]
      exact h.state i
    · rw [hclose]
      exact stateOk_of_unused rfl (Or.inr rfl)
  cases step_slot engine sec i with
  | kept hid hused hstate =>
      unfold QuicConnectionEntry.StateOk
      rw [hused, hstate]
      exact hstart
  | freed hused hstate => exact stateOk_of_unused hused (Or.inr hstate)
  | created _ _ hused _ hstate => exact stateOk_of_used hused (hstate.imp_right And.left)
  | connected _ _ _ hused hstate => exact stateOk_of_used hused (Or.inr hstate)

theorem step_tableOk {engine : QuicEngine} (h : TableOk engine) (sec : EngineSection) :
    TableOk (sec.step engine) := ⟨step_uniqueIds h sec, step_stateOk h sec⟩

theorem reachable_tableOk {handler : Bool} {engine : QuicEngine}
    (h : (engineSystem handler).Reachable engine) : TableOk engine := by
  refine Transition.System.invariant ?_ ?_ h
  · intro s hs
    rw [hs]
    exact init_tableOk handler
  · intro s sec t hs hstep
    rw [hstep]
    exact step_tableOk hs sec

/-! ### Lifetimes -/

/-- The section puts the slot in use: the slot is unused after the clean-up with which it begins. -/
def Created (engine : QuicEngine) (sec : EngineSection) (i : Fin quicMaxConnections) : Prop :=
  ((sec.start engine).connections i).inUse = false ∧ ((sec.step engine).connections i).inUse = true

/-- In the run `pre ++ sec :: post` the slot is created by `sec` and not again later. -/
def LastCreated (s₀ : QuicEngine) (i : Fin quicMaxConnections) (pre : List EngineSection)
    (sec : EngineSection) (post : List EngineSection) : Prop :=
  Created (runSections s₀ pre) sec i ∧
    ∀ a s b, post = a ++ s :: b → ¬ Created (runSections s₀ (pre ++ sec :: a)) s i

theorem runSections_snoc (s₀ : QuicEngine) (secs : List EngineSection) (sec : EngineSection) :
    runSections s₀ (secs ++ [sec]) = sec.step (runSections s₀ secs) := by
  simp [runSections]

theorem created_slot {engine : QuicEngine} {sec : EngineSection} {i : Fin quicMaxConnections}
    (h : Created engine sec i) :
    sec.Processes ((sec.step engine).connections i).connectionId quicFlagInitial ∧
      ((sec.step engine).connections i).streamMgr = quicStreamManagerInit ∧
      (((sec.step engine).connections i).state = .connected →
        sec.Processes ((sec.step engine).connections i).connectionId quicFlagHandshake) := by
  obtain ⟨hfree, hafter⟩ := h
  cases step_slot engine sec i with
  | kept _ hused _ => simp [hused, hfree] at hafter
  | freed hused _ => simp [hused] at hafter
  | created hsec _ _ hmgr hstate =>
      refine ⟨hsec, hmgr, fun hconn => ?_⟩
      rcases hstate with hstate | ⟨_, hhand⟩
      · simp [hconn] at hstate
      · exact hhand
  | connected _ _ hfrom _ _ => simp [hfree] at hfrom

theorem LastCreated.snoc {s₀ : QuicEngine} {i : Fin quicMaxConnections} {pre post : List EngineSection}
    {sec s : EngineSection} (h : LastCreated s₀ i pre sec post)
    (hnot : ¬ Created (runSections s₀ (pre ++ sec :: post)) s i) :
    LastCreated s₀ i pre sec (post ++ [s]) := by
  refine ⟨h.1, fun a s' b hsplit => ?_⟩
  rcases List.eq_nil_or_concat b with rfl | ⟨b', last, rfl⟩
  · obtain ⟨rfl, hlast⟩ := List.append_inj' hsplit rfl
    rw [List.singleton_inj] at hlast
    rw [← hlast]
    exact hnot
  · rw [List.concat_eq_append, ← List.cons_append, ← List.append_assoc] at hsplit
    obtain ⟨hpost, _⟩ := List.append_inj' hsplit rfl
    exact h.2 a s' b' hpost

/-- Every slot in use was created by some section of the run, and if its connection is CONNECTED, a
HANDSHAKE for it has been processed in that section or later. -/
theorem lifetime_run (handler : Bool) (secs : List EngineSection) (i : Fin quicMaxConnections) :
    let entry := (runSections (quicEngineInit handler) secs).connections i
    entry.inUse = true →
      ∃ pre sec post, secs = pre ++ sec :: post ∧ LastCreated (quicEngineInit handler) i pre sec post ∧
        (entry.state = .connected →
          ∃ s ∈ sec :: post, s.Processes entry.connectionId quicFlagHandshake) := by
  induction secs using List.reverseRecOn with
  | nil =>
      intro entry hused
      simp [entry, runSections, quicEngineInit] at hused
  | append_singleton secs s ih =>
      dsimp only at ih ⊢
      rw [runSections_snoc]
      set engine := runSections (quicEngineInit handler) secs with hengine
      intro hused
      by_cases hcreated : Created engine s i
      · refine ⟨secs, s, [], rfl, ⟨hcreated, fun a s' b h => by simp at h⟩, fun hconn => ?_⟩
        exact ⟨s, List.mem_cons_self, (created_slot hcreated).2.2 hconn⟩
      · have hstart : ((s.start engine).connections i).inUse = true := by
          by_contra hfree
          exact hcreated ⟨by simpa using hfree, hused⟩
        have hsame := start_used hstart
        rw [hsame] at hstart
        obtain ⟨pre, sec, post, hsplit, hlast, hhand⟩ := ih hstart
        refine ⟨pre, sec, post ++ [s], by rw [hsplit]; simp, ?_, fun hconn => ?_⟩
        · apply hlast.snoc
          rw [← hsplit]
          exact hcreated
        · have hstep := step_slot engine s i
          rw [hsame] at hstep
          cases hstep with
          | kept hid _ hstate =>
              obtain ⟨s', hs', hproc⟩ := hhand (by rw [← hstate, hconn])
              rw [hid]
              exact ⟨s', List.mem_append_left [s] hs', hproc⟩
          | freed hfree _ => simp [hfree] at hused
          | created _ hfree _ _ _ => simp [hfree] at hstart
          | connected hproc _ _ _ _ =>
              exact ⟨s, by simp, hproc⟩

/-- **The connection table.** After any sections of any threads: the ids of the entries in use are
unique; the state of an entry agrees with its use; any further section that creates an entry processes
an INITIAL packet of that id and leaves the entry without stream data; and a CONNECTED entry has had a
HANDSHAKE of its id processed since it was last created. -/
theorem connection_table_correct (handler : Bool) (secs : List EngineSection) :
    let s₀ := quicEngineInit handler
    let engine := runSections s₀ secs
    (∀ i j, (engine.connections i).inUse = true → (engine.connections j).inUse = true →
      (engine.connections i).connectionId = (engine.connections j).connectionId → i = j) ∧
    (∀ i, (engine.connections i).StateOk) ∧
    (∀ sec i, Created engine sec i →
      sec.Processes ((sec.step engine).connections i).connectionId quicFlagInitial ∧
        ((sec.step engine).connections i).streamMgr = quicStreamManagerInit) ∧
    (∀ i, (engine.connections i).inUse = true → (engine.connections i).state = .connected →
      ∃ pre sec post, secs = pre ++ sec :: post ∧ LastCreated s₀ i pre sec post ∧
        ∃ s ∈ sec :: post, s.Processes (engine.connections i).connectionId quicFlagHandshake) := by
  intro s₀ engine
  have hok : TableOk engine := reachable_tableOk (reachable_runSections handler secs)
  refine ⟨hok.unique, hok.state, fun sec i hcreated => ?_, fun i hused hconn => ?_⟩
  · have h := created_slot hcreated
    exact ⟨h.1, h.2.1⟩
  · obtain ⟨pre, sec, post, hsplit, hlast, hhand⟩ := lifetime_run handler secs i hused
    exact ⟨pre, sec, post, hsplit, hlast, hhand hconn⟩

end OttQuic
