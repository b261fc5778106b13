import OttQuic.Quic.Sections

/-!
# The connection counters

`connections_opened` counts at the end of `quic_engine_process_packet`, behind the early return of a
CLOSE; `connections_closed` counts wherever an entry is freed. A packet that creates its entry and closes
it in the same call is therefore counted as closed only. The books of a run balance exactly if no packet
did that (`connections_balanced_iff`).
-/

namespace OttQuic

open SlotTable QuicEngine

namespace QuicEngine

/-- The number of connection entries in use. -/
def inUseCount (engine : QuicEngine) : Nat := usedCount QuicConnectionEntry.inUse engine.connections

/-- The connections opened are those closed and those in use. -/
def Balanced (engine : QuicEngine) : Prop :=
  engine.metrics.connectionsOpened.toNat =
    engine.metrics.connectionsClosed.toNat + engine.inUseCount

end QuicEngine

/-- The section processes an INITIAL packet with CLOSE that finds no entry and a free slot. -/
def EngineSection.createsAndCloses (engine : QuicEngine) : EngineSection → Bool
  | .processPacket packet _ now _ =>
    packet.has quicFlagInitial && packet.has quicFlagClose &&
      ((engine.cleanupConnections now).findEntry packet.connectionId).isNone &&
      (findFree QuicConnectionEntry.inUse (engine.cleanupConnections now).connections).isSome
  | _ => false

/-- What happened between two states of the engine: entries that were opened and counted, opened and not
counted, and closed. -/
structure Books (before after : QuicEngine) (opened skipped closed : Nat) : Prop where
  connectionsOpened :
    after.metrics.connectionsOpened = before.metrics.connectionsOpened + UInt64.ofNat opened
  connectionsClosed :
    after.metrics.connectionsClosed = before.metrics.connectionsClosed + UInt64.ofNat closed
  inUseCount : after.inUseCount + closed = before.inUseCount + opened + skipped

/-- The two counters. -/
def QuicEngine.counters (engine : QuicEngine) : UInt64 × UInt64 :=
  (engine.metrics.connectionsOpened, engine.metrics.connectionsClosed)

theorem Books.of_eq {before after : QuicEngine} (hcounters : after.counters = before.counters)
    (hused : ∀ i, (after.connections i).inUse = (before.connections i).inUse) :
    Books before after 0 0 0 := by
  obtain ⟨hopened, hclosed⟩ := Prod.mk.inj hcounters
  refine ⟨by rw [hopened]; exact (UInt64.add_zero _).symm,
    by rw [hclosed]; exact (UInt64.add_zero _).symm, ?_⟩
  exact usedCount_congr hused

theorem Books.refl (engine : QuicEngine) : Books engine engine 0 0 0 := .of_eq rfl fun _ => rfl

theorem Books.trans {e₁ e₂ e₃ : QuicEngine} {o o' s s' c c' : Nat} (h : Books e₁ e₂ o s c)
    (h' : Books e₂ e₃ o' s' c') : Books e₁ e₃ (o + o') (s + s') (c + c') := by
  refine ⟨?_, ?_, ?_⟩
  · rw [h'.connectionsOpened, h.connectionsOpened, UInt64.ofNat_add, UInt64.add_assoc]
  · rw [h'.connectionsClosed, h.connectionsClosed, UInt64.ofNat_add, UInt64.add_assoc]
  · have hfirst := h.inUseCount
    have hsecond := h'.inUseCount
    omega

/-! ### The functions -/

theorem closeEntry_books {engine : QuicEngine} {i : Fin quicMaxConnections}
    (hused : (engine.connections i).inUse = true) : Books engine (engine.closeEntry i) 0 0 1 := by
  refine ⟨(UInt64.add_zero _).symm, rfl, ?_⟩
  have hcount := usedCount_update QuicConnectionEntry.inUse engine.connections i
    (engine.connections i).close
  rw [hused, ← closeEntry_connections] at hcount
  exact hcount

theorem cleanup_books (engine : QuicEngine) (now : Int) :
    ∃ closed, Books engine (engine.cleanupConnections now) 0 0 closed := by
  rw [cleanupConnections_eq]
  refine forSlots_preserves (I := fun s => ∃ closed, Books engine s 0 0 closed)
    ⟨0, Books.refl engine⟩ fun s i hs => ?_
  obtain ⟨closed, hbooks⟩ := hs
  split_ifs with hout
  · exact ⟨closed + 1, hbooks.trans (closeEntry_books hout.1)⟩
  · exact ⟨closed, hbooks⟩

/-- A CLOSE counts the entry as closed; any other packet counts the one it has created as opened. -/
theorem processEntry_counters (engine : QuicEngine) (packet : QuicPacket) (addr : SockAddr)
    (i : Fin quicMaxConnections) (created : Bool) (changed : Option (QuicConnectionState × SockAddr)) :
    (engine.processEntry packet addr i created changed).2.counters =
      if packet.has quicFlagClose then
        (engine.metrics.connectionsOpened, engine.metrics.connectionsClosed + 1)
      else (engine.metrics.connectionsOpened + UInt64.ofNat created.toNat,
        engine.metrics.connectionsClosed) := by
  unfold QuicEngine.processEntry
  by_cases hclose : packet.has quicFlagClose = true
  · rw [if_pos hclose, if_pos hclose]
    rfl
  · rw [if_neg hclose, if_neg hclose]
    by_cases hconnects : (engine.connections i).state = .connecting ∧ packet.has quicFlagHandshake = true
    · cases created <;> simp [hconnects, setConnection, counters]
    · cases created <;> simp [hconnects, counters]

theorem targeted_counters (engine : QuicEngine) (target : PacketTarget) (migrated : Bool) :
    (engine.targeted target migrated).counters = engine.counters := by
  cases migrated <;> rfl

theorem createsAndCloses_target {engine : QuicEngine} {packet : QuicPacket} {addr : SockAddr}
    {now nowAdd : Int} {target : PacketTarget}
    (h : (engine.cleanupConnections now).packetTarget packet addr now nowAdd = some target) :
    EngineSection.createsAndCloses engine (.processPacket packet addr now nowAdd) =
      (target.created && packet.has quicFlagClose) := by
  unfold QuicEngine.packetTarget at h
  cases hfind : (engine.cleanupConnections now).findEntry packet.connectionId with
  | some i =>
      rw [hfind] at h
      obtain rfl := Option.some.inj h
      simp [EngineSection.createsAndCloses, hfind]
  | none =>
      rw [hfind] at h
      dsimp only at h
      split_ifs at h with hinit
      obtain ⟨i, hfree, rfl⟩ := Option.map_eq_some_iff.mp h
      simp [EngineSection.createsAndCloses, hfind, hfree, hinit]

theorem createsAndCloses_refused {engine : QuicEngine} {packet : QuicPacket} {addr : SockAddr}
    {now nowAdd : Int}
    (h : (engine.cleanupConnections now).packetTarget packet addr now nowAdd = none) :
    EngineSection.createsAndCloses engine (.processPacket packet addr now nowAdd) = false := by
  unfold QuicEngine.packetTarget at h
  cases hfind : (engine.cleanupConnections now).findEntry packet.connectionId with
  | some i => rw [hfind] at h; exact absurd h (Option.some_ne_none _)
  | none =>
      rw [hfind] at h
      dsimp only at h
      split_ifs at h with hinit
      · rw [Option.map_eq_none_iff] at h
        simp [EngineSection.createsAndCloses, h]
      · simp [EngineSection.createsAndCloses, hinit]

theorem Books.of_processed {start after : QuicEngine} {created close : Bool}
    (hcounters : after.counters =
      if close then (start.metrics.connectionsOpened, start.metrics.connectionsClosed + 1)
      else (start.metrics.connectionsOpened + UInt64.ofNat created.toNat, start.metrics.connectionsClosed))
    (hcount : after.inUseCount + (!created).toNat = start.inUseCount + (!close).toNat) :
    Books start after (created && !close).toNat (created && close).toNat close.toNat := by
  cases close with
  | true =>
      obtain ⟨hopened, hclosed⟩ := Prod.mk.inj hcounters
      rw [Bool.not_true, Bool.and_false, Bool.and_true]
      refine ⟨hopened.trans (UInt64.add_zero _).symm, hclosed, ?_⟩
      cases created <;> simp at hcount ⊢ <;> omega
  | false =>
      obtain ⟨hopened, hclosed⟩ := Prod.mk.inj hcounters
      rw [Bool.not_false, Bool.and_true, Bool.and_false]
      refine ⟨hopened, hclosed.trans (UInt64.add_zero _).symm, ?_⟩
      cases created <;> simp at hcount ⊢ <;> omega

theorem processPacket_books (engine : QuicEngine) (packet : QuicPacket) (addr : SockAddr)
    (now nowAdd : Int) :
    ∃ opened closed, Books engine (engine.processPacket packet addr now nowAdd).2 opened
        (EngineSection.createsAndCloses engine (.processPacket packet addr now nowAdd)).toNat closed ∧
      opened + (EngineSection.createsAndCloses engine (.processPacket packet addr now nowAdd)).toNat ≤ 1 := by
  obtain ⟨timedOut, hcleanup⟩ := cleanup_books engine now
  have hspec := (engine.processPacket_spec packet addr now nowAdd).2
  rcases engine.processPacket_eq packet addr now nowAdd with
    ⟨target, migrated, changed, htarget, -, hresult⟩ | ⟨htarget, hresult⟩
  · rw [htarget] at hspec
    rw [createsAndCloses_target htarget]
    obtain ⟨-, hused, hwhich⟩ := packetTarget_cases htarget
    have hbefore : ((engine.cleanupConnections now).connections target.slot).inUse = !target.created := by
      rcases hwhich with ⟨hfind, hcreated, -⟩ | ⟨-, hcreated, -, hfree, -⟩
      · rw [(findEntry_some hfind).1, hcreated]
        rfl
      · rw [hfree, hcreated]
        rfl
    have hafter : (processedEntry target.entry packet).inUse = !packet.has quicFlagClose := by
      unfold processedEntry
      split_ifs with hclose
      · simp [hclose, QuicConnectionEntry.close]
      · simp [hclose, hused]
      · simp [hclose, hused]
    have hcount := usedCount_update QuicConnectionEntry.inUse
      (engine.cleanupConnections now).connections target.slot (processedEntry target.entry packet)
    rw [hbefore, hafter, ← hspec.1] at hcount
    have hcounters := processEntry_counters ((engine.cleanupConnections now).targeted target migrated)
      packet addr target.slot target.created changed
    rw [← hresult] at hcounters
    obtain ⟨hopened, hclosed⟩ := Prod.mk.inj (targeted_counters (engine.cleanupConnections now) target migrated)
    rw [hopened, hclosed] at hcounters
    refine ⟨(target.created && !packet.has quicFlagClose).toNat,
      timedOut + (packet.has quicFlagClose).toNat, ?_, ?_⟩
    · have hbooks := Books.of_processed hcounters hcount
      have hall := hcleanup.trans hbooks
      rw [Nat.zero_add, Nat.zero_add] at hall
      exact hall
    · cases target.created <;> cases packet.has quicFlagClose <;> decide
  · rw [createsAndCloses_refused htarget, hresult]
    exact ⟨0, timedOut, hcleanup, Nat.zero_le 1⟩

/-! ### Sections and runs -/

def EngineSection.isPacket : EngineSection → Bool
  | .processPacket .. => true
  | _ => false

theorem trackPending_counters (engine : QuicEngine) (packet : QuicPacket) (buffer : Bytes) (now : Int) :
    (engine.trackPending packet buffer now).counters = engine.counters := by
  unfold trackPending
  split_ifs
  · rfl
  · rfl
  · split <;> rfl

theorem ackPending_counters (engine : QuicEngine) (cid : UInt64) (pn : UInt32) :
    (engine.ackPending cid pn).counters = engine.counters := by
  unfold ackPending
  split <;> rfl

theorem retransmitPending_counters (engine : QuicEngine) (now : Int)
    (sendOk : Fin quicMaxPending → Bool) :
    (engine.retransmitPending now sendOk).2.counters = engine.counters :=
  retransmitPending_frame counters (fun _ _ _ => rfl) (fun _ _ => rfl) engine now sendOk

theorem setConnection_books {engine : QuicEngine} {i : Fin quicMaxConnections} {entry : QuicConnectionEntry}
    (h : entry.inUse = (engine.connections i).inUse) : Books engine (engine.setConnection i entry) 0 0 0 := by
  refine .of_eq rfl fun j => ?_
  show (Function.update engine.connections i entry j).inUse = _
  rw [Function.update_apply]
  split_ifs with hj
  · rw [h, hj]
  · rfl

theorem getConnection_books (engine : QuicEngine) (cid : UInt64) (now : Int) :
    ∃ closed, Books engine (engine.getConnection cid now).2 0 0 closed := by
  obtain ⟨timedOut, hcleanup⟩ := cleanup_books engine now
  refine ⟨timedOut, ?_⟩
  unfold QuicEngine.getConnection
  dsimp only
  cases (engine.cleanupConnections now).findEntry cid with
  | none => exact hcleanup
  | some i =>
      dsimp only
      split_ifs
      · exact hcleanup.trans (setConnection_books (by rfl))
      · exact hcleanup

theorem closeLocked_books (engine : QuicEngine) (cid : UInt64) :
    ∃ closed, Books engine (engine.closeLocked cid).2 0 0 closed := by
  unfold QuicEngine.closeLocked
  cases hfind : engine.findEntry cid with
  | none => exact ⟨0, .refl engine⟩
  | some i =>
      dsimp only
      split_ifs
      · exact ⟨1, closeEntry_books (findEntry_some hfind).1⟩
      · exact ⟨0, .refl engine⟩

/-- **The books of one section.** Only a packet opens an entry, and it opens at most one. -/
theorem step_books (engine : QuicEngine) (sec : EngineSection) :
    ∃ opened closed, Books engine (sec.step engine) opened (sec.createsAndCloses engine).toNat closed ∧
      opened + (sec.createsAndCloses engine).toNat ≤ sec.isPacket.toNat := by
  cases sec with
  | processPacket packet addr now nowAdd => exact processPacket_books engine packet addr now nowAdd
  | getConnection cid now =>
      obtain ⟨closed, hbooks⟩ := getConnection_books engine cid now
      exact ⟨0, closed, hbooks, Nat.le_refl 0⟩
  | closeLocked cid =>
      obtain ⟨closed, hbooks⟩ := closeLocked_books engine cid
      exact ⟨0, closed, hbooks, Nat.le_refl 0⟩
  | receiveTimeout now nowRetransmit sendOk =>
      obtain ⟨closed, hbooks⟩ := cleanup_books engine now
      refine ⟨0, closed, hbooks.trans (.of_eq (retransmitPending_counters _ nowRetransmit sendOk) fun i => ?_),
        Nat.le_refl 0⟩
      exact congrArg (fun t => (t i).inUse) (retransmitPending_connections _ nowRetransmit sendOk)
  | onData slot call => exact ⟨0, 0, setConnection_books rfl, Nat.le_refl 0⟩
  | ackPending cid pn =>
      exact ⟨0, 0, .of_eq (ackPending_counters engine cid pn) fun i =>
        congrArg (fun t => (t i).inUse) (ackPending_connections engine cid pn), Nat.le_refl 0⟩
  | trackPending packet buffer now =>
      exact ⟨0, 0, .of_eq (trackPending_counters engine packet buffer now) fun i =>
        congrArg (fun t => (t i).inUse) (trackPending_connections engine packet buffer now), Nat.le_refl 0⟩
  | countReceived => exact ⟨0, 0, .of_eq rfl fun _ => rfl, Nat.le_refl 0⟩
  | countSent => exact ⟨0, 0, .of_eq rfl fun _ => rfl, Nat.le_refl 0⟩
  | setStateHandler installed => exact ⟨0, 0, .of_eq rfl fun _ => rfl, Nat.le_refl 0⟩
  | setStreamDataHandler installed => exact ⟨0, 0, .of_eq rfl fun _ => rfl, Nat.le_refl 0⟩

/-- How many packets of the run created and closed their entry. -/
def skipped (engine : QuicEngine) : List EngineSection → Nat
  | [] => 0
  | sec :: secs => (sec.createsAndCloses engine).toNat + skipped (sec.step engine) secs

theorem skipped_eq_zero {engine : QuicEngine} {secs : List EngineSection} :
    skipped engine secs = 0 ↔ ∀ before sec after, secs = before ++ sec :: after →
      sec.createsAndCloses (runSections engine before) = false := by
  induction secs generalizing engine with
  | nil => simp [skipped]
  | cons sec secs ih =>
      rw [skipped, Nat.add_eq_zero_iff, Bool.toNat_eq_zero, ih]
      constructor
      · rintro ⟨hfirst, hrest⟩ before other after hsplit
        cases before with
        | nil =>
            obtain ⟨rfl, rfl⟩ := List.cons.inj hsplit
            exact hfirst
        | cons first before =>
            obtain ⟨rfl, hrestsplit⟩ := List.cons.inj hsplit
            exact hrest before other after hrestsplit
      · intro h
        refine ⟨h [] sec secs rfl, fun before other after hsplit => ?_⟩
        exact h (sec :: before) other after (by rw [hsplit]; rfl)

/-- **The books of a run.** -/
theorem run_books (engine : QuicEngine) (secs : List EngineSection) :
    ∃ opened closed, Books engine (runSections engine secs) opened (skipped engine secs) closed ∧
      opened + skipped engine secs ≤ secs.countP EngineSection.isPacket := by
  induction secs generalizing engine with
  | nil => exact ⟨0, 0, .refl engine, Nat.le_refl 0⟩
  | cons sec secs ih =>
      obtain ⟨opened, closed, hfirst, hle⟩ := step_books engine sec
      obtain ⟨opened', closed', hrest, hle'⟩ := ih (sec.step engine)
      refine ⟨opened + opened', closed + closed', hfirst.trans hrest, ?_⟩
      rw [skipped, List.countP_cons]
      have hcount : (if sec.isPacket = true then 1 else 0) = sec.isPacket.toNat := by
        cases sec.isPacket <;> rfl
      rw [hcount]
      omega

/-- **The counters balance** at the end of a run of fewer than 2^64 packets, of any sections of any threads,
exactly if no packet of the run carried INITIAL and CLOSE for a connection without an entry while a slot
was free. -/
theorem connections_balanced_iff (handler : Bool) (secs : List EngineSection)
    (hpackets : secs.countP EngineSection.isPacket < 2 ^ 64) :
    (runSections (quicEngineInit handler) secs).Balanced ↔
      ∀ before sec after, secs = before ++ sec :: after →
        sec.createsAndCloses (runSections (quicEngineInit handler) before) = false := by
  obtain ⟨opened, closed, hbooks, hle⟩ := run_books (quicEngineInit handler) secs
  have hinit : (quicEngineInit handler).inUseCount = 0 := usedCount_unused fun _ => rfl
  have hused := hbooks.inUseCount
  have hsize : UInt64.size = 2 ^ 64 := rfl
  rw [hinit] at hused
  have hopened : (runSections (quicEngineInit handler) secs).metrics.connectionsOpened.toNat = opened := by
    rw [hbooks.connectionsOpened]
    show (0 + UInt64.ofNat opened).toNat = opened
    rw [UInt64.zero_add, UInt64.toNat_ofNat_of_lt' (by omega)]
  have hclosed : (runSections (quicEngineInit handler) secs).metrics.connectionsClosed.toNat = closed := by
    rw [hbooks.connectionsClosed]
    show (0 + UInt64.ofNat closed).toNat = closed
    rw [UInt64.zero_add, UInt64.toNat_ofNat_of_lt' (by omega)]
  rw [← skipped_eq_zero, QuicEngine.Balanced, hopened, hclosed]
  omega

/-- A connection that is opened and then closed. -/
theorem connections_balanced_iff_sample :
    let secs : List EngineSection :=
      [.processPacket ⟨quicFlagInitial, 7, 0, 0, 0, .empty⟩ ⟨1, 1⟩ 0 0, .closeLocked 7]
    (runSections (quicEngineInit false) secs).Balanced ↔
      ∀ before sec after, secs = before ++ sec :: after →
        sec.createsAndCloses (runSections (quicEngineInit false) before) = false :=
  connections_balanced_iff false _ (by decide)

instance (engine : QuicEngine) : Decidable engine.Balanced := inferInstanceAs (Decidable (_ = _))

/-- One packet with INITIAL and CLOSE is counted as closed and not as opened. -/
theorem initial_close_not_balanced :
    let engine := runSections (quicEngineInit false)
      [.processPacket ⟨quicFlagInitial ||| quicFlagClose, 7, 0, 0, 0, .empty⟩ ⟨1, 1⟩ 0 0]
    engine.metrics.connectionsOpened = 0 ∧ engine.metrics.connectionsClosed = 1 ∧ ¬ engine.Balanced := by
  decide +kernel

end OttQuic
