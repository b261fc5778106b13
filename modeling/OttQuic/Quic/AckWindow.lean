import OttQuic.Quic.Senders

/-!
# Acknowledged packets and retransmissions

`Tracking` says that in a run that sends no DATA packet twice each packet is in one place, with a thread
that will record it or in one pending slot, and that no slot holds a packet whose ACK has been processed.
A packet whose ACK is processed before it is recorded breaks the second part, and is retransmitted all the
same (`acked_retransmitted`); runs that record none keep it.
-/

namespace OttQuic

open SlotTable QuicEngine Transition

/-- The key of the DATA packet that the thread is about to record. -/
def Sender.key (sender : Sender) : Option (UInt64 × UInt32) :=
  match sender.sending with
  | some (packet, _) => if packet.has quicFlagData then some packet.key else none
  | none => none

/-- The key of the packet that a slot or a thread holds. -/
def SendState.holder (s : SendState) : Fin quicMaxPending ⊕ Nat → Option (UInt64 × UInt32)
  | .inl j =>
    if (s.engine.pending j).inUse then
      some ((s.engine.pending j).connectionId, (s.engine.pending j).packetNumber)
    else none
  | .inr tid => (s.senders tid).key

/-- The step sends no DATA packet a second time. -/
def SentOnce (s : SendState) (l : SendStep) : Prop :=
  ∀ tid packet addr found, l = .sendto tid true → s.senders tid = .located packet addr found →
    packet.has quicFlagData = true → packet.key ∉ s.sent

/-- The step records no DATA packet whose ACK has been processed. -/
def RecordedUnacked (s : SendState) (l : SendStep) : Prop :=
  ∀ tid now packet buffer found, l = .track tid now → s.senders tid = .counted packet buffer found →
    packet.has quicFlagData = true → packet.key ∉ s.acked

/-- Every key has one holder, and no slot holds a packet that is acknowledged. -/
structure Tracking (s : SendState) : Prop where
  held : ∀ g k, s.holder g = some k → k ∈ s.sent
  unique : ∀ g g' k, s.holder g = some k → s.holder g' = some k → g = g'
  unacked : ∀ j k, s.holder (.inl j) = some k → k ∉ s.acked

section Tracking

variable {s s' : SendState}

theorem holder_slot {j : Fin quicMaxPending} {k : UInt64 × UInt32} (h : s.holder (.inl j) = some k) :
    (s.engine.pending j).inUse = true ∧
      k = ((s.engine.pending j).connectionId, (s.engine.pending j).packetNumber) := by
  simp only [SendState.holder] at h
  split_ifs at h with hused
  exact ⟨hused, (Option.some.inj h).symm⟩

theorem holder_of_used {j : Fin quicMaxPending} (h : (s.engine.pending j).inUse = true) :
    s.holder (.inl j) = some ((s.engine.pending j).connectionId, (s.engine.pending j).packetNumber) :=
  if_pos h

theorem Tracking.mono (h : Tracking s) (hholder : ∀ g k, s'.holder g = some k → s.holder g = some k)
    (hsent : s'.sent = s.sent) (hacked : s'.acked = s.acked) : Tracking s' := by
  refine ⟨fun g k hg => ?_, fun g g' k hg hg' => ?_, fun j k hj => ?_⟩
  · rw [hsent]
    exact h.held g k (hholder g k hg)
  · exact h.unique g g' k (hholder g k hg) (hholder g' k hg')
  · rw [hacked]
    exact h.unacked j k (hholder _ k hj)

theorem exec_holder {sec : EngineSection} (hsec : sec.records = false) (g : Fin quicMaxPending ⊕ Nat)
    (k : UInt64 × UInt32) (h : (s.exec sec).holder g = some k) : s.holder g = some k := by
  cases g with
  | inl j =>
      obtain ⟨hused, rfl⟩ := holder_slot h
      obtain ⟨hold, hid, hpn, -⟩ := section_keepsPacket s.engine hsec j hused
      rw [holder_of_used hold, ← hid, ← hpn]
      rfl
  | inr tid => exact h

theorem setSender_holder {tid : Nat} {sender : Sender} (hkey : sender.key = none ∨ sender.key = (s.senders tid).key)
    (g : Fin quicMaxPending ⊕ Nat) (k : UInt64 × UInt32) (h : (s.setSender tid sender).holder g = some k) :
    s.holder g = some k := by
  cases g with
  | inl j => exact h
  | inr t =>
      by_cases ht : t = tid
      · subst ht
        change ((s.setSender t sender).senders t).key = some k at h
        rw [SendState.setSender_self] at h
        rcases hkey with hkey | hkey
        · rw [hkey] at h
          cases h
        · exact hkey.symm.trans h
      · change ((s.setSender tid sender).senders t).key = some k at h
        rw [SendState.setSender_ne ht] at h
        exact h

theorem Tracking.exec (h : Tracking s) {sec : EngineSection} (hsec : sec.records = false) :
    Tracking (s.exec sec) := by
  have hholder := fun g k => exec_holder (s := s) hsec g k
  refine ⟨fun g k hg => h.held g k (hholder g k hg),
    fun g g' k hg hg' => h.unique g g' k (hholder g k hg) (hholder g' k hg'), fun j k hj => ?_⟩
  have hbefore := hholder _ k hj
  have hnot := h.unacked j k hbefore
  change k ∉ sec.acks ++ s.acked
  rw [List.mem_append, not_or]
  refine ⟨fun hack => ?_, hnot⟩
  unfold EngineSection.acks at hack
  split at hack
  · rename_i cid pn
    rw [List.mem_singleton] at hack
    obtain ⟨hused, hk⟩ := holder_slot hbefore
    have hkey := Prod.mk.inj (hk.symm.trans hack)
    cases hfind : findSlot s.engine.pending fun entry => entry.inUse &&
        decide (entry.connectionId = cid) && decide (entry.packetNumber = pn) with
    | none =>
        have hmiss := findSlot_none.mp hfind j
        simp [hused, hkey.1, hkey.2] at hmiss
    | some i =>
        have hmatch := findSlot_some hfind
        simp only [Bool.and_eq_true, decide_eq_true_eq] at hmatch
        obtain ⟨⟨hiused, hicid⟩, hipn⟩ := hmatch
        have hi : s.holder (.inl i) = some k := by
          rw [holder_of_used hiused, hicid, hipn, hack]
        obtain rfl := Sum.inl.inj (h.unique _ _ k hi hbefore)
        have hfreed := ackPending_frees s.engine i hfind
        have hafter := (holder_slot hj).1
        change ((s.engine.ackPending cid pn).pending i).inUse = true at hafter
        rw [hfreed] at hafter
        cases hafter
  · cases hack

theorem Tracking.put (h : Tracking s) {tid : Nat} {packet : QuicPacket} (buffer : Bytes)
    (found : Option Incarnation) (hfresh : packet.has quicFlagData = true → packet.key ∉ s.sent) :
    Tracking ((s.noteSent packet).setSender tid (.onWire packet buffer found)) := by
  set s' := (s.noteSent packet).setSender tid (.onWire packet buffer found) with hs'
  have hsent : ∀ k ∈ s.sent, k ∈ s'.sent := by
    intro k hk
    change k ∈ (if packet.has quicFlagData then packet.key :: s.sent else s.sent)
    split_ifs
    · exact List.mem_cons_of_mem _ hk
    · exact hk
  -- a holder is an old one, or the thread with its new key
  have hcases : ∀ g k, s'.holder g = some k → s.holder g = some k ∨
      g = .inr tid ∧ packet.has quicFlagData = true ∧ k = packet.key := by
    intro g k hg
    cases g with
    | inl j => exact Or.inl hg
    | inr t =>
        by_cases ht : t = tid
        · subst ht
          right
          change (Function.update s.senders t (Sender.onWire packet buffer found) t).key = some k at hg
          rw [Function.update_self] at hg
          simp only [Sender.key, Sender.sending] at hg
          split_ifs at hg with hdata
          exact ⟨rfl, hdata, (Option.some.inj hg).symm⟩
        · left
          change (Function.update s.senders tid (Sender.onWire packet buffer found) t).key = some k at hg
          rw [Function.update_of_ne ht] at hg
          exact hg
  refine ⟨fun g k hg => ?_, fun g g' k hg hg' => ?_, fun j k hj => ?_⟩
  · rcases hcases g k hg with hold | ⟨-, hdata, rfl⟩
    · exact hsent k (h.held g k hold)
    · change packet.key ∈ (if packet.has quicFlagData then packet.key :: s.sent else s.sent)
      rw [if_pos hdata]
      exact List.mem_cons_self
  · rcases hcases g k hg with hold | ⟨rfl, hdata, rfl⟩
    · rcases hcases g' k hg' with hold' | ⟨rfl, hdata, rfl⟩
      · exact h.unique g g' k hold hold'
      · exact absurd (h.held g _ hold) (hfresh hdata)
    · rcases hcases g' _ hg' with hold' | ⟨rfl, -, -⟩
      · exact absurd (h.held g' _ hold') (hfresh hdata)
      · rfl
  · exact h.unacked j k hj

theorem Tracking.record (h : Tracking s) {tid : Nat} {packet : QuicPacket} {buffer : Bytes}
    {found : Option Incarnation} (now : Int) (hsender : s.senders tid = .counted packet buffer found)
    (hack : packet.has quicFlagData = true → packet.key ∉ s.acked) :
    Tracking ((s.record packet buffer found now).setSender tid .idle) := by
  set s' := (s.record packet buffer found now).setSender tid .idle with hs'
  have hold : packet.has quicFlagData = true → s.holder (.inr tid) = some packet.key := by
    intro hdata
    simp only [SendState.holder, Sender.key, hsender, Sender.sending, hdata, if_true]
  have hcases : ∀ g k, s'.holder g = some k → (s.holder g = some k ∧ g ≠ .inr tid) ∨
      ∃ j, g = .inl j ∧ findFree QuicPendingEntry.inUse s.engine.pending = some j ∧
        packet.has quicFlagData = true ∧ k = packet.key := by
    intro g k hg
    cases g with
    | inl j =>
        obtain ⟨hused, rfl⟩ := holder_slot hg
        have hslot := record_pending s packet buffer found now j
        change ((s.record packet buffer found now).engine.pending j).inUse = true at hused
        split_ifs at hslot with hfills
        · refine Or.inr ⟨j, rfl, hfills.2.2, hfills.2.1, ?_⟩
          change (((s.record packet buffer found now).engine.pending j).connectionId,
            ((s.record packet buffer found now).engine.pending j).packetNumber) = _
          rw [hslot]
          rfl
        · left
          rw [hslot] at hused
          refine ⟨?_, by simp⟩
          rw [holder_of_used hused, ← hslot]
          rfl
    | inr t =>
        by_cases ht : t = tid
        · subst ht
          change (Function.update s.senders t Sender.idle t).key = some k at hg
          rw [Function.update_self] at hg
          cases hg
        · left
          change (Function.update s.senders tid Sender.idle t).key = some k at hg
          rw [Function.update_of_ne ht] at hg
          exact ⟨hg, fun heq => ht (Sum.inr.inj heq)⟩
  refine ⟨fun g k hg => ?_, fun g g' k hg hg' => ?_, fun j k hj => ?_⟩
  · rcases hcases g k hg with ⟨hg, -⟩ | ⟨j, rfl, -, hdata, rfl⟩
    · exact h.held g k hg
    · exact h.held _ _ (hold hdata)
  · rcases hcases g k hg with ⟨hg, hne⟩ | ⟨j, rfl, hj, hdata, rfl⟩
    · rcases hcases g' k hg' with ⟨hg', -⟩ | ⟨j', rfl, -, hdata, rfl⟩
      · exact h.unique g g' k hg hg'
      · exact absurd (h.unique g _ _ hg (hold hdata)) hne
    · rcases hcases g' _ hg' with ⟨hg', hne⟩ | ⟨j', rfl, hj', -, -⟩
      · exact absurd (h.unique g' _ _ hg' (hold hdata)) hne
      · rw [hj] at hj'
        rw [Option.some.inj hj']
  · rcases hcases _ k hj with ⟨hj, -⟩ | ⟨-, -, -, hdata, rfl⟩
    · exact h.unacked j k hj
    · exact hack hdata

theorem Tracking.step (h : Tracking s) {l : SendStep} (honce : SentOnce s l) (hacked : RecordedUnacked s l) :
    Tracking (s.step l) := by
  have hcase := step_case s l
  generalize s.step l = s' at hcase ⊢
  cases hcase with
  | stay => exact h
  | run sec hsec hl => exact h.exec hsec
  | lookup sec hsec hacks => exact h.exec hsec
  | locate sec hsec hacks tid packet addr found =>
      exact (h.exec hsec).mono (fun g k => setSender_holder (Or.inl rfl) g k) rfl rfl
  | call tid packet addr => exact h.mono (fun g k => setSender_holder (Or.inl rfl) g k) rfl rfl
  | fail tid => exact h.mono (fun g k => setSender_holder (Or.inl rfl) g k) rfl rfl
  | put tid packet addr buffer found hl hsender hser =>
      exact h.put buffer found (honce tid packet addr found hl hsender)
  | count tid packet buffer found hsender =>
      have hkey : (Sender.counted packet buffer found).key = ((s.exec .countSent).senders tid).key := by
        change _ = (s.senders tid).key
        rw [hsender]
        rfl
      exact (h.exec (by rfl)).mono (fun g k => setSender_holder (Or.inr hkey) g k) rfl rfl
  | track tid packet buffer found now hl hsender =>
      exact h.record now hsender (hacked tid now packet buffer found hl hsender)

theorem initial_tracking (handler : Bool) : Tracking (.initial handler) := by
  have hnone : ∀ g, (SendState.initial handler).holder g = none := by
    intro g
    cases g <;> rfl
  refine ⟨fun g k hg => ?_, fun g g' k hg => ?_, fun j k hj => ?_⟩
  · rw [hnone] at hg
    cases hg
  · rw [hnone] at hg
    cases hg
  · rw [hnone] at hj
    cases hj

end Tracking

/-- **Acknowledged packets are not retransmitted** in a run that sends no DATA packet twice and records
none whose ACK has been processed. -/
theorem acked_never_retransmitted (handler : Bool) (steps : List SendStep) (s : SendState)
    (h : ((sendSystem handler).restrict fun s l => SentOnce s l ∧ RecordedUnacked s l).Run
      (.initial handler) steps s) (l : SendStep) (key : UInt64 × UInt32) (hacked : key ∈ s.acked) :
    ¬ Retransmits s l key := by
  have hinv : Wired s ∧ Tracking s := by
    refine h.preserves (I := fun s => Wired s ∧ Tracking s) ⟨initial_wired handler, initial_tracking handler⟩ ?_
    rintro s l _ ⟨hwired, htracking⟩ ⟨⟨honce, hunacked⟩, rfl⟩
    exact ⟨hwired.step l, htracking.step honce hunacked⟩
  rintro ⟨packet, rfl, j, addr, hsent⟩
  obtain ⟨now, nowRetransmit, sendOk, rfl, hused, hbuffer⟩ := resent_slot hsent
  have hsame := (cleanup_keeps s.engine j now).used hused
  rw [hsame] at hused
  obtain ⟨packet', hlen, hkey, hwire⟩ := hinv.1.slots j hused
  rw [hwire] at hbuffer
  obtain rfl := wire_injective hlen hbuffer.symm
  apply hinv.2.unacked j packet'.key _ hacked
  rw [holder_of_used hused, hkey]

theorem sentOnce_of_ne {s : SendState} {l : SendStep} (h : ∀ tid, l ≠ .sendto tid true) : SentOnce s l :=
  fun tid _ _ _ hl => absurd hl (h tid)

/-- A DATA packet is put on the wire, its ACK is processed, and then it is recorded. -/
def ackedInWindow : List SendStep :=
  [sampleOpen, .call 0 (samplePending 1) sampleAddr, .sendto 0 true, .other (.ackPending 7 1), .count 0,
    .track 0 0]

/-- The tick a second later retransmits the acknowledged packet. -/
theorem acked_retransmitted :
    ¬ ∀ (handler : Bool) (steps : List SendStep) (s : SendState),
      ((sendSystem handler).restrict SentOnce).Run (.initial handler) steps s →
      ∀ (l : SendStep) (key : UInt64 × UInt32), key ∈ s.acked → ¬ Retransmits s l key := by
  intro h
  have hrun : ((sendSystem false).restrict SentOnce).Run (.initial false) ackedInWindow
      (ackedInWindow.foldl SendState.step (.initial false)) := by
    refine System.run_cons_iff.mpr ⟨_, ⟨sentOnce_of_ne (by simp [sampleOpen]), rfl⟩, ?_⟩
    refine System.run_cons_iff.mpr ⟨_, ⟨sentOnce_of_ne (by simp), rfl⟩, ?_⟩
    refine System.run_cons_iff.mpr ⟨_, ⟨?_, rfl⟩, ?_⟩
    · intro tid packet addr found hl hsender hdata
      exact List.not_mem_nil
    refine System.run_cons_iff.mpr ⟨_, ⟨sentOnce_of_ne (by simp), rfl⟩, ?_⟩
    refine System.run_cons_iff.mpr ⟨_, ⟨sentOnce_of_ne (by simp), rfl⟩, ?_⟩
    exact System.run_cons_iff.mpr ⟨_, ⟨sentOnce_of_ne (by simp), rfl⟩, .nil⟩
  apply h false ackedInWindow _ hrun sampleTick (7, 1) List.mem_cons_self
  refine ⟨samplePending 1, rfl, 0, sampleAddr, mem_resentOn.mp ?_⟩
  decide +kernel

/-- The same packet, acknowledged after it has been recorded. -/
theorem acked_never_retransmitted_one :
    ¬ Retransmits ([sampleOpen, .call 0 (samplePending 1) sampleAddr, .sendto 0 true, .count 0, .track 0 0,
      .other (.ackPending 7 1)].foldl SendState.step (.initial false)) sampleTick (7, 1) := by
  have hother : ∀ {s : SendState} {l : SendStep}, (∀ tid, l ≠ .sendto tid true) →
      (∀ tid now, l ≠ .track tid now) → SentOnce s l ∧ RecordedUnacked s l := fun hsendto htrack =>
    ⟨sentOnce_of_ne hsendto, fun tid now _ _ _ hl => absurd hl (htrack tid now)⟩
  refine acked_never_retransmitted false [sampleOpen, .call 0 (samplePending 1) sampleAddr, .sendto 0 true,
    .count 0, .track 0 0, .other (.ackPending 7 1)] _ ?_ _ _ List.mem_cons_self
  refine System.run_cons_iff.mpr ⟨_, ⟨hother (by simp [sampleOpen]) (by simp [sampleOpen]), rfl⟩, ?_⟩
  refine System.run_cons_iff.mpr ⟨_, ⟨hother (by simp) (by simp), rfl⟩, ?_⟩
  refine System.run_cons_iff.mpr ⟨_, ⟨⟨?_, ?_⟩, rfl⟩, ?_⟩
  · exact fun _ _ _ _ _ _ _ => List.not_mem_nil
  · exact fun _ _ _ _ _ hl => nomatch hl
  refine System.run_cons_iff.mpr ⟨_, ⟨hother (by simp) (by simp), rfl⟩, ?_⟩
  refine System.run_cons_iff.mpr ⟨_, ⟨⟨sentOnce_of_ne (by simp), ?_⟩, rfl⟩, ?_⟩
  · exact fun _ _ _ _ _ _ _ _ => List.not_mem_nil
  exact System.run_cons_iff.mpr ⟨_, ⟨hother (by simp) (by simp), rfl⟩, .nil⟩

end OttQuic
