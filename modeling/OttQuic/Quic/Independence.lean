import OttQuic.Lib.Keyed
import OttQuic.Quic.ReassemblyRun
import Mathlib.Data.Fintype.Card

/-!
# The streams of a manager are independent

A run of `quic_stream_on_data` and `quic_stream_reset` calls on one manager that names at most 16 stream
ids never finds the table full: an id without a slot leaves one slot that is free, since the slots in use
have different ids (`hasSlot_of_ids`). So every call depends on its own stream only, and
`stream_calls_separated` puts the manager under the rule for independent components: the results on a
stream are those of its calls alone.

A reset keeps the stream's slot. What follows it is what follows on a stream that has been given its slot
and nothing else (`streamCreated`); the data calls do not even tell it from a stream without a slot.
-/

namespace OttQuic

open QuicStreamManager SlotTable

/-- A call on a manager. -/
inductive StreamOp where
  | onData (call : StreamCall)
  | reset (streamId : UInt32)

/-- What a call returns and writes. -/
inductive StreamResult where
  | onData (result : OnDataResult)
  | reset (rc : Int)
  deriving DecidableEq

namespace StreamOp

def streamId : StreamOp → UInt32
  | onData call => call.streamId
  | reset streamId => streamId

/-- The allocations of the call succeed. -/
def Allocates : StreamOp → Prop
  | onData call => call.Allocates
  | reset _ => True

def step (mgr : QuicStreamManager) : StreamOp → StreamResult × QuicStreamManager
  | onData call => (.onData (call.run mgr).1, (call.run mgr).2)
  | reset streamId =>
    match quicStreamReset mgr streamId with
    | some mgr => (.reset 0, mgr)
    | none => (.reset (-1), mgr)

end StreamOp

/-- What a data call returns and writes. -/
def StreamResult.data? : StreamResult → Option OnDataResult
  | onData result => some result
  | reset _ => none

/-- The manager after the calls. -/
def streamRun (mgr : QuicStreamManager) (ops : List StreamOp) : QuicStreamManager :=
  Keyed.final StreamOp.step mgr ops

/-- The results of all calls. -/
def streamResults (mgr : QuicStreamManager) (ops : List StreamOp) : List StreamResult :=
  Keyed.results StreamOp.step mgr ops

/-- The results of the calls on the stream. -/
def streamResultsOn (s : UInt32) (mgr : QuicStreamManager) (ops : List StreamOp) : List StreamResult :=
  Keyed.resultsAt StreamOp.step StreamOp.streamId s mgr ops

/-- The calls on the stream. -/
def callsOn (s : UInt32) (ops : List StreamOp) : List StreamOp := ops.filter fun op => op.streamId = s

/-- A manager on which the stream has been given its slot and has received nothing. -/
def streamCreated (s : UInt32) : QuicStreamManager :=
  match findOrCreateStream quicStreamManagerInit s with
  | some (_, mgr) => mgr
  | none => quicStreamManagerInit

/-! ### One call -/

variable {mgr mgr' : QuicStreamManager} {s t : UInt32} {ids : Finset UInt32}

theorem find_of_inUse (hu : mgr.Unique) {i : Fin quicStreamMaxStreams}
    (huse : (mgr.streams i).inUse = true) : mgr.find (mgr.streams i).streamId = some i :=
  UniqueKeys.findKey_eq hu huse rfl

/-- The streams with a slot are among the ids. -/
def Within (ids : Finset UInt32) (mgr : QuicStreamManager) : Prop :=
  mgr.Unique ∧ ∀ s, (mgr.stateOf s).inUse = true → s ∈ ids

theorem hasSlot_of_ids (hcard : ids.card ≤ quicStreamMaxStreams) (h : Within ids mgr) (hs : s ∈ ids) :
    mgr.HasSlot s := by
  by_cases huse : (mgr.stateOf s).inUse = true
  · exact .of_inUse huse
  · have hnone : mgr.find s = none := by
      rw [← Option.not_isSome_iff_eq_none, Option.isSome_iff_exists]
      exact fun hfind => huse (stateOf_inUse_iff.mpr hfind)
    cases hfree : findFree QuicStreamState.inUse mgr.streams with
    | some i => simp [HasSlot, findOrCreateStream, hnone, hfree]
    | none =>
        -- sixteen used slots with different ids, none of which is `s`
        have hused := findFree_none.mp hfree
        have hmaps : ∀ i ∈ (Finset.univ : Finset (Fin quicStreamMaxStreams)),
            (mgr.streams i).streamId ∈ ids.erase s := by
          intro i _
          have hfind := find_of_inUse h.1 (hused i)
          refine Finset.mem_erase.mpr ⟨fun heq => ?_, h.2 _ (stateOf_inUse_iff.mpr ⟨i, hfind⟩)⟩
          rw [heq, hnone] at hfind
          cases hfind
        have hinj : Set.InjOn (fun i => (mgr.streams i).streamId)
            (Finset.univ : Finset (Fin quicStreamMaxStreams)) :=
          fun i _ j _ heq => h.1 i j (hused i) (hused j) heq
        have hle := Finset.card_le_card_of_injOn _ hmaps hinj
        rw [Finset.card_univ, Fintype.card_fin, Finset.card_erase_of_mem hs] at hle
        have hpos := Finset.card_pos.mpr ⟨s, hs⟩
        omega

theorem reset_stateOf (hu : mgr.Unique) (s : UInt32) :
    (((quicStreamReset mgr s).getD mgr).stateOf s) =
      { mgr.stateOf s with segments := [], nextOffset := 0 } := by
  unfold quicStreamReset
  cases hfind : mgr.find s with
  | none =>
      rw [Option.getD_none, stateOf_of_not_found hfind]
  | some i =>
      obtain ⟨hused, hid⟩ := findKey_some hfind
      rw [Option.getD_some, stateOf_of_find hfind]
      exact write_stateOf hu (Or.inl hfind) hid hused

theorem reset_step (mgr : QuicStreamManager) (s : UInt32) :
    (StreamOp.reset s).step mgr =
      (.reset (if (mgr.stateOf s).inUse then 0 else -1), (quicStreamReset mgr s).getD mgr) := by
  unfold StreamOp.step quicStreamReset
  cases hfind : mgr.find s with
  | none => simp [hfind, stateOf_of_not_found hfind]
  | some i => simp [hfind, stateOf_of_find hfind, (findKey_some hfind).1]

theorem consumed_congr {call : StreamCall}
    (hnext : (mgr.stateOf call.streamId).nextOffset = (mgr'.stateOf call.streamId).nextOffset)
    (hsegs : (mgr.stateOf call.streamId).segments = (mgr'.stateOf call.streamId).segments) :
    call.consumed mgr = call.consumed mgr' := by
  unfold StreamCall.consumed QuicStreamState.receive
  rw [hnext, hsegs]

theorem onData_result (hcard : ids.card ≤ quicStreamMaxStreams) (h : Within ids mgr) {call : StreamCall}
    (hs : call.streamId ∈ ids) (halloc : call.Allocates) :
    (call.Accepted → (call.run mgr).1 =
        ⟨0, some (mgr.stateOf call.streamId).nextOffset, some (call.consumed mgr).out⟩ ∧
      (call.run mgr).2.stateOf call.streamId =
        { (mgr.stateOf call.streamId).after (call.consumed mgr) with inUse := true }) ∧
    (¬ call.Accepted → call.run mgr = (.refused none, mgr)) := by
  obtain ⟨-, -, -, hyes⟩ := onData_cases h.1 call
  exact ⟨fun hacc => hyes hacc (hasSlot_of_ids hcard h hs) halloc, StreamCall.run_of_not_accepted⟩

/-- A call that may occur in a run over the ids. -/
def StreamOp.Legal (ids : Finset UInt32) (op : StreamOp) : Prop := op.streamId ∈ ids ∧ op.Allocates

theorem step_frame (hu : mgr.Unique) (op : StreamOp) (hne : s ≠ op.streamId) :
    (op.step mgr).2.stateOf s = mgr.stateOf s := by
  cases op with
  | onData call => exact (onData_cases hu call).2.1 s hne
  | reset t =>
      rw [reset_step]
      exact (reset_spec hu t).2.2 s hne

theorem step_within (h : Within ids mgr) {op : StreamOp} (hop : op.streamId ∈ ids) :
    Within ids (op.step mgr).2 := by
  refine ⟨?_, fun s huse => ?_⟩
  · cases op with
    | onData call => exact (onData_cases h.1 call).1
    | reset t =>
        rw [reset_step]
        exact (reset_spec h.1 t).1
  · by_cases hs : s = op.streamId
    · rw [hs]
      exact hop
    · rw [step_frame h.1 op hs] at huse
      exact h.2 s huse

/-- **Streams are independent**: a call sees and changes the state of its own stream only. -/
theorem stream_calls_separated (hcard : ids.card ≤ quicStreamMaxStreams) :
    Keyed.Separated StreamOp.step StreamOp.streamId (fun s mgr => mgr.stateOf s) (Within ids)
      (StreamOp.Legal ids) := by
  refine ⟨fun h hop => step_within h hop.1, fun h _ hne => step_frame h.1 _ hne, ?_, ?_⟩
  · intro mgr mgr' op h h' hop hview
    cases op with
    | onData call =>
        obtain ⟨hyes, hno⟩ := onData_result hcard h hop.1 hop.2
        obtain ⟨hyes', hno'⟩ := onData_result hcard h' hop.1 hop.2
        by_cases hacc : call.Accepted
        · change StreamResult.onData (call.run mgr).1 = .onData (call.run mgr').1
          rw [(hyes hacc).1, (hyes' hacc).1, consumed_congr (congrArg _ hview) (congrArg _ hview)]
          exact congrArg (fun state => StreamResult.onData ⟨0, some state.nextOffset, _⟩) hview
        · simp only [StreamOp.step, hno hacc, hno' hacc]
    | reset s =>
        rw [reset_step, reset_step]
        exact congrArg (fun state => StreamResult.reset (if state.inUse then 0 else -1)) hview
  · intro mgr mgr' op h h' hop hview
    cases op with
    | onData call =>
        obtain ⟨hyes, hno⟩ := onData_result hcard h hop.1 hop.2
        obtain ⟨hyes', hno'⟩ := onData_result hcard h' hop.1 hop.2
        by_cases hacc : call.Accepted
        · change (call.run mgr).2.stateOf call.streamId = (call.run mgr').2.stateOf call.streamId
          rw [(hyes hacc).2, (hyes' hacc).2, consumed_congr (congrArg _ hview) (congrArg _ hview)]
          exact congrArg
            (fun state => { QuicStreamState.after state (call.consumed mgr') with inUse := true }) hview
        · simp only [StreamOp.step, hno hacc, hno' hacc]
          exact hview
    | reset s =>
        rw [reset_step, reset_step]
        change ((quicStreamReset mgr s).getD mgr).stateOf s = ((quicStreamReset mgr' s).getD mgr').stateOf s
        rw [reset_stateOf h.1, reset_stateOf h'.1]
        exact congrArg (fun state => { state with segments := [], nextOffset := 0 }) hview

/-- What a data call sees of its stream. -/
def contentOf (s : UInt32) (mgr : QuicStreamManager) : UInt32 × List QuicStreamSegment :=
  ((mgr.stateOf s).nextOffset, (mgr.stateOf s).segments)

theorem data_calls_separated (hcard : ids.card ≤ quicStreamMaxStreams) :
    Keyed.Separated (Keyed.mapResult StreamOp.step StreamResult.data?) StreamOp.streamId contentOf
      (Within ids) (StreamOp.Legal ids) := by
  refine ⟨fun h hop => step_within h hop.1, fun {_ _ s} h _ hne => ?_, ?_, ?_⟩
  · exact congrArg (fun state => (QuicStreamState.nextOffset state, state.segments)) (step_frame h.1 _ hne)
  · intro mgr mgr' op h h' hop hview
    obtain ⟨hnext, hsegs⟩ := Prod.mk.inj hview
    cases op with
    | onData call =>
        obtain ⟨hyes, hno⟩ := onData_result hcard h hop.1 hop.2
        obtain ⟨hyes', hno'⟩ := onData_result hcard h' hop.1 hop.2
        by_cases hacc : call.Accepted
        · change some (call.run mgr).1 = some (call.run mgr').1
          rw [(hyes hacc).1, (hyes' hacc).1, consumed_congr hnext hsegs]
          exact congrArg (fun offset => some (OnDataResult.mk 0 (some offset) _)) hnext
        · simp only [Keyed.mapResult, StreamOp.step, hno hacc, hno' hacc]
    | reset s =>
        simp only [Keyed.mapResult, reset_step]
        rfl
  · intro mgr mgr' op h h' hop hview
    obtain ⟨hnext, hsegs⟩ := Prod.mk.inj hview
    cases op with
    | onData call =>
        obtain ⟨hyes, hno⟩ := onData_result hcard h hop.1 hop.2
        obtain ⟨hyes', hno'⟩ := onData_result hcard h' hop.1 hop.2
        by_cases hacc : call.Accepted
        · change contentOf call.streamId (call.run mgr).2 = contentOf call.streamId (call.run mgr').2
          unfold contentOf
          rw [(hyes hacc).2, (hyes' hacc).2, consumed_congr hnext hsegs]
          rfl
        · simp only [Keyed.mapResult, StreamOp.step, hno hacc, hno' hacc]
          exact hview
    | reset s =>
        simp only [Keyed.mapResult, reset_step]
        change contentOf s ((quicStreamReset mgr s).getD mgr) = contentOf s ((quicStreamReset mgr' s).getD mgr')
        unfold contentOf
        rw [reset_stateOf h.1, reset_stateOf h'.1]

/-! ### Runs -/

theorem init_within (ids : Finset UInt32) : Within ids quicStreamManagerInit := by
  refine ⟨init_unique, fun s huse => ?_⟩
  rw [init_stateOf] at huse
  cases huse

theorem streamCreated_spec (s : UInt32) :
    (streamCreated s).Unique ∧ (streamCreated s).stateOf s = ⟨s, 0, [], true⟩ ∧
      ∀ t, t ≠ s → (streamCreated s).stateOf t = ⟨t, 0, [], false⟩ := by
  unfold streamCreated
  cases hfound : findOrCreateStream quicStreamManagerInit s with
  | none =>
      have hfree : (findFree QuicStreamState.inUse quicStreamManagerInit.streams).isSome := by
        decide +kernel
      have hnone : quicStreamManagerInit.find s = none := by
        simp [find, findKey_none, quicStreamManagerInit, QuicStreamState.zero]
      obtain ⟨i, hi⟩ := Option.isSome_iff_exists.mp hfree
      simp [findOrCreateStream, hnone, hi] at hfound
  | some found =>
      obtain ⟨i, mgr⟩ := found
      obtain ⟨havail, hstreams⟩ := findOrCreate_some hfound
      rw [init_stateOf] at hstreams
      have hmgr : mgr = ⟨Function.update quicStreamManagerInit.streams i ⟨s, 0, [], true⟩⟩ :=
        congrArg QuicStreamManager.mk hstreams
      simp only [hmgr]
      refine ⟨write_unique init_unique havail rfl, write_stateOf init_unique havail rfl rfl, ?_⟩
      intro t ht
      rw [write_stateOf_ne havail rfl ht, init_stateOf]

theorem streamCreated_within (hs : s ∈ ids) : Within ids (streamCreated s) := by
  obtain ⟨hu, -, hother⟩ := streamCreated_spec s
  refine ⟨hu, fun t huse => ?_⟩
  by_cases ht : t = s
  · rw [ht]
    exact hs
  · rw [hother t ht] at huse
    cases huse

/-- **The streams of a connection are independent.** Let the calls on a new manager name at most 16
stream ids and let their allocations succeed. The results of the calls on `s` are those these calls have
alone on a new manager, and no two slots in use ever carry one stream id. After a reset of `s`, the data
calls on `s` return what they return for a stream of a new manager, and all calls on `s` return what they
return for a stream that has received nothing and has a slot if the reset found one. -/
theorem streams_independent (ops : List StreamOp)
    (hids : (ops.map StreamOp.streamId).toFinset.card ≤ quicStreamMaxStreams)
    (halloc : ∀ op ∈ ops, op.Allocates) (s : UInt32) :
    streamResultsOn s quicStreamManagerInit ops = streamResults quicStreamManagerInit (callsOn s ops) ∧
      (∀ before after, ops = before ++ after → (streamRun quicStreamManagerInit before).Unique) ∧
      ∀ before after, ops = before ++ .reset s :: after →
        let reset := (StreamOp.reset s).step (streamRun quicStreamManagerInit before)
        (streamResultsOn s reset.2 after).map StreamResult.data? =
            (streamResults quicStreamManagerInit (callsOn s after)).map StreamResult.data? ∧
          streamResultsOn s reset.2 after =
            streamResults (if reset.1 = .reset 0 then streamCreated s else quicStreamManagerInit)
              (callsOn s after) := by
  have hlegal : ∀ op ∈ ops, op.Legal (ops.map StreamOp.streamId).toFinset := by
    intro op hop
    exact ⟨List.mem_toFinset.mpr (List.mem_map_of_mem hop), halloc op hop⟩
  have hsep := stream_calls_separated hids
  have hinit := init_within (ops.map StreamOp.streamId).toFinset
  refine ⟨hsep.resultsAt_eq hinit hinit rfl hlegal, ?_, ?_⟩
  · rintro before after rfl
    have hbefore := fun op hop => hlegal op (List.mem_append_left after hop)
    exact (hsep.final_inv hinit hbefore).1
  · rintro before after rfl reset
    have hbefore := fun op hop => hlegal op (List.mem_append_left (StreamOp.reset s :: after) hop)
    have hreset := hlegal (.reset s) (List.mem_append_right before List.mem_cons_self)
    have hafter := fun op hop =>
      hlegal op (List.mem_append_right before (List.mem_cons_of_mem (StreamOp.reset s) hop))
    have hmgr := hsep.final_inv hinit hbefore
    have hmgr' : Within _ reset.2 := hsep.keeps hmgr hreset
    have hstep := reset_step (streamRun quicStreamManagerInit before) s
    have hstate : reset.2.stateOf s =
        { (streamRun quicStreamManagerInit before).stateOf s with segments := [], nextOffset := 0 } := by
      change ((StreamOp.reset s).step (streamRun quicStreamManagerInit before)).2.stateOf s = _
      rw [hstep]
      exact reset_stateOf hmgr.1 s
    constructor
    · rw [streamResultsOn, streamResults, ← Keyed.resultsAt_mapResult, ← Keyed.results_mapResult]
      apply (data_calls_separated hids).resultsAt_eq hmgr' hinit _ hafter
      simp only [contentOf, hstate, init_stateOf]
    · have hid := (streamRun quicStreamManagerInit before).stateOf_streamId s
      have hrc : reset.1 =
          .reset (if ((streamRun quicStreamManagerInit before).stateOf s).inUse then 0 else -1) :=
        congrArg Prod.fst hstep
      rw [hrc]
      cases huse : ((streamRun quicStreamManagerInit before).stateOf s).inUse with
      | true =>
          rw [if_pos rfl, if_pos rfl]
          have hcreated := streamCreated_within (s := s) hreset.1
          apply hsep.resultsAt_eq hmgr' hcreated _ hafter
          simp only [hstate, (streamCreated_spec s).2.1, huse, hid]
      | false =>
          rw [if_neg Bool.false_ne_true, if_neg (by decide)]
          apply hsep.resultsAt_eq hmgr' hinit _ hafter
          simp only [hstate, init_stateOf, huse, hid]

/-- Two streams: the second fragment of stream 2 is buffered, stream 4 is delivered, then 2 is reset. -/
theorem streams_independent_reset :
    streamResultsOn 2 quicStreamManagerInit
        [.onData ⟨2, 3, ⟨[0x44], by decide⟩, 64, ⟨true, true⟩⟩,
          .onData ⟨4, 0, ⟨[0x41], by decide⟩, 64, ⟨true, true⟩⟩, .reset 2]
      = [.onData ⟨0, some 0, some []⟩, .reset 0] := by
  have h := (streams_independent
    [.onData ⟨2, 3, ⟨[0x44], by decide⟩, 64, ⟨true, true⟩⟩,
      .onData ⟨4, 0, ⟨[0x41], by decide⟩, 64, ⟨true, true⟩⟩, .reset 2]
    (by decide +kernel) (by simp [StreamOp.Allocates, StreamCall.Allocates]) 2).1
  exact h.trans (by decide +kernel)

end OttQuic
