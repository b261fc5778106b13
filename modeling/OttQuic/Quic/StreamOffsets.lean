import OttQuic.Quic.ReassemblyRun

/-!
# The offsets of a stream

`next_offset` and the offsets of the segments are `uint32_t`, and nothing compares them with the end of that range.
A fragment may reach beyond it: a call that writes up to there takes `next_offset` back to the beginning, and the
stream is delivered once more. `offsets_advance_iff` says when that happens: the segments that are held and the
fragment cover everything from `next_offset` to the end of the range, and the buffer has room for all of it.

Up to that call the list is ordered, and `next_offset` is the number of bytes written (`Advancing`); fragments are
arbitrary.
-/

namespace OttQuic

open QuicStreamManager Coverage

/-- The call writes the byte at `2^32 - 1`: there is room, and what is held and the fragment leave no gap before it. -/
def StreamCall.Overruns (call : StreamCall) (mgr : QuicStreamManager) : Prop :=
  (call.Accepted ∧ mgr.HasSlot call.streamId ∧ call.Allocates) ∧
    2 ^ 32 ≤ (mgr.stateOf call.streamId).nextOffset.toNat + call.outBufSize ∧
    ∀ p, (mgr.stateOf call.streamId).nextOffset.toNat ≤ p → p < 2 ^ 32 →
      Covered ((mgr.stateOf call.streamId).segments.map (·.span) ++ [call.node.span]) p

/-- Along the operations the next offset of the stream never decreases, and it is the number of bytes written. -/
structure OffsetsAdvance (s : UInt32) (mgr : QuicStreamManager) (ops : List ManagerOp) : Prop where
  grows : ∀ before op after, ops = before ++ op :: after →
    ((runOps mgr before).stateOf s).nextOffset ≤ ((op.step (runOps mgr before)).stateOf s).nextOffset
  counts : ∀ before after, ops = before ++ after →
    ((runOps mgr before).stateOf s).nextOffset.toNat = (emittedOn s mgr before).length

/-! ### One call -/

/-- An ordered list fills the buffer up to the end of the range exactly if it covers everything before it. -/
theorem consumeSegments_overruns_iff {segs : List QuicStreamSegment} {nextOffset : UInt32} {room : Nat}
    (hord : Ordered nextOffset segs) :
    2 ^ 32 ≤ nextOffset.toNat + (consumeSegments nextOffset room segs).out.length ↔
      2 ^ 32 ≤ nextOffset.toNat + room ∧
        ∀ p, nextOffset.toNat ≤ p → p < 2 ^ 32 → Covered (segs.map (·.span)) p := by
  have hadvance := consumeSegments_advance segs nextOffset room
  have hfits := hadvance.fits
  constructor
  · intro hover
    exact ⟨by omega, fun p hp hlt => hadvance.emitted p hp (by omega) hlt⟩
  · rintro ⟨hroom, hcovered⟩
    by_contra hwrap
    -- the loop has stopped with room left, so that the next offset is a gap
    have hsettled := consumeSegments_settled segs nextOffset room hord (Nat.lt_of_not_le hwrap)
    have hnext := hadvance.toNat (Nat.lt_of_not_le hwrap)
    have hheld := (hsettled.kept _ (Nat.le_refl _)).mpr (hcovered _ (by omega) (by omega))
    obtain ⟨f, hf, hstart, -⟩ := hheld
    obtain ⟨seg, hseg, rfl⟩ := List.mem_map.mp hf
    have hlt := UInt32.lt_iff_toNat_lt.mp (hsettled.gap (by omega) seg hseg)
    have hspan : seg.span.start = seg.offset.toNat := rfl
    omega

theorem StreamCall.overruns_iff {call : StreamCall} {mgr : QuicStreamManager}
    (hreceives : call.Accepted ∧ mgr.HasSlot call.streamId ∧ call.Allocates)
    (hord : Ordered (mgr.stateOf call.streamId).nextOffset (mgr.stateOf call.streamId).segments) :
    call.Overruns mgr ↔
      2 ^ 32 ≤ (mgr.stateOf call.streamId).nextOffset.toNat + (call.consumed mgr).out.length := by
  have hinserted := @insertNode_ordered call.node _ _ hord
  have hiff := @consumeSegments_overruns_iff _ _ call.outBufSize hinserted
  simp only [covered_insertNode] at hiff
  exact (and_iff_right hreceives).trans hiff.symm

theorem emitted_onData {mgr : QuicStreamManager} (hu : mgr.Unique) {call : StreamCall}
    (hreceives : call.Accepted ∧ mgr.HasSlot call.streamId ∧ call.Allocates) :
    (ManagerOp.onData call).emitted call.streamId mgr = (call.consumed mgr).out := by
  have hrun := ((onData_cases hu call).2.2.2 hreceives.1 hreceives.2.1 hreceives.2.2).1
  rw [ManagerOp.emitted, if_pos rfl, hrun]
  rfl

/-! ### Runs -/

variable {s : UInt32} {mgr : QuicStreamManager} {before calls : List ManagerOp} {op : ManagerOp}

/-- What holds of the stream after operations that have not overrun it. -/
structure Advancing (s : UInt32) (mgr : QuicStreamManager) (before : List ManagerOp) : Prop where
  ordered : Ordered ((runOps mgr before).stateOf s).nextOffset ((runOps mgr before).stateOf s).segments
  counts : ((runOps mgr before).stateOf s).nextOffset.toNat = (emittedOn s mgr before).length

theorem emittedOn_snoc (s : UInt32) (mgr : QuicStreamManager) (before : List ManagerOp) (op : ManagerOp) :
    emittedOn s mgr (before ++ [op]) = emittedOn s mgr before ++ op.emitted s (runOps mgr before) := by
  rw [emittedOn_append, emittedOn, emittedOn, List.append_nil]

theorem runOps_snoc (mgr : QuicStreamManager) (before : List ManagerOp) (op : ManagerOp) :
    runOps mgr (before ++ [op]) = op.step (runOps mgr before) :=
  runOps_append mgr before [op]

theorem advancing_nil (h : (mgr.stateOf s).Fresh) : Advancing s mgr [] := by
  obtain ⟨hnext, hsegs⟩ := h
  refine ⟨?_, ?_⟩
  · rw [runOps, List.foldl_nil, hsegs]
    exact List.Pairwise.nil
  · rw [runOps, List.foldl_nil, hnext]
    rfl

theorem Advancing.snoc (h : Advancing s mgr before) (hu : mgr.Unique) (hop : LeavesStream s op)
    (hfits : (emittedOn s mgr (before ++ [op])).length < 2 ^ 32) :
    Advancing s mgr (before ++ [op]) ∧
      ((runOps mgr before).stateOf s).nextOffset ≤ ((op.step (runOps mgr before)).stateOf s).nextOffset := by
  have hcounts := h.counts
  rw [emittedOn_snoc, List.length_append] at hfits
  obtain ⟨-, hemit, hnext, hsegs⟩ | ⟨call, rfl, rfl, -, -, hemit, hnext, hsegs⟩ :=
    stream_step (runOps_unique hu before) hop
  · refine ⟨⟨?_, ?_⟩, ?_⟩
    · rw [runOps_snoc, hnext, hsegs]
      exact h.ordered
    · rw [runOps_snoc, hnext, emittedOn_snoc, hemit, List.append_nil]
      exact hcounts
    · rw [hnext]
      exact UInt32.le_refl _
  · rw [hemit, ← hcounts] at hfits
    have hsettled := consumeSegments_settled _ _ call.outBufSize (insertNode_ordered h.ordered) hfits
    have hmove : (call.consumed (runOps mgr before)).nextOffset.toNat = _ :=
      (consumeSegments_advance _ _ call.outBufSize).toNat hfits
    refine ⟨⟨?_, ?_⟩, ?_⟩
    · rw [runOps_snoc, hnext, hsegs]
      exact hsettled.ordered
    · rw [runOps_snoc, hnext, emittedOn_snoc, hemit, List.length_append, ← hcounts]
      exact hmove
    · rw [hnext, UInt32.le_iff_toNat_le]
      exact (Nat.le_add_right _ _).trans_eq hmove.symm

theorem advancing_run (hfresh : (mgr.stateOf s).Fresh) (hu : mgr.Unique) (hcalls : ∀ op ∈ calls, LeavesStream s op)
    (hfits : ∀ before op after, calls = before ++ op :: after → Advancing s mgr before →
      (emittedOn s mgr (before ++ [op])).length < 2 ^ 32)
    (before after : List ManagerOp) (hsplit : calls = before ++ after) : Advancing s mgr before := by
  induction before using List.reverseRecOn generalizing after with
  | nil => exact advancing_nil hfresh
  | append_singleton before op ih =>
      have hsplit' : calls = before ++ op :: after := by rw [hsplit, List.append_assoc, List.singleton_append]
      have hbefore := ih (op :: after) hsplit'
      exact (hbefore.snoc hu (hcalls op (by simp [hsplit'])) (hfits before op after hsplit' hbefore)).1

section

variable (h : OffsetsAdvance s mgr calls) (hfresh : (mgr.stateOf s).Fresh) (hu : mgr.Unique)
  (hcalls : ∀ op ∈ calls, LeavesStream s op)

include h hfresh hu hcalls

theorem OffsetsAdvance.advancing (before after : List ManagerOp) (hsplit : calls = before ++ after) :
    Advancing s mgr before := by
  refine advancing_run hfresh hu hcalls (fun before op after hsplit _ => ?_) before after hsplit
  rw [← h.counts (before ++ [op]) after (by simp [hsplit])]
  exact UInt32.toNat_lt _

theorem OffsetsAdvance.not_overruns (before : List ManagerOp) (call : StreamCall) (after : List ManagerOp)
    (hsplit : calls = before ++ .onData call :: after) (hs : call.streamId = s) :
    ¬ call.Overruns (runOps mgr before) := by
  subst hs
  intro hover
  have hbefore := h.advancing hfresh hu hcalls before _ hsplit
  have hend := (StreamCall.overruns_iff hover.1 hbefore.ordered).mp hover
  have hwritten := h.counts (before ++ [ManagerOp.onData call]) after (by simp [hsplit])
  have hrange := UInt32.toNat_lt ((runOps mgr (before ++ [ManagerOp.onData call])).stateOf call.streamId).nextOffset
  rw [hwritten, emittedOn_snoc, List.length_append, ← hbefore.counts,
    emitted_onData (runOps_unique hu before) hover.1] at hrange
  omega

end

/-- **The offsets of a stream advance** exactly in the runs in which no call fills its buffer up to the end of the range
without a gap. -/
theorem offsets_advance_iff (s : UInt32) (pre calls : List ManagerOp) (hfresh : StartsFresh pre s)
    (hcalls : ∀ op ∈ calls, LeavesStream s op) :
    OffsetsAdvance s (runOps quicStreamManagerInit pre) calls ↔
      ∀ before call after, calls = before ++ .onData call :: after → call.streamId = s →
        ¬ call.Overruns (runOps (runOps quicStreamManagerInit pre) before) := by
  have hu : (runOps quicStreamManagerInit pre).Unique := runOps_unique init_unique pre
  have hfresh := fresh_of_startsFresh hfresh
  set mgr := runOps quicStreamManagerInit pre
  constructor
  · intro hoffsets
    exact hoffsets.not_overruns hfresh hu hcalls
  · intro hcond
    have hfits : ∀ before op after, calls = before ++ op :: after → Advancing s mgr before →
        (emittedOn s mgr (before ++ [op])).length < 2 ^ 32 := by
      intro before op after hsplit hbefore
      rw [emittedOn_snoc, List.length_append, ← hbefore.counts]
      obtain ⟨-, hemit, -⟩ | ⟨call, rfl, rfl, hreceives, -, hemit, -⟩ :=
        stream_step (runOps_unique hu before) (hcalls op (by simp [hsplit]))
      · rw [hemit]
        exact UInt32.toNat_lt _
      · rw [hemit]
        by_contra hover
        exact hcond before call after hsplit rfl
          ((StreamCall.overruns_iff hreceives hbefore.ordered).mpr (Nat.le_of_not_lt hover))
    refine ⟨fun before op after hsplit => ?_, fun before after hsplit => ?_⟩
    · have hbefore := advancing_run hfresh hu hcalls hfits before (op :: after) hsplit
      exact (hbefore.snoc hu (hcalls op (by simp [hsplit])) (hfits before op after hsplit hbefore)).2
    · exact (advancing_run hfresh hu hcalls hfits before after hsplit).counts

/-- The out-of-order case of the stream tests: "DEF" at 3, then "ABC" at 0. -/
def outOfOrder : List ManagerOp :=
  [.onData ⟨2, 3, ⟨[0x44, 0x45, 0x46], by decide⟩, 64, ⟨true, true⟩⟩,
    .onData ⟨2, 0, ⟨[0x41, 0x42, 0x43], by decide⟩, 64, ⟨true, true⟩⟩]

theorem offsets_advance_out_of_order :
    OffsetsAdvance 2 (runOps quicStreamManagerInit []) outOfOrder ↔
      ∀ before call after, outOfOrder = before ++ .onData call :: after → call.streamId = 2 →
        ¬ call.Overruns (runOps (runOps quicStreamManagerInit []) before) :=
  offsets_advance_iff 2 [] outOfOrder (Or.inl (by decide +kernel))
    (List.forall_mem_cons.mpr ⟨trivial, List.forall_mem_singleton.mpr trivial⟩)

/-! ### The end of the range -/

theorem exists_payload {n : Nat} (hn : n < 2 ^ 32) : ∃ p : Payload, p.bytes.length = n :=
  ⟨⟨List.replicate n 0, by rwa [List.length_replicate]⟩, List.length_replicate⟩

/-- A payload from the first offset on. -/
def firstCall (p : Payload) : StreamCall := ⟨0, 0, p, 2 ^ 32 - 1, ⟨true, true⟩⟩

/-- Two bytes at the last offset. -/
def lastCall : StreamCall := ⟨0, 0xFFFFFFFF, ⟨[1, 2], by decide⟩, 2, ⟨true, true⟩⟩

theorem firstCall_state {p : Payload} (hp : p.bytes.length = 2 ^ 32 - 1) :
    let state := ((firstCall p).run quicStreamManagerInit).2.stateOf 0
    state.inUse = true ∧ state.nextOffset = 0xFFFFFFFF ∧ state.segments = [] := by
  have hspan : (firstCall p).node.span.stop = 2 ^ 32 - 1 := by
    rw [QuicStreamSegment.span, StreamCall.node, firstCall]
    dsimp only
    rw [hp]
    rfl
  have hne : p.bytes ≠ [] := List.ne_nil_of_length_pos (by omega)
  have huse := @consumeSegments_use (firstCall p).node [] 0 (2 ^ 32 - 1) (2 ^ 32 - 1) (UInt32.le_refl 0)
    (by decide) ((Nat.zero_add _).trans hspan.symm) (Nat.le_refl _)
  have hconsumed : (firstCall p).consumed quicStreamManagerInit =
      consumeSegments 0 (2 ^ 32 - 1) [(firstCall p).node] := by
    rw [StreamCall.consumed, QuicStreamState.receive, init_stateOf, insertNode]
    rfl
  have hstate := ((onData_cases init_unique (firstCall p)).2.2.2 ⟨hne, show 0 < 2 ^ 32 - 1 by decide⟩
    (show quicStreamManagerInit.HasSlot 0 by decide +kernel) ⟨rfl, rfl⟩).2
  intro state
  have hstate' : state = _ := hstate
  rw [hstate', hconsumed, huse]
  exact ⟨rfl, rfl, rfl⟩

/-- The second of the two bytes is at offset 0 again. -/
theorem offset_wraps :
    ¬ ∀ (s : UInt32) (pre calls : List ManagerOp), StartsFresh pre s → (∀ op ∈ calls, LeavesStream s op) →
      OffsetsAdvance s (runOps quicStreamManagerInit pre) calls := by
  intro h
  obtain ⟨p, hp⟩ := exists_payload (show 2 ^ 32 - 1 < 2 ^ 32 by decide)
  have hcalls : ∀ op ∈ [ManagerOp.onData (firstCall p), .onData lastCall], LeavesStream 0 op :=
    List.forall_mem_cons.mpr ⟨trivial, List.forall_mem_singleton.mpr trivial⟩
  have hfresh : StartsFresh [] 0 := Or.inl (by decide +kernel)
  have hoffsets := h 0 [] _ hfresh hcalls
  obtain ⟨hused, hnext, hsegs⟩ := firstCall_state hp
  refine hoffsets.not_overruns (fresh_of_startsFresh hfresh) init_unique hcalls [.onData (firstCall p)] lastCall []
    rfl rfl ⟨⟨by decide, HasSlot.of_inUse hused, by decide⟩, ?_, fun q hle hlt => ?_⟩
  · show 2 ^ 32 ≤ (((firstCall p).run quicStreamManagerInit).2.stateOf 0).nextOffset.toNat + 2
    rw [hnext]
    decide
  · have hle : (((firstCall p).run quicStreamManagerInit).2.stateOf 0).nextOffset.toNat ≤ q := hle
    rw [hnext] at hle
    exact covered_append.mpr (.inr (covered_singleton.mpr ⟨hle, Nat.lt_succ_of_lt hlt⟩))

end OttQuic
