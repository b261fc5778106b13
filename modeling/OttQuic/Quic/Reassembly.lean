import OttQuic.Quic.Stream
import OttQuic.Lib.Coverage

/-!
# One stream reassembles its byte stream

Everything here is about one stream whose fragments all carry the bytes of one stream `S` at their
offsets (`Carries`). The buffered list is not sorted: after a call that fills the output buffer the
trimmed head starts at `next_offset` and segments with smaller offsets may follow it. What holds is
weaker (`Ordered`): a segment ahead of another either starts no later or starts at or before
`next_offset`. Insertion keeps it because it stops at the first segment that does not start earlier,
and consuming keeps it because `next_offset` only grows.

`consumeSegments_spec` says everything one run of the consume loop does. `Reassembling` relates a
stream's state to the fragments received and the bytes emitted so far, and `reassembling_step` is its
step lemma.
-/

namespace OttQuic

open Coverage

/-- The segment carries the bytes of the stream `S` at its offset. -/
def Carries (S : Bytes) (seg : QuicStreamSegment) : Prop :=
  seg.offset.toNat + seg.data.bytes.length ≤ S.length ∧
    seg.data.bytes = (S.drop seg.offset.toNat).take seg.data.bytes.length

instance (S : Bytes) (seg : QuicStreamSegment) : Decidable (Carries S seg) :=
  inferInstanceAs (Decidable (_ ∧ _))

/-- The positions of a segment. -/
def QuicStreamSegment.span (seg : QuicStreamSegment) : Span :=
  ⟨seg.offset.toNat, seg.offset.toNat + seg.data.bytes.length⟩

/-- A segment ahead of another starts no later, or at or before the next offset. -/
def Ordered (nextOffset : UInt32) (segs : List QuicStreamSegment) : Prop :=
  segs.Pairwise fun a b => a.offset ≤ nextOffset ∨ a.offset ≤ b.offset

theorem covered_cons {seg : QuicStreamSegment} {segs : List QuicStreamSegment} {p : Nat} :
    Covered ((seg :: segs).map (·.span)) p ↔
      (seg.span.start ≤ p ∧ p < seg.span.stop) ∨ Covered (segs.map (·.span)) p := by
  rw [List.map_cons, ← List.singleton_append, covered_append, covered_singleton]

/-! ### Insertion -/

theorem mem_insertNode {node seg : QuicStreamSegment} {segs : List QuicStreamSegment} :
    seg ∈ insertNode node segs ↔ seg = node ∨ seg ∈ segs := by
  induction segs with
  | nil => simp [insertNode]
  | cons head rest ih =>
      rw [insertNode]
      split_ifs
      · rw [List.mem_cons, ih, List.mem_cons, or_left_comm]
      · rw [List.mem_cons]

theorem covered_insertNode {node : QuicStreamSegment} {segs : List QuicStreamSegment} {p : Nat} :
    Covered ((insertNode node segs).map (·.span)) p ↔ Covered (segs.map (·.span) ++ [node.span]) p := by
  simp only [Covered, List.mem_map, List.mem_append, List.mem_singleton, mem_insertNode]
  constructor
  · rintro ⟨f, ⟨seg, rfl | hseg, rfl⟩, hp⟩
    · exact ⟨_, Or.inr rfl, hp⟩
    · exact ⟨_, Or.inl ⟨seg, hseg, rfl⟩, hp⟩
  · rintro ⟨f, ⟨seg, hseg, rfl⟩ | rfl, hp⟩
    · exact ⟨_, ⟨seg, Or.inr hseg, rfl⟩, hp⟩
    · exact ⟨_, ⟨node, Or.inl rfl, rfl⟩, hp⟩

theorem insertNode_ordered {node : QuicStreamSegment} {segs : List QuicStreamSegment} {n : UInt32}
    (h : Ordered n segs) : Ordered n (insertNode node segs) := by
  induction segs with
  | nil => simp [insertNode, Ordered]
  | cons head rest ih =>
      obtain ⟨hhead, hrest⟩ := List.pairwise_cons.mp h
      rw [insertNode]
      by_cases hlt : head.offset < node.offset
      · rw [if_pos hlt]
        refine List.pairwise_cons.mpr ⟨fun b hb => ?_, ih hrest⟩
        rcases mem_insertNode.mp hb with rfl | hb
        · exact Or.inr (UInt32.le_of_lt hlt)
        · exact hhead b hb
      · rw [if_neg hlt]
        have hle : node.offset ≤ head.offset := UInt32.not_lt.mp hlt
        refine List.pairwise_cons.mpr ⟨fun b hb => ?_, h⟩
        rcases List.mem_cons.mp hb with rfl | hb
        · exact Or.inr hle
        · rcases hhead b hb with hn | hb
          · exact Or.inl (UInt32.le_trans hle hn)
          · exact Or.inr (UInt32.le_trans hle hb)

/-! ### The consume loop -/

theorem start_eq {offset nextOffset : UInt32} (h : offset ≤ nextOffset) :
    (if nextOffset > offset then (nextOffset - offset).toNat else 0)
      = nextOffset.toNat - offset.toNat := by
  rw [UInt32.le_iff_toNat_le] at h
  by_cases hlt : nextOffset > offset
  · rw [if_pos hlt, UInt32.toNat_sub_of_le _ _ (UInt32.le_iff_toNat_le.mpr h)]
  · rw [if_neg hlt]
    rw [gt_iff_lt, UInt32.lt_iff_toNat_lt] at hlt
    omega

section Pass

variable {seg : QuicStreamSegment} {rest : List QuicStreamSegment} {nextOffset : UInt32} {room k : Nat}

theorem consumeSegments_stop (h : nextOffset < seg.offset) :
    consumeSegments nextOffset room (seg :: rest) = ⟨nextOffset, seg :: rest, []⟩ := by
  rw [consumeSegments, if_neg (UInt32.not_le.mpr h)]

theorem consumeSegments_stale (h : seg.offset ≤ nextOffset) (hstale : seg.span.stop ≤ nextOffset.toNat) :
    consumeSegments nextOffset room (seg :: rest) = consumeSegments nextOffset room rest := by
  have hstop : seg.span.stop = seg.offset.toNat + seg.data.bytes.length := rfl
  rw [consumeSegments, if_pos h]
  simp only [start_eq h]
  rw [if_pos (by omega)]

/-- The bytes that fill the buffer are taken from a segment, which is trimmed to the new next offset. -/
theorem consumeSegments_trim (h : seg.offset ≤ nextOffset) (hlong : nextOffset.toNat + room < seg.span.stop) :
    consumeSegments nextOffset room (seg :: rest) =
      ⟨nextOffset + UInt32.ofNat room,
        ⟨seg.offset + UInt32.ofNat (nextOffset.toNat - seg.offset.toNat + room),
          seg.data.drop (nextOffset.toNat - seg.offset.toNat + room)⟩ :: rest,
        (seg.data.bytes.drop (nextOffset.toNat - seg.offset.toNat)).take room⟩ := by
  have hstop : seg.span.stop = seg.offset.toNat + seg.data.bytes.length := rfl
  have hle := UInt32.le_iff_toNat_le.mp h
  rw [consumeSegments, if_pos h]
  simp only [start_eq h]
  rw [if_neg (by omega), Nat.min_eq_right (by omega), if_pos (by omega)]

theorem consumeSegments_use (h : seg.offset ≤ nextOffset) (hpos : 0 < k)
    (hk : nextOffset.toNat + k = seg.span.stop) (hroom : k ≤ room) :
    consumeSegments nextOffset room (seg :: rest) =
      ⟨(consumeSegments (nextOffset + UInt32.ofNat k) (room - k) rest).nextOffset,
        (consumeSegments (nextOffset + UInt32.ofNat k) (room - k) rest).segments,
        (seg.data.bytes.drop (nextOffset.toNat - seg.offset.toNat)).take k ++
          (consumeSegments (nextOffset + UInt32.ofNat k) (room - k) rest).out⟩ := by
  have hstop : seg.span.stop = seg.offset.toNat + seg.data.bytes.length := rfl
  have hle := UInt32.le_iff_toNat_le.mp h
  have hcopy : min (seg.data.bytes.length - (nextOffset.toNat - seg.offset.toNat)) room = k := by omega
  rw [consumeSegments, if_pos h]
  simp only [start_eq h, hcopy]
  rw [if_neg (by omega), if_neg (by omega)]

theorem pass_cases (seg : QuicStreamSegment) (nextOffset : UInt32) (room : Nat) :
    nextOffset < seg.offset ∨ seg.offset ≤ nextOffset ∧ (seg.span.stop ≤ nextOffset.toNat ∨
      nextOffset.toNat + room < seg.span.stop ∨
        ∃ k, 0 < k ∧ nextOffset.toNat + k = seg.span.stop ∧ k ≤ room) := by
  rcases UInt32.lt_or_le nextOffset seg.offset with hahead | hreach
  · exact .inl hahead
  · refine .inr ⟨hreach, ?_⟩
    rcases Nat.lt_or_ge nextOffset.toNat seg.span.stop with hfresh | hstale
    · rcases Nat.lt_or_ge (nextOffset.toNat + room) seg.span.stop with hlong | hshort
      · exact .inr (.inl hlong)
      · exact .inr (.inr ⟨seg.span.stop - nextOffset.toNat, by omega, by omega, by omega⟩)
    · exact .inl hstale

theorem length_taken (hreach : seg.offset ≤ nextOffset) (hk : nextOffset.toNat + k ≤ seg.span.stop) :
    ((seg.data.bytes.drop (nextOffset.toNat - seg.offset.toNat)).take k).length = k := by
  have hstop : seg.span.stop = seg.offset.toNat + seg.data.bytes.length := rfl
  have hle := UInt32.le_iff_toNat_le.mp hreach
  rw [List.length_take, List.length_drop]
  omega

end Pass

section Advance

variable {seg : QuicStreamSegment} {segs rest : List QuicStreamSegment} {nextOffset : UInt32} {room : Nat}
  {c : Consumed}

/-- What one run of the consume loop does to any list: what is written moves the next offset, modulo `2^32`, and
below `2^32` it comes from positions that the list holds. -/
structure Advance (nextOffset : UInt32) (room : Nat) (segs : List QuicStreamSegment) (c : Consumed) : Prop where
  next : c.nextOffset = nextOffset + UInt32.ofNat c.out.length
  fits : c.out.length ≤ room
  emitted : ∀ p, nextOffset.toNat ≤ p → p < nextOffset.toNat + c.out.length → p < 2 ^ 32 →
    Covered (segs.map (·.span)) p

theorem Advance.none (segs segs' : List QuicStreamSegment) :
    Advance nextOffset room segs ⟨nextOffset, segs', []⟩ :=
  ⟨(UInt32.add_zero nextOffset).symm, Nat.zero_le room, fun p h1 h2 => absurd h1 (by simpa using h2)⟩

theorem Advance.toNat (h : Advance nextOffset room segs c) (hwrap : nextOffset.toNat + c.out.length < 2 ^ 32) :
    c.nextOffset.toNat = nextOffset.toNat + c.out.length := by
  rw [h.next, toNat_add_ofNat hwrap]

theorem consumeSegments_advance (segs : List QuicStreamSegment) (nextOffset : UInt32) (room : Nat) :
    Advance nextOffset room segs (consumeSegments nextOffset room segs) := by
  induction segs generalizing nextOffset room with
  | nil => exact .none [] []
  | cons seg rest ih =>
      obtain hahead | ⟨hreach, hstale | hlong | ⟨k, hpos, hk, hroom⟩⟩ := pass_cases seg nextOffset room
      · rw [consumeSegments_stop hahead]
        exact .none _ _
      · rw [consumeSegments_stale hreach hstale]
        obtain ⟨hnext, hfits, hemitted⟩ := ih nextOffset room
        exact ⟨hnext, hfits, fun p hp hp' hlt => covered_cons.mpr (.inr (hemitted p hp hp' hlt))⟩
      · have hle : seg.span.start ≤ nextOffset.toNat := UInt32.le_iff_toNat_le.mp hreach
        have hlen := length_taken hreach hlong.le
        rw [consumeSegments_trim hreach hlong]
        refine ⟨?_, ?_, fun p hp hp' _ => covered_cons.mpr (.inl ?_)⟩
        · rw [hlen]
        · exact hlen.le
        · rw [hlen] at hp'
          omega
      · have hle : seg.span.start ≤ nextOffset.toNat := UInt32.le_iff_toNat_le.mp hreach
        have hlen := length_taken hreach hk.le
        obtain ⟨hnext, hfits, hemitted⟩ := ih (nextOffset + UInt32.ofNat k) (room - k)
        rw [consumeSegments_use hreach hpos hk hroom]
        refine ⟨?_, ?_, fun p hp hp' hlt => covered_cons.mpr ?_⟩
        · rw [List.length_append, hlen, UInt32.ofNat_add, ← UInt32.add_assoc]
          exact hnext
        · rw [List.length_append, hlen]
          omega
        · rw [List.length_append, hlen] at hp'
          by_cases hin : p < seg.span.stop
          · exact .inl ⟨by omega, hin⟩
          · -- below `2^32` the next offset has not wrapped
            have hmove : (nextOffset + UInt32.ofNat k).toNat = nextOffset.toNat + k := toNat_add_ofNat (by omega)
            exact .inr (hemitted p (by omega) (by omega) hlt)

/-- What is left of the list when the next offset has not wrapped. -/
structure Settled (room : Nat) (segs : List QuicStreamSegment) (c : Consumed) : Prop where
  ordered : Ordered c.nextOffset c.segments
  kept : ∀ p, c.nextOffset.toNat ≤ p →
    (Covered (c.segments.map (·.span)) p ↔ Covered (segs.map (·.span)) p)
  gap : c.out.length < room → ∀ seg ∈ c.segments, c.nextOffset < seg.offset

theorem Ordered.ahead (h : Ordered nextOffset (seg :: rest)) (hahead : nextOffset < seg.offset) :
    ∀ s ∈ seg :: rest, nextOffset < s.offset := by
  obtain ⟨hfront, -⟩ := List.pairwise_cons.mp h
  refine List.forall_mem_cons.mpr ⟨hahead, fun s hs => ?_⟩
  rcases hfront s hs with hn | hs
  · exact absurd hn (UInt32.not_le.mpr hahead)
  · exact UInt32.lt_of_lt_of_le hahead hs

theorem Ordered.mono {nextOffset' : UInt32} (h : Ordered nextOffset segs) (hle : nextOffset ≤ nextOffset') :
    Ordered nextOffset' segs :=
  h.imp fun hab => hab.imp_left fun ha => UInt32.le_trans ha hle

theorem Settled.behind (h : Settled room rest c) (hstale : seg.span.stop ≤ c.nextOffset.toNat) :
    ∀ p, c.nextOffset.toNat ≤ p →
      (Covered (c.segments.map (·.span)) p ↔ Covered ((seg :: rest).map (·.span)) p) := by
  intro p hp
  rw [h.kept p hp, covered_cons]
  refine ⟨.inr, ?_⟩
  rintro (hin | hin)
  · omega
  · exact hin

theorem consumeSegments_settled (segs : List QuicStreamSegment) (nextOffset : UInt32) (room : Nat)
    (hord : Ordered nextOffset segs)
    (hwrap : nextOffset.toNat + (consumeSegments nextOffset room segs).out.length < 2 ^ 32) :
    Settled room segs (consumeSegments nextOffset room segs) := by
  induction segs generalizing nextOffset room with
  | nil => exact ⟨hord, fun p _ => Iff.rfl, fun _ => List.forall_mem_nil _⟩
  | cons seg rest ih =>
      have hrest : Ordered nextOffset rest := (List.pairwise_cons.mp hord).2
      obtain hahead | ⟨hreach, hstale | hlong | ⟨k, hpos, hk, hroom⟩⟩ := pass_cases seg nextOffset room
      · rw [consumeSegments_stop hahead]
        exact ⟨hord, fun p _ => Iff.rfl, fun _ => hord.ahead hahead⟩
      · rw [consumeSegments_stale hreach hstale] at hwrap ⊢
        have hgrow := (consumeSegments_advance rest nextOffset room).toNat hwrap
        have hsettled := ih nextOffset room hrest hwrap
        exact ⟨hsettled.ordered, hsettled.behind (by omega), hsettled.gap⟩
      · have hle := UInt32.le_iff_toNat_le.mp hreach
        have hstart : seg.span.start = seg.offset.toNat := rfl
        have hstop : seg.span.stop = seg.offset.toNat + seg.data.bytes.length := rfl
        have hlen := length_taken hreach hlong.le
        rw [consumeSegments_trim hreach hlong] at hwrap ⊢
        dsimp only at hwrap
        rw [hlen] at hwrap
        have hnext : (nextOffset + UInt32.ofNat room).toNat = nextOffset.toNat + room := toNat_add_ofNat hwrap
        have hoff : (seg.offset + UInt32.ofNat (nextOffset.toNat - seg.offset.toNat + room)).toNat =
            nextOffset.toNat + room := by
          rw [toNat_add_ofNat (by omega)]
          omega
        have hmono : nextOffset ≤ nextOffset + UInt32.ofNat room := by
          rw [UInt32.le_iff_toNat_le, hnext]
          omega
        refine ⟨List.pairwise_cons.mpr ⟨fun b _ => .inl ?_, hrest.mono hmono⟩, fun p hp => ?_, fun hfree => ?_⟩
        · rw [UInt32.le_iff_toNat_le, hoff, hnext]
        · dsimp only at hp
          rw [hnext] at hp
          rw [covered_cons, covered_cons]
          refine or_congr_left ?_
          simp only [QuicStreamSegment.span, Payload.drop_bytes, List.length_drop, hoff]
          omega
        · rw [hlen] at hfree
          omega
      · have hlen := length_taken hreach hk.le
        rw [consumeSegments_use hreach hpos hk hroom] at hwrap ⊢
        dsimp only at hwrap
        rw [List.length_append, hlen] at hwrap
        have hmove : (nextOffset + UInt32.ofNat k).toNat = nextOffset.toNat + k := toNat_add_ofNat (by omega)
        have hmono : nextOffset ≤ nextOffset + UInt32.ofNat k := by
          rw [UInt32.le_iff_toNat_le, hmove]
          omega
        have hlast : (nextOffset + UInt32.ofNat k).toNat +
            (consumeSegments (nextOffset + UInt32.ofNat k) (room - k) rest).out.length < 2 ^ 32 := by omega
        have hsettled := ih _ (room - k) (hrest.mono hmono) hlast
        have hgrow := (consumeSegments_advance rest _ (room - k)).toNat hlast
        refine ⟨hsettled.ordered, hsettled.behind (by omega), fun hfree => ?_⟩
        rw [List.length_append, hlen] at hfree
        exact hsettled.gap (by omega)

end Advance

/-- What one run of the consume loop does to a list that carries `S`. -/
structure ConsumeSpec (S : Bytes) (nextOffset : UInt32) (room : Nat) (segs : List QuicStreamSegment)
    (c : Consumed) : Prop where
  next : c.nextOffset.toNat = nextOffset.toNat + c.out.length
  le : c.nextOffset.toNat ≤ S.length
  out : c.out = (S.drop nextOffset.toNat).take c.out.length
  fits : c.out.length ≤ room
  carries : ∀ seg ∈ c.segments, Carries S seg
  ordered : Ordered c.nextOffset c.segments
  emitted : ∀ p, nextOffset.toNat ≤ p → p < c.nextOffset.toNat → Covered (segs.map (·.span)) p
  kept : ∀ p, c.nextOffset.toNat ≤ p →
    (Covered (c.segments.map (·.span)) p ↔ Covered (segs.map (·.span)) p)
  gap : c.out.length < room → ∀ seg ∈ c.segments, c.nextOffset < seg.offset

theorem carries_chunk {S : Bytes} {seg : QuicStreamSegment} (h : Carries S seg) {n : Nat} (k : Nat)
    (hreach : seg.offset.toNat ≤ n) (hk : n + k ≤ seg.span.stop) :
    (seg.data.bytes.drop (n - seg.offset.toNat)).take k = (S.drop n).take k := by
  obtain ⟨_, hbytes⟩ := h
  have hk : n + k ≤ seg.offset.toNat + seg.data.bytes.length := hk
  rw [hbytes, List.drop_take, List.drop_drop, List.take_take]
  congr 1
  · omega
  · rw [Nat.add_sub_cancel' hreach]

theorem carries_drop {S : Bytes} {seg : QuicStreamSegment} (h : Carries S seg) {k : Nat}
    (hS : S.length < 2 ^ 32) (hk : k ≤ seg.data.bytes.length) :
    Carries S ⟨seg.offset + UInt32.ofNat k, seg.data.drop k⟩ := by
  obtain ⟨hbound, hbytes⟩ := h
  have hoff : (seg.offset + UInt32.ofNat k).toNat = seg.offset.toNat + k :=
    toNat_add_ofNat (by omega)
  refine ⟨?_, ?_⟩
  · simp only [Payload.drop_bytes, List.length_drop, hoff]
    omega
  · simp only [Payload.drop_bytes, List.length_drop, hoff]
    conv_lhs => rw [hbytes]
    rw [List.drop_take, List.drop_drop]

section Consume

variable {S : Bytes} {segs : List QuicStreamSegment} {nextOffset : UInt32} {room : Nat} {c : Consumed}

theorem Advance.le (h : Advance nextOffset room segs c) (hS : S.length < 2 ^ 32)
    (hle : nextOffset.toNat ≤ S.length) (hcarries : ∀ seg ∈ segs, Carries S seg) :
    nextOffset.toNat + c.out.length ≤ S.length := by
  by_contra hbeyond
  obtain ⟨f, hf, -, hlt⟩ := h.emitted S.length hle (by omega) hS
  obtain ⟨seg, hseg, rfl⟩ := List.mem_map.mp hf
  have hstop : seg.span.stop = seg.offset.toNat + seg.data.bytes.length := rfl
  have hbound := (hcarries seg hseg).1
  omega

theorem consumeSegments_carries (hS : S.length < 2 ^ 32) (segs : List QuicStreamSegment) (nextOffset : UInt32)
    (room : Nat) (hcarries : ∀ seg ∈ segs, Carries S seg) :
    (consumeSegments nextOffset room segs).out =
        (S.drop nextOffset.toNat).take (consumeSegments nextOffset room segs).out.length ∧
      ∀ seg ∈ (consumeSegments nextOffset room segs).segments, Carries S seg := by
  induction segs generalizing nextOffset room with
  | nil => exact ⟨rfl, hcarries⟩
  | cons seg rest ih =>
      obtain ⟨hseg, hrest⟩ := List.forall_mem_cons.mp hcarries
      have hstop : seg.span.stop = seg.offset.toNat + seg.data.bytes.length := rfl
      have hbound := hseg.1
      obtain hahead | ⟨hreach, hstale | hlong | ⟨k, hpos, hk, hroom⟩⟩ := pass_cases seg nextOffset room
      · rw [consumeSegments_stop hahead]
        exact ⟨rfl, hcarries⟩
      · rw [consumeSegments_stale hreach hstale]
        exact ih nextOffset room hrest
      · have hle := UInt32.le_iff_toNat_le.mp hreach
        rw [consumeSegments_trim hreach hlong]
        refine ⟨?_, List.forall_mem_cons.mpr ⟨carries_drop hseg hS (by omega), hrest⟩⟩
        dsimp only
        rw [length_taken hreach hlong.le]
        exact carries_chunk hseg room hle hlong.le
      · have hle := UInt32.le_iff_toNat_le.mp hreach
        have hmove : (nextOffset + UInt32.ofNat k).toNat = nextOffset.toNat + k := toNat_add_ofNat (by omega)
        obtain ⟨hout, hleft⟩ := ih (nextOffset + UInt32.ofNat k) (room - k) hrest
        rw [consumeSegments_use hreach hpos hk hroom]
        refine ⟨?_, hleft⟩
        dsimp only
        rw [List.length_append, length_taken hreach hk.le, List.take_add, List.drop_drop,
          carries_chunk hseg k hle hk.le]
        rw [hmove] at hout
        exact congrArg _ hout

/-- **One run of the consume loop.** -/
theorem consumeSegments_spec (hS : S.length < 2 ^ 32) (segs : List QuicStreamSegment)
    (nextOffset : UInt32) (room : Nat) (hle : nextOffset.toNat ≤ S.length)
    (hcarries : ∀ seg ∈ segs, Carries S seg) (hord : Ordered nextOffset segs) :
    ConsumeSpec S nextOffset room segs (consumeSegments nextOffset room segs) := by
  have hadvance := consumeSegments_advance segs nextOffset room
  have hend := hadvance.le hS hle hcarries
  have hnext := hadvance.toNat (by omega)
  have hsettled := consumeSegments_settled segs nextOffset room hord (by omega)
  obtain ⟨hout, hleft⟩ := consumeSegments_carries hS segs nextOffset room hcarries
  exact
    { next := hnext
      le := by omega
      out := hout
      fits := hadvance.fits
      carries := hleft
      ordered := hsettled.ordered
      emitted := fun p hp hp' => hadvance.emitted p hp (by omega) (by omega)
      kept := hsettled.kept
      gap := hsettled.gap }

end Consume

/-! ### The stream as it receives -/

/-- `spans` are the fragments received and `emitted` the bytes emitted since the stream was fresh. -/
structure Reassembling (S : Bytes) (spans : List Span) (emitted : Bytes) (state : QuicStreamState) :
    Prop where
  le : state.nextOffset.toNat ≤ S.length
  emitted : emitted = S.take state.nextOffset.toNat
  carries : ∀ seg ∈ state.segments, Carries S seg
  ordered : Ordered state.nextOffset state.segments
  received : ∀ p < state.nextOffset.toNat, Covered spans p
  held : ∀ p, state.nextOffset.toNat ≤ p →
    (Covered (state.segments.map (·.span)) p ↔ Covered spans p)

/-- A stream that has received nothing. -/
def QuicStreamState.Fresh (state : QuicStreamState) : Prop :=
  state.nextOffset = 0 ∧ state.segments = []

theorem reassembling_fresh (S : Bytes) {state : QuicStreamState} (h : state.Fresh) :
    Reassembling S [] [] state := by
  obtain ⟨hnext, hsegs⟩ := h
  refine ⟨by simp [hnext], by simp [hnext], by simp [hsegs], by simp [hsegs, Ordered], ?_, ?_⟩
  · simp [hnext]
  · simp [hsegs]

theorem Reassembling.emitted_length {S : Bytes} {spans : List Span} {emitted : Bytes}
    {state : QuicStreamState} (h : Reassembling S spans emitted state) :
    emitted.length = state.nextOffset.toNat := by
  have hle := h.le
  rw [h.emitted, List.length_take]
  omega

/-- What the stream becomes when a fragment arrives and the list is consumed. -/
def QuicStreamState.receive (state : QuicStreamState) (node : QuicStreamSegment) (room : Nat) :
    Consumed :=
  consumeSegments state.nextOffset room (insertNode node state.segments)

/-- The stream state of a finished call. -/
def QuicStreamState.after (state : QuicStreamState) (c : Consumed) : QuicStreamState :=
  { state with nextOffset := c.nextOffset, segments := c.segments }

section Receive

variable {S : Bytes} {spans : List Span} {emitted : Bytes} {state : QuicStreamState}
  {node : QuicStreamSegment} (room : Nat)

theorem Reassembling.spec (h : Reassembling S spans emitted state) (hS : S.length < 2 ^ 32)
    (hnode : Carries S node) :
    ConsumeSpec S state.nextOffset room (insertNode node state.segments)
      (state.receive node room) := by
  refine consumeSegments_spec hS _ _ _ h.le (fun seg hseg => ?_) (insertNode_ordered h.ordered)
  rcases mem_insertNode.mp hseg with rfl | hseg
  · exact hnode
  · exact h.carries seg hseg

/-- **One received fragment.** The bytes emitted continue the stream, and the fragment is now part of
what has been emitted or is held. -/
theorem reassembling_step (h : Reassembling S spans emitted state) (hS : S.length < 2 ^ 32)
    (hnode : Carries S node) :
    Reassembling S (spans ++ [node.span]) (emitted ++ (state.receive node room).out)
      (state.after (state.receive node room)) := by
  have hspec := h.spec room hS hnode
  have hgrow : state.nextOffset.toNat ≤ (state.receive node room).nextOffset.toNat := by
    rw [hspec.next]
    omega
  have hins : ∀ p, state.nextOffset.toNat ≤ p →
      (Covered ((insertNode node state.segments).map (·.span)) p ↔
        Covered (spans ++ [node.span]) p) := by
    intro p hp
    rw [covered_insertNode, covered_append, covered_append, h.held p hp]
  refine ⟨hspec.le, ?_, hspec.carries, hspec.ordered, fun p hp => ?_, fun p hp => ?_⟩
  · rw [h.emitted, hspec.out, ← List.take_add]
    congr 1
    exact hspec.next.symm
  · by_cases hold : p < state.nextOffset.toNat
    · exact (h.received p hold).mono (List.subset_append_left _ _)
    · exact (hins p (by omega)).mp (hspec.emitted p (by omega) hp)
  · exact (hspec.kept p hp).trans (hins p (le_trans hgrow hp))

theorem Reassembling.gap (h : Reassembling S spans emitted state) (hS : S.length < 2 ^ 32)
    (hnode : Carries S node) (hroom : (state.receive node room).out.length < room) :
    ¬ Covered (spans ++ [node.span]) (state.receive node room).nextOffset.toNat := by
  have hspec := h.spec room hS hnode
  have hnext := (reassembling_step room h hS hnode).held
    (state.receive node room).nextOffset.toNat le_rfl
  intro hcov
  obtain ⟨f, hf, hstart, _⟩ := hnext.mpr hcov
  obtain ⟨seg, hseg, rfl⟩ := List.mem_map.mp hf
  have hlt := UInt32.lt_iff_toNat_lt.mp (hspec.gap hroom seg hseg)
  have hstart : seg.offset.toNat ≤ (state.receive node room).nextOffset.toNat := hstart
  omega

end Receive

end OttQuic
