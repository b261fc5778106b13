import OttQuic.Basic
import OttQuic.Lib.SlotTable

/-!
# Stream reassembly (`quic_stream.c`)

A stream keeps the next offset to emit and a list of buffered segments. `quic_stream_on_data` inserts
the new fragment and then consumes the list from its head into the caller's buffer, as far as the
segments reach `next_offset` and the buffer has room. A connection's manager holds 16 such streams.

Offsets are `uint32_t` and wrap. The null checks on pointers that every caller passes non-null have no
counterpart: a null manager, data or output buffer is not a value of the types below.
-/

namespace OttQuic

open SlotTable

abbrev quicStreamMaxStreams : Nat := 16

/-- A buffered fragment; its `length` is that of `data`. -/
structure QuicStreamSegment where
  offset : UInt32
  data : Payload
  deriving DecidableEq

structure QuicStreamState where
  streamId : UInt32
  nextOffset : UInt32
  segments : List QuicStreamSegment
  inUse : Bool
  deriving DecidableEq

structure QuicStreamManager where
  streams : Fin quicStreamMaxStreams → QuicStreamState

/-- A slot as `memset` leaves it. -/
def QuicStreamState.zero : QuicStreamState := ⟨0, 0, [], false⟩

def quicStreamManagerInit : QuicStreamManager := ⟨fun _ => .zero⟩

/-- `quic_stream_manager_destroy`: every used slot is freed. -/
def quicStreamManagerDestroy (mgr : QuicStreamManager) : QuicStreamManager :=
  ⟨fun i => if (mgr.streams i).inUse then { mgr.streams i with segments := [], inUse := false }
    else mgr.streams i⟩

/-- The scan for the slot of a stream id. -/
def QuicStreamManager.find (mgr : QuicStreamManager) (streamId : UInt32) :
    Option (Fin quicStreamMaxStreams) :=
  findKey QuicStreamState.inUse QuicStreamState.streamId mgr.streams streamId

/-- `quic_stream_reset`; `none` is the return value -1. -/
def quicStreamReset (mgr : QuicStreamManager) (streamId : UInt32) : Option QuicStreamManager :=
  match mgr.find streamId with
  | some i => some ⟨Function.update mgr.streams i
      { mgr.streams i with segments := [], nextOffset := 0 }⟩
  | none => none

/-- `find_or_create_stream`; `none` is the null pointer of a full table. -/
def findOrCreateStream (mgr : QuicStreamManager) (streamId : UInt32) :
    Option (Fin quicStreamMaxStreams × QuicStreamManager) :=
  match mgr.find streamId with
  | some i => some (i, mgr)
  | none =>
    match findFree QuicStreamState.inUse mgr.streams with
    | some i => some (i, ⟨Function.update mgr.streams i ⟨streamId, 0, [], true⟩⟩)
    | none => none

/-- Which of the two `malloc` calls of `insert_segment` succeed. -/
structure SegmentAlloc where
  node : Bool
  data : Bool
  deriving DecidableEq

/-- The insertion loop of `insert_segment`: before the first segment that does not start earlier. -/
def insertNode (node : QuicStreamSegment) : List QuicStreamSegment → List QuicStreamSegment
  | [] => [node]
  | seg :: rest => if seg.offset < node.offset then seg :: insertNode node rest else node :: seg :: rest

/-- `insert_segment`; `none` is the return value -1. -/
def insertSegment (state : QuicStreamState) (offset : UInt32) (data : Payload) (alloc : SegmentAlloc) :
    Option QuicStreamState :=
  if !alloc.node then none
  else if !alloc.data then none
  else some { state with segments := insertNode ⟨offset, data⟩ state.segments }

/-- What `consume_segments` leaves behind and writes. -/
structure Consumed where
  nextOffset : UInt32
  segments : List QuicStreamSegment
  out : Bytes

/-- The loop of `consume_segments`; `room` is `out_buf_size - written`. -/
def consumeSegments (nextOffset : UInt32) (room : Nat) : List QuicStreamSegment → Consumed
  | [] => ⟨nextOffset, [], []⟩
  | seg :: rest =>
    if seg.offset ≤ nextOffset then
      let start := if nextOffset > seg.offset then (nextOffset - seg.offset).toNat else 0
      if start ≥ seg.data.bytes.length then
        consumeSegments nextOffset room rest
      else
        let toCopy := min (seg.data.bytes.length - start) room
        let chunk := (seg.data.bytes.drop start).take toCopy
        let nextOffset' := nextOffset + UInt32.ofNat toCopy
        if start + toCopy < seg.data.bytes.length then
          let consumed := start + toCopy
          ⟨nextOffset', ⟨seg.offset + UInt32.ofNat consumed, seg.data.drop consumed⟩ :: rest, chunk⟩
        else
          let c := consumeSegments nextOffset' (room - toCopy) rest
          ⟨c.nextOffset, c.segments, chunk ++ c.out⟩
    else ⟨nextOffset, seg :: rest, []⟩

/-- The return value of `quic_stream_on_data` and what it wrote through its output pointers: `out` is
the first `*out_len` bytes of `out_buf`, and `none` marks an output that was not written. -/
structure OnDataResult where
  rc : Int
  outOffset : Option UInt32
  out : Option Bytes
  deriving DecidableEq

def OnDataResult.refused (outOffset : Option UInt32) : OnDataResult := ⟨-1, outOffset, none⟩

def quicStreamOnData (mgr : QuicStreamManager) (streamId offset : UInt32) (data : Payload)
    (outBufSize : Nat) (alloc : SegmentAlloc) : OnDataResult × QuicStreamManager :=
  if data.length = 0 ∨ outBufSize = 0 then (.refused none, mgr)
  else
    match findOrCreateStream mgr streamId with
    | none => (.refused none, mgr)
    | some (i, mgr) =>
      let state := mgr.streams i
      match insertSegment state offset data alloc with
      | none => (.refused (some state.nextOffset), mgr)
      | some state' =>
        let c := consumeSegments state'.nextOffset outBufSize state'.segments
        (⟨0, some state.nextOffset, some c.out⟩,
          ⟨Function.update mgr.streams i
            { state' with nextOffset := c.nextOffset, segments := c.segments }⟩)

end OttQuic
