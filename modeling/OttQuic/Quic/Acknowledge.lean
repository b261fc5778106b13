import OttQuic.Quic.Receive

/-!
# Acknowledged data

The receive loop acknowledges a DATA packet whatever `quic_stream_on_data` returned. What an
acknowledged packet carried is safe if every byte at or beyond the stream's next offset has been passed
to the stream handler or is buffered. `ack_retains_iff` says for which packets that is so: those that
the stream takes and no other fragment overrules, and those that bring nothing new.

Positions of bytes are `uint32_t`, so that they follow a stream across the wrap of its offsets;
fragments are arbitrary, and may disagree about the byte of a position.
-/

namespace OttQuic

open SlotTable QuicEngine QuicStreamManager

/-! ### The consume loop on arbitrary fragments -/

namespace QuicStreamSegment

/-- The byte that the segment has for a position. -/
def byteAt (seg : QuicStreamSegment) (p : UInt32) : Option UInt8 := seg.data.bytes[(p - seg.offset).toNat]?

/-- The bytes from a position on, which the segment has reached. -/
def bytesFrom (seg : QuicStreamSegment) (next : UInt32) : Bytes :=
  seg.data.bytes.drop (next.toNat - seg.offset.toNat)

/-- The position behind the segment, or `next` if that is further. -/
def past (seg : QuicStreamSegment) (next : UInt32) : UInt32 := next + UInt32.ofNat (seg.bytesFrom next).length

end QuicStreamSegment

/-- What the segments bring from a position on, one after the other. -/
def brought (next : UInt32) : List QuicStreamSegment → Bytes
  | [] => []
  | seg :: rest => seg.bytesFrom next ++ brought (seg.past next) rest

/-- There is no gap: every segment starts no later than those in front of it reach. -/
def Joined (next : UInt32) : List QuicStreamSegment → Prop
  | [] => True
  | seg :: rest => seg.offset ≤ next ∧ Joined (seg.past next) rest

/-- The position behind the segments. -/
def reached (next : UInt32) (segs : List QuicStreamSegment) : UInt32 :=
  next + UInt32.ofNat (brought next segs).length

/-- A call with room for so many bytes comes to the segment behind those in front of it. -/
def ComesTo (next : UInt32) (room : Nat) (front : List QuicStreamSegment) (seg : QuicStreamSegment) : Prop :=
  Joined next (front ++ [seg]) ∧ (brought next front).length ≤ room

/-- Some segment keeps the byte for the position: one that the call comes to has it among the bytes that are
then new, or one that it does not come to has it. -/
def KeepsByte (next : UInt32) (room : Nat) (p : UInt32) (b : UInt8) (segs : List QuicStreamSegment) : Prop :=
  ∃ front seg back, segs = front ++ seg :: back ∧
    (ComesTo next room front seg ∧
        (seg.bytesFrom (reached next front))[(p - reached next front).toNat]? = some b ∨
      ¬ ComesTo next room front seg ∧ seg.byteAt p = some b)

section Consume

variable {next p : UInt32} {room : Nat} {b : UInt8} {seg : QuicStreamSegment} {front rest : List QuicStreamSegment}

theorem comesTo_nil : ComesTo next room [] seg ↔ seg.offset ≤ next := by
  simp [ComesTo, Joined, brought]

theorem comesTo_cons {head : QuicStreamSegment} :
    ComesTo next room (head :: front) seg ↔ head.offset ≤ next ∧ (head.bytesFrom next).length ≤ room ∧
      ComesTo (head.past next) (room - (head.bytesFrom next).length) front seg := by
  simp only [ComesTo, List.cons_append, Joined, brought, List.length_append]
  constructor
  · rintro ⟨⟨hle, hjoined⟩, hroom⟩
    exact ⟨hle, by omega, hjoined, by omega⟩
  · rintro ⟨hle, hroom, hjoined, hroom'⟩
    exact ⟨⟨hle, hjoined⟩, by omega⟩

theorem reached_cons {head : QuicStreamSegment} :
    reached next (head :: front) = reached (head.past next) front := by
  rw [reached, reached, brought, List.length_append, UInt32.ofNat_add, QuicStreamSegment.past, UInt32.add_assoc]

theorem keepsByte_cons {head : QuicStreamSegment} : KeepsByte next room p b (head :: rest) ↔
    (head.offset ≤ next ∧ (head.bytesFrom next)[(p - next).toNat]? = some b ∨
      ¬ head.offset ≤ next ∧ head.byteAt p = some b) ∨
    (if head.offset ≤ next ∧ (head.bytesFrom next).length ≤ room then
      KeepsByte (head.past next) (room - (head.bytesFrom next).length) p b rest
    else ∃ seg ∈ rest, seg.byteAt p = some b) := by
  have hreached : reached next [] = next := UInt32.add_zero next
  constructor
  · rintro ⟨_ | ⟨first, front⟩, seg, back, hsplit, hkept⟩
    · obtain ⟨rfl, rfl⟩ := List.cons.inj hsplit
      rw [comesTo_nil, hreached] at hkept
      exact .inl hkept
    · obtain ⟨rfl, rfl⟩ := List.cons.inj hsplit
      right
      rw [comesTo_cons, reached_cons] at hkept
      split_ifs with huse
      · refine ⟨front, seg, back, rfl, ?_⟩
        simpa only [huse.1, huse.2, true_and] using hkept
      · rcases hkept with ⟨⟨hle, hroom, -⟩, -⟩ | ⟨-, hbyte⟩
        · exact absurd ⟨hle, hroom⟩ huse
        · exact ⟨seg, by simp, hbyte⟩
  · rintro (hhead | hrest)
    · refine ⟨[], head, rest, rfl, ?_⟩
      rwa [comesTo_nil, hreached]
    · split_ifs at hrest with huse
      · obtain ⟨front, seg, back, rfl, hkept⟩ := hrest
        refine ⟨head :: front, seg, back, rfl, ?_⟩
        rw [comesTo_cons, reached_cons]
        simpa only [huse.1, huse.2, true_and] using hkept
      · obtain ⟨seg, hmem, hbyte⟩ := hrest
        obtain ⟨front, back, rfl⟩ := List.append_of_mem hmem
        refine ⟨head :: front, seg, back, rfl, .inr ⟨?_, hbyte⟩⟩
        rw [comesTo_cons]
        exact fun hcomes => huse ⟨hcomes.1, hcomes.2.1⟩

theorem sub_add_toNat (p next : UInt32) {n : Nat} (hn : n < 2 ^ 32) :
    (p - (next + UInt32.ofNat n)).toNat =
      if n ≤ (p - next).toNat then (p - next).toNat - n else (p - next).toNat + 2 ^ 32 - n := by
  have hp := p.toNat_lt
  have hnext := next.toNat_lt
  rw [UInt32.toNat_sub, UInt32.toNat_add, UInt32.toNat_ofNat', UInt32.toNat_sub]
  split_ifs <;> omega

/-- A segment that is cut off when the buffer is full: what has been written of it and what is left are its new
bytes. -/
theorem trimmed_iff (hreach : seg.offset ≤ next) (hlong : next.toNat + room < seg.span.stop) :
    (((seg.bytesFrom next).take room)[(p - next).toNat]? = some b ∨
      (⟨seg.offset + UInt32.ofNat (next.toNat - seg.offset.toNat + room),
        seg.data.drop (next.toNat - seg.offset.toNat + room)⟩ : QuicStreamSegment).byteAt p = some b) ↔
      (seg.bytesFrom next)[(p - next).toNat]? = some b := by
  have hle := UInt32.le_iff_toNat_le.mp hreach
  have hfits := seg.data.fits
  have hstop : seg.span.stop = seg.offset.toNat + seg.data.bytes.length := rfl
  have hnext : seg.offset + UInt32.ofNat (next.toNat - seg.offset.toNat + room) = next + UInt32.ofNat room := by
    apply UInt32.toNat_inj.mp
    rw [UInt32.toNat_add, UInt32.toNat_add, UInt32.toNat_ofNat', UInt32.toNat_ofNat']
    omega
  rw [QuicStreamSegment.byteAt, hnext, sub_add_toNat p next (by omega), QuicStreamSegment.bytesFrom]
  show _ ∨ (seg.data.bytes.drop _)[_]? = some b ↔ _
  rw [List.getElem?_take, List.getElem?_drop, List.getElem?_drop]
  by_cases hwritten : (p - next).toNat < room
  · have hleft : seg.data.bytes[next.toNat - seg.offset.toNat + room + ((p - next).toNat + 2 ^ 32 - room)]? = none :=
      List.getElem?_eq_none (by omega)
    rw [if_pos hwritten, if_neg (by omega), hleft]
    simp
  · rw [if_neg hwritten, if_pos (by omega)]
    have hindex : next.toNat - seg.offset.toNat + room + ((p - next).toNat - room) =
        next.toNat - seg.offset.toNat + (p - next).toNat := by omega
    rw [hindex]
    simp

/-- **The bytes of the consume loop**: what it has written or left of a position is what some segment keeps. -/
theorem consumeSegments_keeps_iff (segs : List QuicStreamSegment) (next : UInt32) (room : Nat) (p : UInt32) (b : UInt8)
    (hroom : room ≤ 2 ^ 31) :
    ((consumeSegments next room segs).out[(p - next).toNat]? = some b ∨
      ∃ seg ∈ (consumeSegments next room segs).segments, seg.byteAt p = some b) ↔
      KeepsByte next room p b segs := by
  induction segs generalizing next room with
  | nil => simp [consumeSegments, KeepsByte]
  | cons head rest ih =>
      rw [keepsByte_cons]
      have hfits := head.data.fits
      have hstop : head.span.stop = head.offset.toNat + head.data.bytes.length := rfl
      have hlength : (head.bytesFrom next).length = head.data.bytes.length - (next.toNat - head.offset.toNat) :=
        List.length_drop
      obtain hahead | ⟨hreach, hstale | hlong | ⟨n, hpos, hn, hcopy⟩⟩ := pass_cases head next room
      · have hnot : ¬ head.offset ≤ next := UInt32.not_le.mpr hahead
        rw [consumeSegments_stop hahead]
        simp [hnot]
      · have hle := UInt32.le_iff_toNat_le.mp hreach
        have hnone : head.bytesFrom next = [] := List.eq_nil_of_length_eq_zero (by omega)
        have hpast : head.past next = next := by
          rw [QuicStreamSegment.past, hnone]
          exact UInt32.add_zero next
        rw [consumeSegments_stale hreach hstale, ih next room hroom]
        simp [hreach, hnone, hpast]
      · have hle := UInt32.le_iff_toNat_le.mp hreach
        have hcut := trimmed_iff (p := p) (b := b) hreach hlong
        have hfull : ¬ (head.bytesFrom next).length ≤ room := by omega
        rw [consumeSegments_trim hreach hlong, if_neg fun huse => hfull huse.2, ← QuicStreamSegment.bytesFrom]
        simp only [hreach, not_true_eq_false, true_and, false_and, or_false, List.exists_mem_cons_iff, ← or_assoc,
          hcut]
      · have hle := UInt32.le_iff_toNat_le.mp hreach
        have hlen : (head.bytesFrom next).length = n := by omega
        have htaken : (head.data.bytes.drop (next.toNat - head.offset.toNat)).take n = head.bytesFrom next :=
          List.take_of_length_le (le_of_eq hlen)
        have hpast : head.past next = next + UInt32.ofNat n := by rw [QuicStreamSegment.past, hlen]
        have hwritten := (consumeSegments_advance rest (next + UInt32.ofNat n) (room - n)).fits
        have hrest := ih (next + UInt32.ofNat n) (room - n) (by omega)
        rw [sub_add_toNat p next (by omega)] at hrest
        rw [consumeSegments_use hreach hpos hn hcopy, htaken, hpast, hlen, if_pos ⟨hreach, hcopy⟩, ← hrest]
        simp only [hreach, not_true_eq_false, true_and, false_and, or_false, ← or_assoc]
        refine or_congr_left ?_
        by_cases hown : (p - next).toNat < n
        · rw [List.getElem?_append_left (by omega), if_neg (by omega),
            List.getElem?_eq_none (l := (consumeSegments _ _ _).out) (by omega)]
          simp
        · rw [List.getElem?_append_right (by omega), List.getElem?_eq_none (l := head.bytesFrom next) (by omega),
            if_pos (by omega), hlen]
          simp

theorem byteAt_own {k : Nat} (hk : seg.data.bytes[k]? = some b) :
    seg.byteAt (seg.offset + UInt32.ofNat k) = some b := by
  have hlt : k < seg.data.bytes.length := (List.getElem?_eq_some_iff.mp hk).1
  have hfits := seg.data.fits
  have hindex : (seg.offset + UInt32.ofNat k - seg.offset).toNat = k := by
    rw [UInt32.toNat_sub, UInt32.toNat_add, UInt32.toNat_ofNat']
    have := seg.offset.toNat_lt
    omega
  rw [QuicStreamSegment.byteAt, hindex, hk]

theorem keepsByte_of_agreement {segs : List QuicStreamSegment} (hseg : seg ∈ segs) {k : Nat}
    (hk : seg.data.bytes[k]? = some b) (hp : p = seg.offset + UInt32.ofNat k)
    (hnext : next.toNat ≤ seg.offset.toNat + k)
    (hroom : room ≤ 2 ^ 31) (hagree : ∀ other ∈ segs, ∀ c, other.byteAt p = some c → c = b) :
    KeepsByte next room p b segs := by
  have hlt : k < seg.data.bytes.length := (List.getElem?_eq_some_iff.mp hk).1
  have hfits := seg.data.fits
  have hown : seg.byteAt p = some b := hp ▸ byteAt_own hk
  have hdistance {next : UInt32} (hnext : next.toNat ≤ seg.offset.toNat + k)
      (hnear : seg.offset.toNat + k < next.toNat + 2 ^ 32) : (p - next).toNat = seg.offset.toNat + k - next.toNat := by
    rw [hp, UInt32.toNat_sub, UInt32.toNat_add, UInt32.toNat_ofNat']
    have := next.toNat_lt
    omega
  induction segs generalizing next room with
  | nil => cases hseg
  | cons head rest ih =>
      rw [keepsByte_cons]
      by_cases hreach : head.offset ≤ next
      · have hle := UInt32.le_iff_toNat_le.mp hreach
        rcases List.mem_cons.mp hseg with rfl | hseg
        · left
          rw [QuicStreamSegment.bytesFrom, List.getElem?_drop, hdistance hnext (by omega)]
          have hindex : next.toNat - seg.offset.toNat + (seg.offset.toNat + k - next.toNat) = k := by omega
          exact .inl ⟨hreach, by rw [hindex, hk]⟩
        · by_cases huse : (head.bytesFrom next).length ≤ room
          · rw [if_pos ⟨hreach, huse⟩]
            by_cases hahead : (head.past next).toNat ≤ seg.offset.toNat + k
            · exact .inr (ih hseg hahead (by omega) fun other hother => hagree other (List.mem_cons_of_mem _ hother))
            · -- the head has the position among its new bytes
              have hpast : (head.past next).toNat = (next.toNat + (head.bytesFrom next).length) % 2 ^ 32 := by
                rw [QuicStreamSegment.past, UInt32.toNat_add, UInt32.toNat_ofNat']
                omega
              have hnear := next.toNat_lt
              have hbefore : seg.offset.toNat + k < next.toNat + (head.bytesFrom next).length := by omega
              have hheadFits := head.data.fits
              have hnew : (p - next).toNat < (head.bytesFrom next).length := by
                rw [hdistance hnext (by omega)]
                omega
              have hbyte : head.byteAt p = some (head.bytesFrom next)[(p - next).toNat] := by
                have hindex : (p - head.offset).toNat = next.toNat - head.offset.toNat + (p - next).toNat := by
                  rw [hdistance hnext (by omega), hdistance (by omega) (by omega)]
                  omega
                rw [QuicStreamSegment.byteAt, hindex, ← List.getElem?_drop]
                exact List.getElem?_eq_getElem hnew
              have hagreed := hagree head List.mem_cons_self _ hbyte
              exact .inl (.inl ⟨hreach, List.getElem?_eq_some_iff.mpr ⟨hnew, hagreed⟩⟩)
          · rw [if_neg fun h => huse h.2]
            exact .inr ⟨seg, hseg, hown⟩
      · rw [if_neg fun h => hreach h.1]
        rcases List.mem_cons.mp hseg with rfl | hseg
        · exact .inl (.inr ⟨hreach, hown⟩)
        · exact .inr ⟨seg, hseg, hown⟩

end Consume

/-! ### What a packet needs to keep -/

/-- The stream of a connection, fresh if there is no such connection. -/
def QuicEngine.streamOf (engine : QuicEngine) (connectionId : UInt64) (streamId : UInt32) :
    QuicStreamState :=
  match engine.findEntry connectionId with
  | some i => (engine.connections i).streamMgr.stateOf streamId
  | none => ⟨streamId, 0, [], false⟩

/-- The stream position of the payload byte `k`. -/
def QuicPacket.position (packet : QuicPacket) (k : Nat) : UInt32 := packet.offset + UInt32.ofNat k

/-- The payload byte `k` is `b`, at or beyond the stream's next offset. -/
def Needed (engine : QuicEngine) (packet : QuicPacket) (k : Nat) (b : UInt8) : Prop :=
  packet.payload.bytes[k]? = some b ∧
    (engine.streamOf packet.connectionId packet.streamId).nextOffset.toNat ≤ packet.offset.toNat + k

/-- The chunk carries the byte for a position of the packet's stream. -/
def Chunk.Has (chunk : Chunk) (packet : QuicPacket) (p : UInt32) (b : UInt8) : Prop :=
  chunk.connectionId = packet.connectionId ∧ chunk.streamId = packet.streamId ∧
    chunk.data[(p - chunk.offset).toNat]? = some b

/-- The reassembly buffer of the packet's stream holds the byte for the position. -/
def Buffered (engine : QuicEngine) (packet : QuicPacket) (p : UInt32) (b : UInt8) : Prop :=
  ∃ seg ∈ (engine.streamOf packet.connectionId packet.streamId).segments, seg.byteAt p = some b

/-- Every needed byte has been passed to the stream handler or is buffered. -/
def Retained (engine : QuicEngine) (packet : QuicPacket) (out : List QuicOutput) (after : QuicEngine) :
    Prop :=
  ∀ k b, Needed engine packet k b →
    (∃ chunk ∈ handedOver out, chunk.Has packet (packet.position k) b) ∨
      Buffered after packet (packet.position k) b

/-- The output acknowledges the packet number of the packet on its connection. -/
def QuicOutput.Acks (packet : QuicPacket) : QuicOutput → Prop
  | sent p _ => p.has quicFlagAck = true ∧ p.connectionId = packet.connectionId ∧
      p.packetNumber = packet.packetNumber
  | _ => False

/-- The stream manager that the packet finds after the clean-up. -/
def QuicEngine.managerFor (engine : QuicEngine) (connectionId : UInt64) (now : Int) :
    QuicStreamManager :=
  match (engine.cleanupConnections now).findEntry connectionId with
  | some i => (engine.connections i).streamMgr
  | none => quicStreamManagerInit

/-- The packet's fragment. -/
def QuicPacket.segment (packet : QuicPacket) : QuicStreamSegment := ⟨packet.offset, packet.payload⟩

/-- The buffered fragments with the packet's own in its place, before those that do not start earlier. -/
def QuicPacket.among (packet : QuicPacket) (segs : List QuicStreamSegment) : List QuicStreamSegment :=
  segs.takeWhile (fun seg => seg.offset < packet.offset) ++
    packet.segment :: segs.dropWhile (fun seg => seg.offset < packet.offset)

/-- The packet does not close its connection, and its stream takes it: the stream has a slot or can
have one, and memory is there. -/
def Takes (engine : QuicEngine) (packet : QuicPacket) (env : ReceiveEnv) : Prop :=
  packet.has quicFlagClose = false ∧
    (engine.managerFor packet.connectionId env.now).HasSlot packet.streamId ∧
    env.alloc.node = true ∧ env.alloc.data = true

/-- The stream of the packet, after the clean-up. -/
def QuicEngine.streamFor (engine : QuicEngine) (packet : QuicPacket) (now : Int) : QuicStreamState :=
  (engine.managerFor packet.connectionId now).stateOf packet.streamId

/-- The fragments in front of the packet's do not overrule its needed bytes: each of them is kept by some
fragment. -/
def Undisputed (engine : QuicEngine) (packet : QuicPacket) (env : ReceiveEnv) : Prop :=
  ∀ k b, Needed engine packet k b →
    KeepsByte (engine.streamFor packet env.now).nextOffset quicMaxPayload (packet.position k) b
      (packet.among (engine.streamFor packet env.now).segments)

/-- Everything the packet brings is there already: it closes nothing, and the needed bytes are buffered,
or it has no needed byte at all. -/
def BringsNothing (engine : QuicEngine) (packet : QuicPacket) (env : ReceiveEnv) : Prop :=
  (∀ k b, ¬ Needed engine packet k b) ∨
    packet.has quicFlagClose = false ∧ ∀ k b, Needed engine packet k b →
      ∃ seg ∈ (engine.streamFor packet env.now).segments, seg.byteAt (packet.position k) = some b

section Retain

variable {engine : QuicEngine} {packet : QuicPacket} {addr : SockAddr} {now nowAdd : Int}

theorem cleanup_findEntry {i : Fin quicMaxConnections} {cid : UInt64}
    (h : (engine.cleanupConnections now).findEntry cid = some i) :
    (engine.connections i).inUse = true ∧ (engine.connections i).connectionId = cid ∧
      (engine.cleanupConnections now).connections i = engine.connections i := by
  obtain ⟨hused, hid⟩ := findEntry_some h
  have hsame : (engine.cleanupConnections now).connections i = engine.connections i := by
    rw [cleanup_connections] at hused ⊢
    split_ifs at hused ⊢ with hout
    · simp [QuicConnectionEntry.close] at hused
    · rfl
  rw [hsame] at hused hid
  exact ⟨hused, hid, hsame⟩

theorem target_streamMgr {target : PacketTarget}
    (htarget : (engine.cleanupConnections now).packetTarget packet addr now nowAdd = some target) :
    target.entry.streamMgr = engine.managerFor packet.connectionId now := by
  unfold QuicEngine.managerFor
  obtain ⟨_, _, ⟨hfind, _, hentry⟩ | ⟨hnone, _, _, _, hentry⟩⟩ := packetTarget_cases htarget
  · rw [hfind, hentry]
    dsimp only
    rw [(cleanup_findEntry hfind).2.2]
  · rw [hnone, hentry]
    rfl

theorem managerFor_stateOf (hok : TableOk engine) (cid : UInt64) (now : Int) (s : UInt32) :
    (engine.managerFor cid now).stateOf s = engine.streamOf cid s ∨
      (engine.managerFor cid now).stateOf s = ⟨s, 0, [], false⟩ := by
  unfold QuicEngine.managerFor
  cases hfind : (engine.cleanupConnections now).findEntry cid with
  | none => exact Or.inr (init_stateOf s)
  | some i =>
      left
      obtain ⟨hused, hid, _⟩ := cleanup_findEntry hfind
      have hbefore : engine.findEntry cid = some i := hok.unique.findKey_eq hused hid
      rw [QuicEngine.streamOf, hbefore]

theorem needed_of_manager (hok : TableOk engine) {k : Nat} {b : UInt8} (h : Needed engine packet k b) (now : Int) :
    (engine.streamFor packet now).nextOffset.toNat ≤ packet.offset.toNat + k := by
  rcases managerFor_stateOf hok packet.connectionId now packet.streamId with hsame | hfresh
  · rw [QuicEngine.streamFor, hsame]
    exact h.2
  · rw [QuicEngine.streamFor, hfresh]
    exact Nat.zero_le _

theorem insertNode_eq (packet : QuicPacket) (segs : List QuicStreamSegment) :
    insertNode packet.segment segs = packet.among segs := by
  induction segs with
  | nil => rfl
  | cons head rest ih =>
      rw [insertNode, QuicPacket.among, List.takeWhile_cons, List.dropWhile_cons, ih, QuicPacket.among]
      by_cases hlt : head.offset < packet.offset
      · simp [hlt, QuicPacket.segment]
      · simp [hlt, QuicPacket.segment]

theorem mem_among {segs : List QuicStreamSegment} {seg : QuicStreamSegment} :
    seg ∈ packet.among segs ↔ seg = packet.segment ∨ seg ∈ segs := by
  rw [← insertNode_eq]
  exact mem_insertNode

theorem undisputed_of_agreement (hok : TableOk engine) {env : ReceiveEnv}
    (hagree : ∀ k b, Needed engine packet k b → ∀ seg ∈ (engine.streamFor packet env.now).segments,
      ∀ c, seg.byteAt (packet.position k) = some c → c = b) : Undisputed engine packet env := by
  intro k b hneed
  have hown : packet.segment.byteAt (packet.position k) = some b := byteAt_own hneed.1
  refine keepsByte_of_agreement (mem_among.mpr (.inl rfl)) hneed.1 rfl (needed_of_manager hok hneed env.now) (by decide)
    fun other hother c hbyte => ?_
  rcases mem_among.mp hother with rfl | hother
  · exact Option.some.inj (hbyte.symm.trans hown)
  · exact hagree k b hneed other hother c hbyte

theorem streamCall_accepted {b : UInt8} {k : Nat} (hk : packet.payload.bytes[k]? = some b) (alloc : SegmentAlloc) :
    (streamCall packet alloc).Accepted := by
  refine ⟨fun hempty => ?_, show 0 < quicMaxPayload by decide⟩
  rw [show packet.payload.bytes = [] from hempty] at hk
  cases hk

/-- Of a byte that a taken packet brings, the chunk and the buffer have what some fragment keeps. -/
theorem run_retains_iff {mgr : QuicStreamManager} (hu : mgr.Unique) {alloc : SegmentAlloc}
    (hslot : mgr.HasSlot packet.streamId) (halloc : alloc.node = true ∧ alloc.data = true) {k : Nat} {b : UInt8}
    (hk : packet.payload.bytes[k]? = some b) :
    let run := (streamCall packet alloc).run mgr
    ((∃ chunk ∈ run.1.chunks packet, chunk.Has packet (packet.position k) b) ∨
      ∃ seg ∈ (run.2.stateOf packet.streamId).segments, seg.byteAt (packet.position k) = some b) ↔
      KeepsByte (mgr.stateOf packet.streamId).nextOffset quicMaxPayload (packet.position k) b
        (packet.among (mgr.stateOf packet.streamId).segments) := by
  intro run
  have hacc := streamCall_accepted hk alloc
  obtain ⟨_, _, _, hyes⟩ := onData_cases hu (streamCall packet alloc)
  obtain ⟨hresult, hstate⟩ := hyes hacc hslot halloc
  rw [← insertNode_eq, ← consumeSegments_keeps_iff _ _ _ _ _ (by decide)]
  refine or_congr ?_ ?_
  · rw [OnDataResult.chunks, show run.1 = _ from hresult]
    simp only [true_and, Option.getD_some]
    split_ifs with hwritten
    · simp only [List.mem_singleton, exists_eq_left, Chunk.Has, true_and]
      exact Iff.rfl
    · have hempty : ((streamCall packet alloc).consumed mgr).out = [] := List.eq_nil_of_length_eq_zero (by omega)
      have hnone : ((streamCall packet alloc).consumed mgr).out[(packet.position k -
          (mgr.stateOf packet.streamId).nextOffset).toNat]? ≠ some b := by simp [hempty]
      refine iff_of_false (by simp) hnone
  · rw [show run.2.stateOf packet.streamId = _ from hstate]
    exact Iff.rfl

theorem run_refused {mgr : QuicStreamManager} (hu : mgr.Unique) {alloc : SegmentAlloc}
    (hno : ¬ (mgr.HasSlot packet.streamId ∧ alloc.node = true ∧ alloc.data = true)) :
    let run := (streamCall packet alloc).run mgr
    run.1.chunks packet = [] ∧
      (run.2.stateOf packet.streamId).segments = (mgr.stateOf packet.streamId).segments := by
  intro run
  obtain ⟨_, _, hrefused, _⟩ := onData_cases hu (streamCall packet alloc)
  obtain ⟨hrc, _, hstate⟩ := hrefused fun h => hno h.2
  refine ⟨?_, ?_⟩
  · rw [OnDataResult.chunks, if_neg]
    rw [show run.1.rc = -1 from hrc]
    simp
  · rcases hstate with hstate | hstate
    · rw [show run.2.stateOf packet.streamId = _ from hstate]
      rfl
    · rw [show run.2.stateOf packet.streamId = _ from hstate]
      rfl

theorem buffered_after {handler : Bool} {target : PacketTarget} {datagram : Bytes} {env : ReceiveEnv}
    (hreach : (engineSystem handler).Reachable engine)
    (htarget : (engine.cleanupConnections env.now).packetTarget packet addr env.now env.nowAdd
      = some target)
    {mgr : QuicStreamManager}
    (htable : (engine.receive datagram addr env).2.connections
      = Function.update (engine.cleanupConnections env.now).connections target.slot
          { processedEntry target.entry packet with streamMgr := mgr })
    (hopen : packet.has quicFlagClose = false) (p : UInt32) (b : UInt8) :
    Buffered (engine.receive datagram addr env).2 packet p b ↔
      ∃ seg ∈ (mgr.stateOf packet.streamId).segments, seg.byteAt p = some b := by
  have hafter : TableOk (engine.receive datagram addr env).2 :=
    reachable_tableOk ((op_sectionsTo engine (.receive datagram addr env)).reachable hreach)
  obtain ⟨hid, hused, _⟩ := packetTarget_cases htarget
  have hslot : (engine.receive datagram addr env).2.connections target.slot
      = { processedEntry target.entry packet with streamMgr := mgr } := by
    rw [htable, Function.update_self]
  have hinUse : (processedEntry target.entry packet).inUse = true := by
    rw [processedEntry, if_neg (by simp [hopen])]
    split_ifs <;> exact hused
  have hfind : (engine.receive datagram addr env).2.findEntry packet.connectionId = some target.slot := by
    refine hafter.unique.findKey_eq ?_ ?_
    · rw [hslot]
      exact hinUse
    · rw [hslot]
      exact (processedEntry_connectionId target.entry packet).trans hid
  rw [Buffered, QuicEngine.streamOf, hfind]
  dsimp only
  rw [hslot]

/-- **What an acknowledged packet carried.** For every reachable state, if the handling of a DATA
datagram sends an ACK for it, then its needed bytes are retained if and only if its stream takes them
and nothing overrules them, or does not take them and has them already. -/
theorem ack_retains_iff {handler : Bool} {engine : QuicEngine}
    (hreach : (engineSystem handler).Reachable engine) (hhandler : engine.streamHandler = true)
    (datagram : Bytes) (packet : QuicPacket) (addr : SockAddr) (env : ReceiveEnv)
    (hparse : quicPacketDeserialize (datagram.take quicMaxPacketSize) = some packet)
    (hdata : packet.has quicFlagData = true)
    (hack : ∃ o ∈ (engine.receive datagram addr env).1, o.Acks packet) :
    Retained engine packet (engine.receive datagram addr env).1 (engine.receive datagram addr env).2 ↔
      Takes engine packet env ∧ Undisputed engine packet env ∨
        ¬ Takes engine packet env ∧ BringsNothing engine packet env := by
  have hok := reachable_tableOk hreach
  obtain ⟨o, ho, _⟩ := hack
  obtain ⟨target, htarget, hdel⟩ := accepted_of_output hparse (List.ne_nil_of_mem ho)
  obtain ⟨_, hclosed, hopened⟩ := receive_accepted hok hparse hdata hhandler htarget hdel
  have hmgr := target_streamMgr htarget
  have hu := target_mgr_unique (cleanup_streamsUnique (reachable_streamsUnique hreach) env.now) htarget
  rw [hmgr] at hopened hu
  by_cases hclose : packet.has quicFlagClose = true
  · obtain ⟨htable, hout⟩ := hclosed hclose
    have hfind := findEntry_processed (cleanup_unique hok env.now) htarget
      (htable.trans (by rw [processedEntry, if_pos hclose]))
    rw [if_pos hclose] at hfind
    have hempty : ∀ k b, ¬ ((∃ chunk ∈ handedOver (engine.receive datagram addr env).1,
          chunk.Has packet (packet.position k) b) ∨
        Buffered (engine.receive datagram addr env).2 packet (packet.position k) b) := by
      intro k b
      rw [hout, Buffered, QuicEngine.streamOf, hfind]
      simp
    have hright : Takes engine packet env ∧ Undisputed engine packet env ∨
        ¬ Takes engine packet env ∧ BringsNothing engine packet env ↔ ∀ k b, ¬ Needed engine packet k b := by
      simp [Takes, BringsNothing, hclose]
    rw [hright]
    exact forall₂_congr fun k b => ⟨fun h hneed => hempty k b (h hneed), fun h hneed => absurd hneed h⟩
  · have hopen : packet.has quicFlagClose = false := by simpa using hclose
    obtain ⟨htable, hout⟩ := hopened hopen
    have hbuffered := buffered_after hreach htarget htable hopen
    by_cases htakes : Takes engine packet env
    · rw [and_iff_right htakes, or_iff_left fun h => h.1 htakes]
      refine forall₂_congr fun k b => imp_congr_right fun hneed => ?_
      rw [hout, hbuffered]
      exact run_retains_iff hu htakes.2.1 htakes.2.2 hneed.1
    · obtain ⟨hchunks, hsegs⟩ := run_refused hu fun h => htakes ⟨hopen, h⟩
      have hleft : Retained engine packet (engine.receive datagram addr env).1
          (engine.receive datagram addr env).2 ↔ ∀ k b, Needed engine packet k b →
            ∃ seg ∈ (engine.streamFor packet env.now).segments, seg.byteAt (packet.position k) = some b := by
        refine forall₂_congr fun k b => imp_congr_right fun _ => ?_
        rw [hout, hchunks, hbuffered, hsegs]
        simp [QuicEngine.streamFor]
      rw [hleft, and_iff_right htakes, or_iff_right fun h => htakes h.1]
      constructor
      · exact fun h => .inr ⟨hopen, h⟩
      · rintro (hnone | ⟨-, hheld⟩) k b hneed
        · exact absurd hneed (hnone k b)
        · exact hheld k b hneed

end Retain

/-! ### Seventeen streams -/

/-- A packet of connection 7 with one byte of payload. -/
def sampleData (packetNumber streamId : UInt32) : QuicPacket :=
  ⟨quicFlagData, 7, packetNumber, streamId, 0, ⟨[0x41], by decide⟩⟩

/-- The sample connection after one DATA packet on each of the streams `0 .. n - 1`. -/
def sampleStreams (n : Nat) : QuicEngine :=
  runEngine (quicEngineInit false) (sampleOps ++ (List.range n).map fun k =>
    sampleReceive (sampleData (UInt32.ofNat (k + 1)) (UInt32.ofNat k)))

instance (chunk : Chunk) (packet : QuicPacket) (p : UInt32) (b : UInt8) : Decidable (chunk.Has packet p b) :=
  inferInstanceAs (Decidable (_ ∧ _ ∧ _))

instance (engine : QuicEngine) (packet : QuicPacket) (p : UInt32) (b : UInt8) :
    Decidable (Buffered engine packet p b) :=
  inferInstanceAs (Decidable (∃ seg ∈ _, QuicStreamSegment.byteAt seg p = some b))

instance (packet : QuicPacket) (o : QuicOutput) : Decidable (o.Acks packet) :=
  match o with
  | .sent _ _ => inferInstanceAs (Decidable (_ ∧ _ ∧ _))
  | .resent _ _ _ | .resendFailed _ | .state _ _ _ | .streamData _ _ _ _ | .packet _ _ =>
    inferInstanceAs (Decidable False)

/-- The packet on the seventeenth stream is acknowledged and its byte is nowhere. -/
theorem ack_seventeenth_stream :
    let engine := sampleStreams 16
    let packet := sampleData 17 16
    let datagram := quicHeader packet ++ packet.payload.bytes
    let r := engine.receive datagram sampleAddr sampleEnv
    (engineSystem false).Reachable engine ∧ engine.streamHandler = true ∧
      quicPacketDeserialize (datagram.take quicMaxPacketSize) = some packet ∧
      packet.has quicFlagData = true ∧ (∃ o ∈ r.1, o.Acks packet) ∧ ¬ Retained engine packet r.1 r.2 := by
  intro engine packet datagram r
  obtain ⟨hhandler, hdatagram, hacked, hlost, hneeded⟩ : engine.streamHandler = true ∧
      quicPacketDeserialize (datagram.take quicMaxPacketSize) = some packet ∧
      (∃ o ∈ r.1, o.Acks packet) ∧
      ¬ ((∃ chunk ∈ handedOver r.1, chunk.Has packet (packet.position 0) 0x41) ∨
        Buffered r.2 packet (packet.position 0) 0x41) ∧
      (engine.streamOf packet.connectionId packet.streamId).nextOffset.toNat ≤ packet.offset.toNat + 0 := by
    decide +kernel
  exact ⟨reachable_runEngine false _, hhandler, hdatagram, by decide, hacked,
    fun h => hlost (h 0 0x41 ⟨by decide, hneeded⟩)⟩

/-- Two bytes of the stream 0, which wait for the ones before them. -/
def sampleAhead : QuicPacket := ⟨quicFlagData, 7, 1, 0, 2, ⟨[0x63, 0x64], by decide⟩⟩

/-- The bytes before them, and the first of them once more. -/
def sampleOverlap : QuicPacket := ⟨quicFlagData, 7, 2, 0, 0, ⟨[0x61, 0x62, 0x63], by decide⟩⟩

/-- What the second packet carries is kept. -/
theorem ack_retains_overlap :
    let engine := runEngine (quicEngineInit false) (sampleOps ++ [sampleReceive sampleAhead])
    let r := engine.receive (quicHeader sampleOverlap ++ sampleOverlap.payload.bytes) sampleAddr sampleEnv
    Retained engine sampleOverlap r.1 r.2 := by
  intro engine r
  have hreach : (engineSystem false).Reachable engine := reachable_runEngine false _
  have hsegs : (engine.streamFor sampleOverlap sampleEnv.now).segments = [⟨2, ⟨[0x63, 0x64], by decide⟩⟩] := by
    decide +kernel
  have hundisputed : Undisputed engine sampleOverlap sampleEnv := by
    refine undisputed_of_agreement (reachable_tableOk hreach) fun k b hneed seg hseg c hbyte => ?_
    rw [hsegs, List.mem_singleton] at hseg
    rw [hseg] at hbyte
    have hlt : k < 3 := (List.getElem?_eq_some_iff.mp hneed.1).1
    interval_cases k
    · cases (show none = some c from hbyte)
    · cases (show none = some c from hbyte)
    · exact Option.some.inj (hbyte.symm.trans hneed.1)
  exact (ack_retains_iff hreach (by decide +kernel) _ _ _ _ (by decide +kernel) (by decide) (by decide +kernel)).mpr
    (Or.inl ⟨⟨by decide, by decide +kernel, rfl, rfl⟩, hundisputed⟩)

end OttQuic
