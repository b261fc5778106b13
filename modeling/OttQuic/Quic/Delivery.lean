import OttQuic.Quic.Receive
import OttQuic.Quic.Reassembly

/-!
# Delivery over one open connection

The receive loop calls `quic_stream_on_data` once per packet, with a buffer of one payload, so a stream
moves forward by at most `quicMaxPayload` bytes per packet: it drains its covered prefix at that rate
(`Coverage.Drains`). `Delivering` is the invariant of a run of DATA packets on one open connection and
stream, `delivering_step` its step lemma; what has been delivered after the last packet is then decided
by the arrival order alone (`delivery_complete_iff`).
-/

namespace OttQuic

open SlotTable QuicEngine QuicStreamManager Coverage

/-- A datagram that is a packet, where it comes from, and what the outside does while it is handled. -/
structure Arrival where
  datagram : Bytes
  packet : QuicPacket
  parses : quicPacketDeserialize (datagram.take quicMaxPacketSize) = some packet
  addr : SockAddr
  env : ReceiveEnv

namespace Arrival

def receive (engine : QuicEngine) (a : Arrival) : List QuicOutput × QuicEngine :=
  engine.receive a.datagram a.addr a.env

def segment (a : Arrival) : QuicStreamSegment := ⟨a.packet.offset, a.packet.payload⟩

/-- A DATA packet of the connection and stream with bytes of `S`, and memory to hold it. -/
structure Feeds (S : Bytes) (cid : UInt64) (s : UInt32) (a : Arrival) : Prop where
  connection : a.packet.connectionId = cid
  stream : a.packet.streamId = s
  data : a.packet.has quicFlagData = true
  noClose : a.packet.has quicFlagClose = false
  payload : a.packet.payload.bytes ≠ []
  carries : Carries S a.segment
  alloc : a.env.alloc.node = true ∧ a.env.alloc.data = true

end Arrival

/-- No packet comes later than the time-out allows after the one before it. -/
def InTime (last : Int) : List Arrival → Prop
  | [] => True
  | a :: as => a.env.now - last ≤ quicConnectionTimeout ∧ InTime a.env.now as

def receiveAll (engine : QuicEngine) (arrivals : List Arrival) : QuicEngine :=
  arrivals.foldl (fun engine a => (a.receive engine).2) engine

/-- The data of the chunks of one stream, concatenated. -/
def chunkBytes (cid : UInt64) (s : UInt32) (chunks : List Chunk) : Bytes :=
  chunks.flatMap fun chunk =>
    if chunk.connectionId = cid ∧ chunk.streamId = s then chunk.data else []

/-- The bytes of one stream that a run passes to the stream handler. -/
def deliveredOn (cid : UInt64) (s : UInt32) : QuicEngine → List Arrival → Bytes
  | _, [] => []
  | engine, a :: as =>
    chunkBytes cid s (handedOver (a.receive engine).1) ++ deliveredOn cid s (a.receive engine).2 as

/-- Slot `i` holds the connection, CONNECTED and last seen at `last`, and a stream handler is
installed. -/
structure Open (handler : Bool) (cid : UInt64) (i : Fin quicMaxConnections) (last : Int)
    (engine : QuicEngine) : Prop where
  reachable : (engineSystem handler).Reachable engine
  streamHandler : engine.streamHandler = true
  used : (engine.connections i).inUse = true
  id : (engine.connections i).connectionId = cid
  connected : (engine.connections i).state = .connected
  seen : (engine.connections i).lastSeen = last

/-- `spans` of the stream have arrived and `emitted` has been delivered. -/
structure Delivering (S : Bytes) (s : UInt32) (i : Fin quicMaxConnections) (spans : List Span)
    (emitted : Bytes) (engine : QuicEngine) : Prop where
  slot : (engine.connections i).streamMgr.HasSlot s
  reassembling : Reassembling S spans emitted ((engine.connections i).streamMgr.stateOf s)
  drains : Drains quicMaxPayload spans emitted.length

section Step

variable {handler : Bool} {cid : UInt64} {s : UInt32} {i : Fin quicMaxConnections} {last : Int}
  {engine : QuicEngine} {S : Bytes} {a : Arrival}

theorem open_step (h : Open handler cid i last engine) (ha : a.Feeds S cid s)
    (htime : a.env.now - last ≤ quicConnectionTimeout) :
    let run := (streamCall a.packet a.env.alloc).run (engine.connections i).streamMgr
    Open handler cid i a.env.now (a.receive engine).2 ∧
      ((a.receive engine).2.connections i).streamMgr = run.2 ∧
      handedOver (a.receive engine).1 = run.1.chunks a.packet := by
  intro run
  have hok := reachable_tableOk h.reachable
  have hkept : (engine.cleanupConnections a.env.now).connections i = engine.connections i := by
    rw [cleanup_connections, if_neg]
    intro hout
    have := hout.2
    rw [h.seen] at this
    omega
  have hfind : (engine.cleanupConnections a.env.now).findEntry a.packet.connectionId = some i := by
    refine (cleanup_unique hok a.env.now).findKey_eq ?_ ?_
    · rw [hkept, h.used]
    · rw [hkept, h.id, ha.connection]
  set entry : QuicConnectionEntry := { engine.connections i with addr := a.addr, lastSeen := a.env.now }
    with hentry
  have htarget : (engine.cleanupConnections a.env.now).packetTarget a.packet a.addr a.env.now a.env.nowAdd
      = some ⟨i, entry, false⟩ := by
    rw [packetTarget, hfind]
    dsimp only
    rw [hkept]
  have hprocessed : processedEntry entry a.packet = entry := by
    have hstate : ¬ (entry.state = .connecting ∧ a.packet.has quicFlagHandshake = true) := by
      rw [show entry.state = .connected from h.connected]
      simp
    rw [processedEntry, if_neg (by simp [ha.noClose]), if_neg hstate]
  have hdel : Delivers entry a.packet := by
    refine Or.inr (Or.inl ?_)
    rw [hprocessed]
    exact h.connected
  obtain ⟨hhandler, _, hopened⟩ :=
    receive_accepted hok a.parses ha.data h.streamHandler htarget hdel
  obtain ⟨htable, hout⟩ := hopened ha.noClose
  rw [hprocessed] at htable
  have hslot : (a.receive engine).2.connections i = { entry with streamMgr := run.2 } := by
    show (engine.receive a.datagram a.addr a.env).2.connections i = _
    rw [htable, Function.update_self]
  refine ⟨⟨?_, hhandler, ?_, ?_, ?_, ?_⟩, by rw [hslot], hout⟩
  · exact (op_sectionsTo engine (.receive a.datagram a.addr a.env)).reachable h.reachable
  · rw [hslot]
    exact h.used
  · rw [hslot]
    exact h.id
  · rw [hslot]
    exact h.connected
  · rw [hslot]

theorem chunkBytes_chunks (ha : a.Feeds S cid s) (result : OnDataResult) (hrc : result.rc = 0) :
    chunkBytes cid s (result.chunks a.packet) = result.out.getD [] := by
  unfold OnDataResult.chunks
  split_ifs with hout
  · simp [chunkBytes, ha.connection, ha.stream]
  · rw [not_and] at hout
    have hempty := hout hrc
    rw [Nat.not_lt, Nat.le_zero, List.length_eq_zero_iff] at hempty
    rw [hempty]
    rfl

theorem delivering_step {spans : List Span} {emitted : Bytes} (hS : S.length < 2 ^ 32)
    (hopen : Open handler cid i last engine) (h : Delivering S s i spans emitted engine)
    (ha : a.Feeds S cid s) (htime : a.env.now - last ≤ quicConnectionTimeout) :
    Delivering S s i (spans ++ [a.segment.span])
      (emitted ++ chunkBytes cid s (handedOver (a.receive engine).1)) (a.receive engine).2 := by
  obtain ⟨_, hmgr, hout⟩ := open_step hopen ha htime
  set call := streamCall a.packet a.env.alloc with hcall
  set mgr := (engine.connections i).streamMgr
  have hid : call.streamId = s := ha.stream
  have hacc : call.Accepted := ⟨ha.payload, show 0 < quicMaxPayload by decide⟩
  have hu := reachable_streamsUnique hopen.reachable i
  obtain ⟨hresult, hstate⟩ := (onData_cases hu call).2.2.2 hacc (hid ▸ h.slot) ha.alloc
  rw [hid] at hstate hresult
  have hc : call.consumed mgr = (mgr.stateOf s).receive a.segment quicMaxPayload := by
    rw [StreamCall.consumed, hid]
    rfl
  rw [hc] at hstate hresult
  have hspec := h.reassembling.spec quicMaxPayload hS ha.carries
  have hnow := reassembling_step quicMaxPayload h.reassembling hS ha.carries
  set c := (mgr.stateOf s).receive a.segment quicMaxPayload with hcdef
  have hbytes : chunkBytes cid s (handedOver (a.receive engine).1) = c.out := by
    rw [hout, hresult, chunkBytes_chunks ha _ rfl]
    rfl
  rw [hbytes]
  refine ⟨?_, ?_, ?_⟩
  · rw [hmgr]
    apply HasSlot.of_inUse
    rw [hstate]
  · rw [hmgr, hstate]
    obtain ⟨h1, h2, h3, h4, h5, h6⟩ := hnow
    exact ⟨h1, h2, h3, h4, h5, h6⟩
  · have hlength : (emitted ++ c.out).length = c.nextOffset.toNat := hnow.emitted_length
    have hadd : (emitted ++ c.out).length = emitted.length + c.out.length := List.length_append
    refine h.drains.snoc ?_ ?_ fun hlt => ?_
    · have := hspec.fits
      omega
    · rw [hlength]
      exact hnow.received
    · rw [hlength]
      exact h.reassembling.gap quicMaxPayload hS ha.carries (show c.out.length < quicMaxPayload by omega)

theorem delivering_run (hS : S.length < 2 ^ 32) (arrivals : List Arrival) {spans : List Span}
    {emitted : Bytes} (hopen : Open handler cid i last engine)
    (h : Delivering S s i spans emitted engine) (hfeeds : ∀ a ∈ arrivals, a.Feeds S cid s)
    (htime : InTime last arrivals) :
    Delivering S s i (spans ++ arrivals.map fun a => a.segment.span)
      (emitted ++ deliveredOn cid s engine arrivals) (receiveAll engine arrivals) := by
  induction arrivals generalizing spans emitted engine last with
  | nil => simpa [deliveredOn, receiveAll] using h
  | cons a as ih =>
      obtain ⟨hnow, hlater⟩ := htime
      have ha := hfeeds a List.mem_cons_self
      have hstep := delivering_step hS hopen h ha hnow
      have hrest := ih (open_step hopen ha hnow).1 hstep
        (fun b hb => hfeeds b (List.mem_cons_of_mem _ hb)) hlater
      rw [List.append_assoc, List.append_assoc] at hrest
      exact hrest

end Step

/-- A stream of an open connection that has received nothing and has or can have a slot. -/
structure Listening (handler : Bool) (cid : UInt64) (s : UInt32) (i : Fin quicMaxConnections)
    (last : Int) (engine : QuicEngine) : Prop extends Open handler cid i last engine where
  slot : (engine.connections i).streamMgr.HasSlot s
  fresh : ((engine.connections i).streamMgr.stateOf s).Fresh

theorem delivered_drains {handler : Bool} {cid : UInt64} {s : UInt32} {i : Fin quicMaxConnections}
    {last : Int} {engine : QuicEngine} (h : Listening handler cid s i last engine) {S : Bytes}
    (hS : S.length < 2 ^ 32) {arrivals : List Arrival} (hfeeds : ∀ a ∈ arrivals, a.Feeds S cid s)
    (htime : InTime last arrivals) :
    let delivered := deliveredOn cid s engine arrivals
    delivered = S.take delivered.length ∧
      Drains quicMaxPayload (arrivals.map fun a => a.segment.span) delivered.length := by
  have hstart : Delivering S s i [] [] engine := ⟨h.slot, reassembling_fresh S h.fresh, .nil⟩
  have hrun := delivering_run hS arrivals h.toOpen hstart hfeeds htime
  rw [List.nil_append, List.nil_append] at hrun
  refine ⟨?_, hrun.drains⟩
  rw [hrun.reassembling.emitted_length]
  exact hrun.reassembling.emitted

theorem take_length_eq_iff {S delivered : Bytes} (h : delivered = S.take delivered.length) :
    delivered = S ↔ S.length ≤ delivered.length := by
  constructor
  · intro heq
    rw [heq]
  · intro hle
    rw [h, List.take_of_length_le hle]

/-- **What a run of DATA packets delivers.** On one open connection and fresh stream, after packets
with bytes of `S` in any order, exactly `S` has been delivered if and only if for every `j` the first
`j` packets cover all of `S` but the last `quicMaxPayload` bytes for each later packet. -/
theorem delivery_complete_iff {handler : Bool} {cid : UInt64} {s : UInt32} {i : Fin quicMaxConnections}
    {last : Int} {engine : QuicEngine} (h : Listening handler cid s i last engine) (S : Bytes)
    (hS : S.length < 2 ^ 32) (arrivals : List Arrival) (hfeeds : ∀ a ∈ arrivals, a.Feeds S cid s)
    (htime : InTime last arrivals) :
    deliveredOn cid s engine arrivals = S ↔
      ∀ j ≤ arrivals.length, CoversUpTo ((arrivals.take j).map fun a => a.segment.span)
        (S.length - (arrivals.length - j) * quicMaxPayload) := by
  obtain ⟨hpre, hdrains⟩ := delivered_drains h hS hfeeds htime
  rw [take_length_eq_iff hpre, hdrains.le_iff]
  simp only [List.length_map, List.map_take]

/-! ### A hole that releases two payloads -/

/-- A DATA packet of connection 7 on stream 0. -/
def samplePacket (packetNumber offset : UInt32) (payload : Payload) : QuicPacket :=
  ⟨quicFlagData, 7, packetNumber, 0, offset, payload⟩

def sampleArrival (packetNumber offset : UInt32) (payload : Payload)
    (h : payload.bytes.length ≤ quicMaxPayload) : Arrival where
  datagram := quicHeader (samplePacket packetNumber offset payload) ++ payload.bytes
  packet := samplePacket packetNumber offset payload
  parses := by
    rw [List.take_of_length_le]
    · exact deserialize_serialized h
    · rw [List.length_append, quicHeader_length]
      exact Nat.add_le_add_left h quicHeaderSize
  addr := sampleAddr
  env := sampleEnv

theorem sampleArrival_feeds {S : Bytes} {packetNumber offset : UInt32} {payload : Payload}
    {h : payload.bytes.length ≤ quicMaxPayload} (hne : payload.bytes ≠ [])
    (hcarries : Carries S ⟨offset, payload⟩) :
    (sampleArrival packetNumber offset payload h).Feeds S 7 0 :=
  ⟨rfl, rfl, show (quicFlagData &&& quicFlagData != 0) = true by decide,
    show (quicFlagData &&& quicFlagClose != 0) = false by decide, hne, hcarries, rfl, rfl⟩

theorem sample_listening : Listening false 7 0 0 0 sampleConnection where
  reachable := reachable_runEngine false _
  streamHandler := by decide +kernel
  used := by decide +kernel
  id := by decide +kernel
  connected := by decide +kernel
  seen := by decide +kernel
  slot := by decide +kernel
  fresh := ⟨by decide +kernel, by decide +kernel⟩

/-- One full payload of zeros. -/
def zeroPayload : Payload := ⟨List.replicate quicMaxPayload 0, by rw [List.length_replicate]; decide⟩

theorem zeroPayload_length : zeroPayload.bytes.length = quicMaxPayload := List.length_replicate

def zeroArrival (packetNumber offset : UInt32) : Arrival :=
  sampleArrival packetNumber offset zeroPayload zeroPayload_length.le

theorem zeroArrival_feeds {packetNumber offset : UInt32} (h : offset.toNat ≤ quicMaxPayload) :
    (zeroArrival packetNumber offset).Feeds (List.replicate (2 * quicMaxPayload) 0) 7 0 := by
  refine sampleArrival_feeds ?_ ⟨?_, ?_⟩
  · simp [zeroPayload]
  · simp only [zeroPayload_length, List.length_replicate]
    omega
  · simp only [zeroPayload_length, List.drop_replicate, List.take_replicate]
    rw [Nat.min_eq_left (by omega)]
    rfl

/-- The second half of two payloads arrives before the first: half of the stream stays behind. -/
theorem delivery_stranded :
    let S : Bytes := List.replicate (2 * quicMaxPayload) 0
    let arrivals := [zeroArrival 1 16384, zeroArrival 2 0]
    Listening false 7 0 0 0 sampleConnection ∧ (∀ a ∈ arrivals, a.Feeds S 7 0) ∧ InTime 0 arrivals ∧
      CoversUpTo (arrivals.map fun a => a.segment.span) S.length ∧
      deliveredOn 7 0 sampleConnection arrivals ≠ S := by
  intro S arrivals
  have hspans : (arrivals.map fun a => a.segment.span) = [⟨16384, 32768⟩, ⟨0, 16384⟩] := by
    simp only [arrivals, List.map_cons, List.map_nil, zeroArrival, sampleArrival, Arrival.segment,
      samplePacket, QuicStreamSegment.span, zeroPayload_length]
    rfl
  have hlength : S.length = 32768 := List.length_replicate
  have hfeeds : ∀ a ∈ arrivals, a.Feeds S 7 0 := by
    intro a ha
    simp only [arrivals, List.mem_cons, List.not_mem_nil, or_false] at ha
    rcases ha with rfl | rfl
    · exact zeroArrival_feeds (by decide)
    · exact zeroArrival_feeds (by decide)
  have htime : InTime 0 arrivals := ⟨by decide, by decide, trivial⟩
  refine ⟨sample_listening, hfeeds, htime, ?_, fun hall => ?_⟩
  · rw [hspans, hlength]
    intro p hp
    rcases Nat.lt_or_ge p 16384 with hlow | hhigh
    · exact ⟨⟨0, 16384⟩, by simp, by simp, hlow⟩
    · exact ⟨⟨16384, 32768⟩, by simp, hhigh, hp⟩
  · obtain ⟨hpre, hdrains⟩ := delivered_drains sample_listening (by rw [hlength]; decide) hfeeds htime
    rw [take_length_eq_iff hpre, hdrains.le_iff, hspans, hlength] at hall
    -- after the first packet nothing can be passed on, and the second passes one payload on
    obtain ⟨f, hf, hstart, _⟩ := hall 1 (by decide) 0 (by decide)
    simp only [List.take_succ_cons, List.take_zero, List.mem_singleton] at hf
    subst hf
    simp at hstart

/-- Two small packets in reverse order are delivered whole. -/
theorem delivery_complete_two :
    deliveredOn 7 0 sampleConnection
      [sampleArrival 1 1 ⟨[0x42], by decide⟩ (by decide), sampleArrival 2 0 ⟨[0x41], by decide⟩ (by decide)]
      = [0x41, 0x42] := by
  refine (delivery_complete_iff sample_listening [0x41, 0x42] (by decide) _ ?_ ?_).mpr (by decide)
  · intro a ha
    simp only [List.mem_cons, List.not_mem_nil, or_false] at ha
    rcases ha with rfl | rfl
    · exact sampleArrival_feeds (by decide) (by decide)
    · exact sampleArrival_feeds (by decide) (by decide)
  · exact ⟨by decide, by decide, trivial⟩

end OttQuic
