import OttQuic.Quic.Delivery
import OttQuic.WebSocket.VideoChunk

/-!
# A video over the wire

`send_video_chunk` cuts a file into packets, `quic_engine_loop` puts packets of a stream together again. Here one
end meets the other: a receiving engine gets datagrams that any `stream_chunk` requests for one file have sent, in
any order, some of them more than once and some of them never.

`video_delivered` says how much of the file the stream handler of the receiver has then seen: never a byte that is
not the file's next, and how far it got is decided by the order of arrival. `video_in_order` says what suffices for
the whole file: that the packets of requests which follow one another come in the order in which they were sent,
with whatever else between them.
-/

namespace OttQuic.WebSocket

open Coverage QuicEngine

/-! ### What one request sends -/

section

variable {env : ChunkEnv} {connectionId : UInt64} {streamId offset length pn : UInt32} {pos : Nat}
  {chunk : StreamChunk} {sent : List QuicPacket}

theorem Reading.loop_tiles (h : Reading env connectionId streamId offset length pn pos chunk sent) :
    ∃ n, Tiles connectionId streamId pn offset.toNat ((env.content.drop offset.toNat).take n)
      (sendVideoChunkLoop env pos chunk sent).sent := by
  induction hn : chunk.remaining.toNat using Nat.strong_induction_on generalizing pos chunk sent with
  | _ n ih =>
      subst hn
      rw [sendVideoChunkLoop]
      dsimp only
      split_ifs with hcontinues hzero hfails hlast
      · exact ⟨_, h.tiles⟩
      · exact ⟨_, h.tiles⟩
      · exact ⟨_, (h.advance hcontinues).tiles⟩
      · exact ih _ (StreamChunk.advance_remaining_lt hzero) (h.advance hcontinues) rfl
      · exact ⟨_, h.tiles⟩

end

/-- **Whatever its calls return**, a request sends tiles of the file from its offset on. -/
theorem sendVideoChunk_tiles (env : ChunkEnv) (connectionId : UInt64) (streamId offset length pn : UInt32)
    (hsize : env.content.length ≤ 2 * 1024 * 1024 * 1024) :
    ∃ n, Tiles connectionId streamId pn offset.toNat ((env.content.drop offset.toNat).take n)
      (sendVideoChunk env connectionId streamId offset length pn).sent := by
  have hnothing : ∃ n, Tiles connectionId streamId pn offset.toNat ((env.content.drop offset.toNat).take n) [] :=
    ⟨0, Tiles.nil⟩
  have hfileSize : (UInt32.ofNat env.content.length).toNat = env.content.length := by
    rw [UInt32.toNat_ofNat']
    omega
  unfold sendVideoChunk
  dsimp only
  split_ifs with hengine hstat hbehind hopen hseek
  · exact hnothing
  · exact hnothing
  · exact hnothing
  · exact hnothing
  · exact hnothing
  · rw [ge_iff_le, UInt32.le_iff_toNat_le, hfileSize] at hbehind
    have hstart : Reading env connectionId streamId offset length pn offset.toNat
        ⟨connectionId, streamId, offset, UInt32.ofNat env.content.length, length, 0, pn⟩ [] := by
      refine ⟨⟨rfl, rfl, rfl⟩, hfileSize, by omega, rfl, by omega, ?_, ?_, ?_⟩
      · show 0 + length.toNat = length.toNat
        omega
      · simp
      · exact Tiles.nil
    exact hstart.loop_tiles

theorem payloads_split {packets : List QuicPacket} {i : Nat} {packet : QuicPacket}
    (h : packets[i]? = some packet) :
    payloads packets =
      payloads (packets.take i) ++ (packet.payload.bytes ++ payloads (packets.drop (i + 1))) := by
  have hsplit : packets = packets.take i ++ packet :: packets.drop (i + 1) := by
    obtain ⟨hi, rfl⟩ := List.getElem?_eq_some_iff.mp h
    rw [List.getElem_cons_drop, List.take_append_drop]
  conv_lhs => rw [hsplit]
  simp [payloads]

theorem Tiles.carries {connectionId : UInt64} {streamId pn : UInt32} {offset n : Nat} {content : Bytes}
    {packets : List QuicPacket} (h : Tiles connectionId streamId pn offset ((content.drop offset).take n) packets)
    {packet : QuicPacket} (hpacket : packet ∈ packets) : Carries content ⟨packet.offset, packet.payload⟩ := by
  obtain ⟨i, hi⟩ := List.mem_iff_getElem?.mp hpacket
  have habut := h.abut i packet hi
  have hsize := h.sizes packet hpacket
  have hbytes := h.bytes
  rw [payloads_split hi] at hbytes
  set before := payloads (packets.take i)
  set behind := payloads (packets.drop (i + 1))
  have hrest : content.drop offset = before ++ (packet.payload.bytes ++ (behind ++ (content.drop offset).drop n)) := by
    conv_lhs => rw [← List.take_append_drop n (content.drop offset), ← hbytes]
    simp
  have hlength := congrArg List.length hrest
  simp only [List.length_append, List.length_drop] at hlength
  refine ⟨?_, ?_⟩
  · show packet.offset.toNat + packet.payload.bytes.length ≤ content.length
    omega
  · show packet.payload.bytes = (content.drop packet.offset.toNat).take packet.payload.bytes.length
    rw [habut, ← List.drop_drop, hrest, List.drop_left, List.take_left]

/-! ### The packets of many requests -/

/-- A `stream_chunk` for a file: what the server meets, the range, and the next packet number of the client. -/
structure VideoRequest (content : Bytes) where
  env : ChunkEnv
  same : env.content = content
  offset : UInt32
  length : UInt32
  nextPn : UInt32

section

variable {content : Bytes} {cid : UInt64} {s : UInt32}

/-- The packets that the request sends on a stream of a connection. -/
def VideoRequest.sent (cid : UInt64) (s : UInt32) (request : VideoRequest content) : List QuicPacket :=
  (sendVideoChunk request.env cid s request.offset request.length request.nextPn).sent

/-- The packets of the requests, in the order in which they are sent. -/
def sentBy (cid : UInt64) (s : UInt32) (requests : List (VideoRequest content)) : List QuicPacket :=
  requests.flatMap fun request => request.sent cid s

/-- The datagram is that of a packet of the requests, and there is memory to hold it. -/
structure Carried (cid : UInt64) (s : UInt32) (requests : List (VideoRequest content)) (a : Arrival) : Prop where
  datagram : ∃ packet ∈ sentBy cid s requests, quicPacketSerialize packet quicMaxPacketSize = some a.datagram
  alloc : a.env.alloc.node = true ∧ a.env.alloc.data = true

theorem VideoRequest.sent_spec {request : VideoRequest content} (hsize : content.length ≤ 2 * 1024 * 1024 * 1024)
    {packet : QuicPacket} (hpacket : packet ∈ request.sent cid s) :
    (packet.flags = quicFlagData ∧ packet.connectionId = cid ∧ packet.streamId = s) ∧
      (1 ≤ packet.payload.bytes.length ∧ packet.payload.bytes.length ≤ quicMaxPayload) ∧
        Carries content ⟨packet.offset, packet.payload⟩ := by
  obtain ⟨env, rfl, offset, length, nextPn⟩ := request
  obtain ⟨n, htiles⟩ := sendVideoChunk_tiles env cid s offset length nextPn hsize
  exact ⟨htiles.data packet hpacket, htiles.sizes packet hpacket, htiles.carries hpacket⟩

/-- **What the sender sends is what the receiver reads**, and feeds its stream. -/
theorem Carried.feeds {requests : List (VideoRequest content)} {a : Arrival} (h : Carried cid s requests a)
    (hsize : content.length ≤ 2 * 1024 * 1024 * 1024) : a.packet ∈ sentBy cid s requests ∧ a.Feeds content cid s := by
  obtain ⟨packet, hpacket, hserialize⟩ := h.datagram
  obtain ⟨hmax, hfits, hbytes⟩ := quicPacketSerialize_eq_some.mp hserialize
  have hread : a.packet = packet := by
    have hparses := a.parses
    rw [hbytes, List.take_of_length_le, deserialize_serialized hmax] at hparses
    · exact (Option.some.inj hparses).symm
    · rw [List.length_append, quicHeader_length]
      exact hfits
  subst hread
  obtain ⟨request, -, hsent⟩ := List.mem_flatMap.mp hpacket
  obtain ⟨⟨hflags, hconnection, hstream⟩, ⟨hnonempty, -⟩, hcarries⟩ := VideoRequest.sent_spec hsize hsent
  refine ⟨hpacket, hconnection, hstream, ?_, ?_, ?_, hcarries, h.alloc⟩
  · rw [QuicPacket.has, hflags]
    decide
  · rw [QuicPacket.has, hflags]
    decide
  · intro hnil
    rw [hnil, List.length_nil] at hnonempty
    omega

end

section Delivery

variable {handler : Bool} {cid : UInt64} {s : UInt32} {i : Fin quicMaxConnections} {last : Int} {engine : QuicEngine}
  {content : Bytes} {requests : List (VideoRequest content)} {arrivals : List Arrival}

/-- **What a receiver sees of a video.** Whatever the requests for it ask for, whichever of their calls fail, and in
whatever order their packets arrive, twice or never: what the stream handler has been given is a prefix of the file,
and its length is decided by the order of arrival. -/
theorem video_delivered (h : Listening handler cid s i last engine)
    (hsize : content.length ≤ 2 * 1024 * 1024 * 1024) (hcarried : ∀ a ∈ arrivals, Carried cid s requests a)
    (htime : InTime last arrivals) :
    let delivered := deliveredOn cid s engine arrivals
    delivered <+: content ∧
      ∀ n, n ≤ delivered.length ↔
        ∀ j ≤ arrivals.length, CoversUpTo ((arrivals.take j).map fun a => a.segment.span)
          (n - (arrivals.length - j) * quicMaxPayload) := by
  intro delivered
  obtain ⟨hpart, hdrains⟩ := delivered_drains h (S := content) (by omega)
    (fun a ha => ((hcarried a ha).feeds hsize).2) htime
  refine ⟨?_, fun n => ?_⟩
  · rw [show delivered = content.take delivered.length from hpart]
    exact List.take_prefix _ _
  · rw [hdrains.le_iff]
    simp only [List.length_map, List.map_take]

/-- A file of six bytes. -/
def sixBytes : ChunkEnv := ⟨true, true, true, true, [1, 2, 3, 4, 5, 6], fun _ => true⟩

/-- A request for two of its bytes. -/
def pairRequest (k : Fin 3) : VideoRequest sixBytes.content :=
  ⟨sixBytes, rfl, UInt32.ofNat (2 * k.val), 2, UInt32.ofNat (9 + k.val)⟩

def pairPayload (k : Fin 3) : Payload :=
  ⟨[UInt8.ofNat (2 * k.val + 1), UInt8.ofNat (2 * k.val + 2)], show 2 < 2 ^ 32 by decide⟩

theorem pairRequest_sent (k : Fin 3) : (pairRequest k).sent 7 0 =
    [samplePacket (UInt32.ofNat (9 + k.val)) (UInt32.ofNat (2 * k.val)) (pairPayload k)] := by
  have hstart : (pairRequest k).sent 7 0 = (sendVideoChunkLoop sixBytes (2 * k.val)
      ⟨7, 0, UInt32.ofNat (2 * k.val), 6, 2, 0, UInt32.ofNat (9 + k.val)⟩ []).sent := by
    match k with
    | 0 | 1 | 2 => rfl
  rw [hstart]
  clear hstart
  rw [sendVideoChunkLoop, if_pos (by decide +revert)]
  dsimp only
  rw [dif_neg (by decide +revert), if_neg (by decide)]
  match k with
  | 0 | 1 =>
      -- the range ends before the file
      rw [if_neg (by decide), sendVideoChunkLoop, if_neg (by decide)]
      rfl
  | 2 =>
      rw [if_pos (by decide)]
      rfl

/-- The arrival of its packet. -/
def pairArrival (k : Fin 3) : Arrival :=
  sampleArrival (UInt32.ofNat (9 + k.val)) (UInt32.ofNat (2 * k.val)) (pairPayload k)
    (show 2 ≤ quicMaxPayload by decide)

def pairRequests : List (VideoRequest sixBytes.content) := [pairRequest 0, pairRequest 1, pairRequest 2]

theorem pairRequest_mem : ∀ k, pairRequest k ∈ pairRequests
  | 0 => .head _
  | 1 => .tail _ (.head _)
  | 2 => .tail _ (.tail _ (.head _))

theorem pairArrival_carried (ks : List (Fin 3)) : ∀ a ∈ ks.map pairArrival, Carried 7 0 pairRequests a := by
  intro a ha
  obtain ⟨k, -, rfl⟩ := List.mem_map.mp ha
  have hfits : (pairPayload k).bytes.length ≤ quicMaxPayload := show 2 ≤ quicMaxPayload by decide
  refine ⟨⟨(pairArrival k).packet, ?_, quicPacketSerialize_some hfits⟩, rfl, rfl⟩
  refine List.mem_flatMap.mpr ⟨pairRequest k, pairRequest_mem k, ?_⟩
  rw [pairRequest_sent]
  exact List.mem_cons_self

/-- The last packet first, and the first one twice; without the middle one, only the first one counts. -/
theorem video_delivered_sample :
    deliveredOn 7 0 sampleConnection ([2, 0, 0, 1].map pairArrival) = [1, 2, 3, 4, 5, 6] ∧
      deliveredOn 7 0 sampleConnection ([2, 0, 0].map pairArrival) = [1, 2] := by
  have hall := video_delivered sample_listening (by decide) (pairArrival_carried [2, 0, 0, 1])
    ⟨by decide, by decide, by decide, by decide, trivial⟩
  have hlost := video_delivered sample_listening (by decide) (pairArrival_carried [2, 0, 0])
    ⟨by decide, by decide, by decide, trivial⟩
  constructor
  · have hlength := (hall.2 6).mpr (by decide +kernel)
    exact hall.1.eq_of_length_le hlength
  · have htwo := (hlost.2 2).mpr (by decide +kernel)
    have hthree := (hlost.2 3).not.mpr (by decide +kernel)
    have hlength : (deliveredOn 7 0 sampleConnection ([2, 0, 0].map pairArrival)).length = 2 := by omega
    have htake := List.prefix_iff_eq_take.mp hlost.1
    rwa [hlength] at htake

/-- The requests follow one another from `pos` to the end of the file, and all their calls succeed. -/
def Follow (content : Bytes) : Nat → List (VideoRequest content) → Prop
  | pos, [] => content.length ≤ pos
  | pos, request :: requests =>
    request.offset.toNat = pos ∧ pos < content.length ∧ request.env.Succeeds ∧
      Follow content (pos + request.length.toNat) requests

end Delivery

/-! ### Requests that follow one another -/

/-- Every packet begins where the one before it ends, the first one at `pos`. -/
def Abut : Nat → List QuicPacket → Prop
  | _, [] => True
  | pos, packet :: packets => packet.offset.toNat = pos ∧ Abut (pos + packet.payload.bytes.length) packets

/-- The positions of a packet. -/
def packetSpan (packet : QuicPacket) : Span := QuicStreamSegment.span ⟨packet.offset, packet.payload⟩

theorem payloads_cons (packet : QuicPacket) (packets : List QuicPacket) :
    payloads (packet :: packets) = packet.payload.bytes ++ payloads packets := by
  simp [payloads]

theorem payloads_append (packets packets' : List QuicPacket) :
    payloads (packets ++ packets') = payloads packets ++ payloads packets' := by
  simp [payloads]

theorem payloads_length_le {packets : List QuicPacket}
    (h : ∀ packet ∈ packets, packet.payload.bytes.length ≤ quicMaxPayload) :
    (payloads packets).length ≤ packets.length * quicMaxPayload := by
  induction packets with
  | nil => simp [payloads]
  | cons packet packets ih =>
      rw [payloads_cons, List.length_append, List.length_cons, Nat.add_mul]
      have hfirst := h packet List.mem_cons_self
      have hrest := ih fun p hp => h p (List.mem_cons_of_mem _ hp)
      omega

theorem Abut.append {pos : Nat} {packets packets' : List QuicPacket} (h : Abut pos packets)
    (h' : Abut (pos + (payloads packets).length) packets') : Abut pos (packets ++ packets') := by
  induction packets generalizing pos with
  | nil => simpa [payloads] using h'
  | cons packet packets ih =>
      refine ⟨h.1, ih h.2 ?_⟩
      rwa [payloads_cons, List.length_append, ← Nat.add_assoc] at h'

theorem Abut.covers {pos : Nat} {packets : List QuicPacket} (h : Abut pos packets) (k : Nat) {p : Nat} (hp : pos ≤ p)
    (hlt : p < pos + (payloads (packets.take k)).length) : Covered ((packets.take k).map packetSpan) p := by
  induction packets generalizing pos k with
  | nil =>
      rw [List.take_nil] at hlt
      simp only [payloads, List.map_nil, List.flatten_nil, List.length_nil] at hlt
      omega
  | cons packet packets ih =>
      obtain ⟨hoffset, hrest⟩ := h
      cases k with
      | zero =>
          simp only [List.take_zero, payloads, List.map_nil, List.flatten_nil, List.length_nil] at hlt
          omega
      | succ k =>
          rw [List.take_succ_cons, payloads_cons, List.length_append] at hlt
          rw [List.take_succ_cons, List.map_cons]
          by_cases hfirst : p < pos + packet.payload.bytes.length
          · refine ⟨packetSpan packet, List.mem_cons_self, ?_, ?_⟩
            · show packet.offset.toNat ≤ p
              omega
            · show p < packet.offset.toNat + packet.payload.bytes.length
              omega
          · exact (ih hrest k (by omega) (by omega)).mono (List.subset_cons_self _ _)

theorem Tiles.abuts {connectionId : UInt64} {streamId pn : UInt32} {offset : Nat} {bytes : Bytes}
    {packets : List QuicPacket} (h : Tiles connectionId streamId pn offset bytes packets) : Abut offset packets := by
  have habut := h.abut
  clear h
  induction packets generalizing offset with
  | nil => trivial
  | cons packet packets ih =>
      refine ⟨habut 0 packet rfl, ih fun i p hp => ?_⟩
      have hlater := habut (i + 1) p hp
      rw [List.take_succ_cons, payloads_cons, List.length_append] at hlater
      omega

section InOrder

variable {content : Bytes} {cid : UInt64} {s : UInt32}

theorem sentBy_cons (request : VideoRequest content) (requests : List (VideoRequest content)) :
    sentBy cid s (request :: requests) = request.sent cid s ++ sentBy cid s requests := List.flatMap_cons

theorem wanted_length (content : Bytes) (offset length : UInt32) : (wanted content offset length).length =
    min (offset.toNat + length.toNat) content.length - offset.toNat := by
  rw [wanted, List.length_take, List.length_drop]
  omega

theorem wanted_append (content : Bytes) (offset length : UInt32) :
    wanted content offset length ++ content.drop (offset.toNat + length.toNat) = content.drop offset.toNat := by
  rw [wanted]
  rcases Nat.le_total (offset.toNat + length.toNat) content.length with hle | hge
  · have hall : min (offset.toNat + length.toNat) content.length - offset.toNat = length.toNat := by omega
    rw [hall, ← List.drop_drop, List.take_append_drop]
  · rw [List.drop_eq_nil_of_le hge, List.append_nil, List.take_of_length_le]
    rw [List.length_drop]
    omega

/-- **Requests that follow one another send the rest of the file**, packet after packet. -/
theorem Follow.sent {pos : Nat} {requests : List (VideoRequest content)} (h : Follow content pos requests)
    (hsize : content.length ≤ 2 * 1024 * 1024 * 1024) :
    Abut pos (sentBy cid s requests) ∧ payloads (sentBy cid s requests) = content.drop pos := by
  induction requests generalizing pos with
  | nil =>
      have hend : content.length ≤ pos := h
      refine ⟨trivial, ?_⟩
      rw [List.drop_eq_nil_of_le hend]
      rfl
  | cons request requests ih =>
      obtain ⟨rfl, hbefore, hsucceeds, hrest⟩ := h
      obtain ⟨habut, hbytes⟩ := ih hrest
      obtain ⟨env, rfl, offset, length, nextPn⟩ := request
      have hbefore : offset.toNat < env.content.length := hbefore
      obtain ⟨-, -, htiles⟩ := (video_chunks_tile cid s offset length nextPn hsucceeds hsize).1 hbefore
      rw [sentBy_cons]
      refine ⟨htiles.abuts.append ?_, ?_⟩
      · show Abut (offset.toNat + (payloads (sendVideoChunk env cid s offset length nextPn).sent).length) _
        rw [htiles.bytes, wanted_length]
        cases requests with
        | nil => trivial
        | cons next requests =>
            have hnext : offset.toNat + length.toNat < env.content.length := hrest.2.1
            have hend : offset.toNat + (min (offset.toNat + length.toNat) env.content.length - offset.toNat) =
                offset.toNat + length.toNat := by omega
            rwa [hend]
      · rw [payloads_append, hbytes]
        show payloads (sendVideoChunk env cid s offset length nextPn).sent ++ _ = _
        rw [htiles.bytes]
        exact wanted_append env.content offset length

end InOrder

section Delivery

variable {handler : Bool} {cid : UInt64} {s : UInt32} {i : Fin quicMaxConnections} {last : Int} {engine : QuicEngine}
  {content : Bytes} {requests chain : List (VideoRequest content)} {arrivals : List Arrival}

/-- **A video in order.** If requests follow one another from the first byte to the last, and their packets arrive
in the order in which they were sent, then the stream handler has been given exactly the file, whatever other
packets of requests for it arrive in between: copies, packets out of order, packets of other ranges. -/
theorem video_in_order (h : Listening handler cid s i last engine)
    (hsize : content.length ≤ 2 * 1024 * 1024 * 1024) (hcarried : ∀ a ∈ arrivals, Carried cid s requests a)
    (htime : InTime last arrivals) (hfollow : Follow content 0 chain)
    (horder : (sentBy cid s chain).Sublist (arrivals.map Arrival.packet)) :
    deliveredOn cid s engine arrivals = content := by
  obtain ⟨hpart, hdrains⟩ := delivered_drains h (S := content) (by omega)
    (fun a ha => ((hcarried a ha).feeds hsize).2) htime
  have hsent : Abut 0 (sentBy cid s chain) ∧ payloads (sentBy cid s chain) = content.drop 0 := hfollow.sent hsize
  obtain ⟨habut, hbytes⟩ := hsent
  have hsub : ((sentBy cid s chain).map packetSpan).Sublist (arrivals.map fun a => a.segment.span) := by
    have hmap := horder.map packetSpan
    rwa [List.map_map] at hmap
  rw [take_length_eq_iff hpart]
  refine hdrains.le_of_sublist hsub fun k hk p hp => ?_
  rw [List.length_map] at hk hp
  rw [← List.map_take]
  refine habut.covers k (Nat.zero_le p) ?_
  -- what the first `k` packets do not carry fits the others
  have hrest : (payloads ((sentBy cid s chain).drop k)).length ≤
      ((sentBy cid s chain).drop k).length * quicMaxPayload := by
    refine payloads_length_le fun packet hpacket => ?_
    obtain ⟨request, -, hsent⟩ := List.mem_flatMap.mp (List.mem_of_mem_drop hpacket)
    exact (VideoRequest.sent_spec hsize hsent).2.1.2
  rw [List.length_drop] at hrest
  have hall : content.length = (payloads ((sentBy cid s chain).take k)).length +
      (payloads ((sentBy cid s chain).drop k)).length := by
    rw [← List.length_append, ← payloads_append, List.take_append_drop, hbytes, List.drop_zero]
  omega

/-- A packet that comes too early and again in its turn. -/
theorem video_in_order_sample :
    deliveredOn 7 0 sampleConnection ([0, 2, 1, 1, 2].map pairArrival) = [1, 2, 3, 4, 5, 6] := by
  have hsucceeds : sixBytes.Succeeds := ⟨rfl, rfl, rfl, rfl, fun _ => rfl⟩
  have hfollow : Follow sixBytes.content 0 pairRequests :=
    ⟨rfl, by decide, hsucceeds, rfl, by decide, hsucceeds, rfl, by decide, hsucceeds, show 6 ≤ 4 + 2 by decide⟩
  have horder : (sentBy 7 0 pairRequests).Sublist (([0, 2, 1, 1, 2].map pairArrival).map Arrival.packet) := by
    simp only [pairRequests, sentBy, List.flatMap_cons, List.flatMap_nil, pairRequest_sent, List.map_cons, List.map_nil]
    refine (List.Sublist.cons _ ?_).cons_cons _
    exact (List.nil_sublist _).cons_cons _ |>.cons _ |>.cons_cons _
  exact video_in_order sample_listening (by decide) (pairArrival_carried _)
    ⟨by decide, by decide, by decide, by decide, by decide, trivial⟩ hfollow horder

end Delivery

end OttQuic.WebSocket
