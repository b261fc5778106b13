import OttQuic.WebSocket.PacketNumbers

/-!
# The range of a `stream_chunk` (`send_video_chunk`)

`send_video_chunk` reads a file from an offset on and sends what it reads in packets. Its counters are 32 bits
wide. `video_chunks_tile` says that they do not wrap for a file of at most 2 GiB, whatever range is asked for: the
packets abut, and together they are the part of the range that lies in the file.
-/

namespace OttQuic.WebSocket

/-- What `send_video_chunk` meets: its context, the file, and the results of its calls. -/
structure ChunkEnv where
  /-- `ctx->quic_engine` is there. -/
  quicEngine : Bool
  stat : Bool
  fopen : Bool
  fseek : Bool
  /-- What the file holds, from `stat` to the last `fread`. -/
  content : Bytes
  /-- The `n`-th `quic_engine_send_to_connection` returns `0`. -/
  send : Nat → Bool

/-- The return value, what was sent, and `*next_packet_number`. -/
structure ChunkResult where
  rc : Int
  sent : List QuicPacket
  nextPn : UInt32

/-- `fread` of a regular file, at the position `pos` of the stream. -/
def StreamChunk.fread (chunk : StreamChunk) (content : Bytes) (pos : Nat) : Payload :=
  ⟨(content.drop pos).take chunk.toRead, by
    have hle := chunk.toRead_le
    have hlt := chunk.remaining.toNat_lt
    rw [List.length_take]
    omega⟩

theorem StreamChunk.advance_remaining_lt {chunk : StreamChunk} {content : Bytes} {pos : Nat}
    (h : ¬ (chunk.fread content pos).length = 0) :
    (chunk.advance (chunk.fread content pos).length).remaining.toNat < chunk.remaining.toNat := by
  have hle : (chunk.fread content pos).bytes.length ≤ chunk.remaining.toNat :=
    Nat.le_trans (List.length_take_le _ _) chunk.toRead_le
  have hpos : 0 < (chunk.fread content pos).length.toNat := by
    apply Nat.pos_of_ne_zero
    intro hzero
    exact h (UInt32.toNat_inj.mp hzero)
  rw [Payload.length_toNat] at hpos
  rw [advance, if_pos (UInt32.le_iff_toNat_le.mpr (by rwa [Payload.length_toNat])),
    UInt32.toNat_sub_of_le _ _ (UInt32.le_iff_toNat_le.mpr (by rwa [Payload.length_toNat])), Payload.length_toNat]
  omega

/-- The loop of `send_video_chunk`; `pos` is the position of the stream. -/
def sendVideoChunkLoop (env : ChunkEnv) (pos : Nat) (chunk : StreamChunk) (sent : List QuicPacket) : ChunkResult :=
  if chunk.continues then
    let bytes := chunk.fread env.content pos
    if _h : bytes.length = 0 then ⟨0, sent, chunk.nextPn⟩
    else
      let chunk' := chunk.advance bytes.length
      if env.send sent.length = false then ⟨-1, sent, chunk'.nextPn⟩
      else
        let sent := sent ++ [chunk.packet bytes]
        if chunk'.sentBytes + chunk'.offset ≥ chunk'.fileSize then ⟨0, sent, chunk'.nextPn⟩
        else sendVideoChunkLoop env (pos + bytes.bytes.length) chunk' sent
  else ⟨0, sent, chunk.nextPn⟩
termination_by chunk.remaining.toNat
decreasing_by exact StreamChunk.advance_remaining_lt _h

/-- `send_video_chunk`. -/
def sendVideoChunk (env : ChunkEnv) (connectionId : UInt64) (streamId offset length nextPn : UInt32) : ChunkResult :=
  let fileSize := UInt32.ofNat env.content.length
  if env.quicEngine = false then ⟨-1, [], nextPn⟩
  else if env.stat = false then ⟨-1, [], nextPn⟩
  else if offset ≥ fileSize then ⟨-1, [], nextPn⟩
  else if env.fopen = false then ⟨-1, [], nextPn⟩
  else if env.fseek = false then ⟨-1, [], nextPn⟩
  else sendVideoChunkLoop env offset.toNat ⟨connectionId, streamId, offset, fileSize, length, 0, nextPn⟩ []

/-! ### The steps of a client -/

/-- The steps of a client that nothing interrupts: where it is then, and what it has sent. -/
def Client.run (counter : UInt32) : Client → List ClientStep → Option (Client × List QuicPacket)
  | client, [] => some (client, [])
  | client, e :: es =>
    match client.step counter e with
    | none => none
    | some (client, _, packets) =>
      (Client.run counter client es).map fun (client, packets') => (client, packets ++ packets')

/-- **The loop takes steps of a client** at its loop, and ends where these end. -/
theorem sendVideoChunkLoop_steps (env : ChunkEnv) (counter : UInt32) (pos : Nat) (chunk : StreamChunk)
    (sent : List QuicPacket) :
    let result := sendVideoChunkLoop env pos chunk sent
    ∃ es client packets, (Client.chunkLoop chunk).run counter es = some (client, packets) ∧
      result.sent = sent ++ packets ∧
      (result.rc = 0 ∧ (∃ last, client = .chunkDone last ∧ last.nextPn = result.nextPn) ∨
        result.rc = -1 ∧ client = .idle) := by
  induction hn : chunk.remaining.toNat using Nat.strong_induction_on generalizing pos chunk sent with
  | _ n ih =>
      subst hn
      unfold sendVideoChunkLoop
      by_cases hcontinues : chunk.continues
      · have hread : (chunk.fread env.content pos).bytes.length ≤ chunk.toRead := List.length_take_le _ _
        simp only [if_pos hcontinues]
        by_cases hzero : (chunk.fread env.content pos).length = 0
        · rw [dif_pos hzero]
          refine ⟨[.chunkPacket (chunk.fread env.content pos) true], .chunkDone chunk, [], ?_, by simp,
            .inl ⟨rfl, chunk, rfl, rfl⟩⟩
          simp [Client.run, Client.step, hcontinues, hread, hzero]
        · rw [dif_neg hzero]
          by_cases hfails : env.send sent.length = false
          · rw [if_pos hfails]
            refine ⟨[.chunkPacket (chunk.fread env.content pos) false], .idle, [], ?_, by simp, .inr ⟨rfl, rfl⟩⟩
            simp [Client.run, Client.step, hcontinues, hread, hzero]
          · rw [if_neg hfails]
            by_cases hlast : (chunk.advance (chunk.fread env.content pos).length).sentBytes +
                (chunk.advance (chunk.fread env.content pos).length).offset ≥
                  (chunk.advance (chunk.fread env.content pos).length).fileSize
            · rw [if_pos hlast]
              refine ⟨[.chunkPacket (chunk.fread env.content pos) true],
                .chunkDone (chunk.advance (chunk.fread env.content pos).length),
                  [chunk.packet (chunk.fread env.content pos)], ?_, rfl, .inl ⟨rfl, _, rfl, rfl⟩⟩
              simp [Client.run, Client.step, hcontinues, hread, hzero, hlast]
            · rw [if_neg hlast]
              obtain ⟨es, client, packets, hrun, hsent, hend⟩ := ih _ (StreamChunk.advance_remaining_lt hzero)
                (pos + (chunk.fread env.content pos).bytes.length)
                (chunk.advance (chunk.fread env.content pos).length)
                (sent ++ [chunk.packet (chunk.fread env.content pos)]) rfl
              refine ⟨.chunkPacket (chunk.fread env.content pos) true :: es, client,
                chunk.packet (chunk.fread env.content pos) :: packets, ?_, by rw [hsent]; simp, hend⟩
              simp [Client.run, Client.step, hcontinues, hread, hzero, hlast, hrun]
      · simp only [if_neg hcontinues]
        refine ⟨[.chunkEnd], .chunkDone chunk, [], ?_, by simp, .inl ⟨trivial, chunk, rfl, rfl⟩⟩
        simp [Client.run, Client.step, hcontinues]

/-! ### Tiles -/

/-- The bytes of the packets, one after the other. -/
def payloads (packets : List QuicPacket) : Bytes := (packets.map fun packet => packet.payload.bytes).flatten

/-- The DATA packets of one stream, numbered from `pn` on: each begins in the file where those before it end,
and together they carry `bytes`, which begin at `offset`. -/
structure Tiles (connectionId : UInt64) (streamId pn : UInt32) (offset : Nat) (bytes : Bytes)
    (packets : List QuicPacket) : Prop where
  data : ∀ packet ∈ packets, packet.flags = quicFlagData ∧ packet.connectionId = connectionId ∧
    packet.streamId = streamId
  sizes : ∀ packet ∈ packets, 1 ≤ packet.payload.bytes.length ∧ packet.payload.bytes.length ≤ quicMaxPayload
  numbers : ∀ i packet, packets[i]? = some packet → packet.packetNumber = pn + UInt32.ofNat i
  abut : ∀ i packet, packets[i]? = some packet →
    packet.offset.toNat = offset + (payloads (packets.take i)).length
  bytes : payloads packets = bytes

section

variable {connectionId : UInt64} {streamId pn : UInt32} {offset : Nat} {bytes : Bytes} {packets : List QuicPacket}

theorem Tiles.nil : Tiles connectionId streamId pn offset [] [] where
  data packet hpacket := absurd hpacket List.not_mem_nil
  sizes packet hpacket := absurd hpacket List.not_mem_nil
  numbers i packet hpacket := by simp at hpacket
  abut i packet hpacket := by simp at hpacket
  bytes := rfl

theorem payloads_snoc (packets : List QuicPacket) (packet : QuicPacket) :
    payloads (packets ++ [packet]) = payloads packets ++ packet.payload.bytes := by
  simp [payloads]

theorem getElem?_snoc {α : Type*} {xs : List α} {x y : α} {i : Nat} (h : (xs ++ [x])[i]? = some y) :
    xs[i]? = some y ∧ i < xs.length ∨ i = xs.length ∧ y = x := by
  by_cases hi : i < xs.length
  · rw [List.getElem?_append_left hi] at h
    exact .inl ⟨h, hi⟩
  · rw [List.getElem?_append_right (by omega), List.getElem?_singleton] at h
    split_ifs at h with hzero
    exact .inr ⟨by omega, (Option.some.inj h).symm⟩

theorem Tiles.snoc (h : Tiles connectionId streamId pn offset bytes packets) {packet : QuicPacket}
    (hdata : packet.flags = quicFlagData ∧ packet.connectionId = connectionId ∧ packet.streamId = streamId)
    (hsize : 1 ≤ packet.payload.bytes.length ∧ packet.payload.bytes.length ≤ quicMaxPayload)
    (hnumber : packet.packetNumber = pn + UInt32.ofNat packets.length)
    (hoffset : packet.offset.toNat = offset + bytes.length) :
    Tiles connectionId streamId pn offset (bytes ++ packet.payload.bytes) (packets ++ [packet]) where
  data p hp := by
    obtain hp | hp := List.mem_append.mp hp
    · exact h.data p hp
    · rw [List.mem_singleton.mp hp]
      exact hdata
  sizes p hp := by
    obtain hp | hp := List.mem_append.mp hp
    · exact h.sizes p hp
    · rw [List.mem_singleton.mp hp]
      exact hsize
  numbers i p hp := by
    obtain ⟨hp, -⟩ | ⟨rfl, rfl⟩ := getElem?_snoc hp
    · exact h.numbers i p hp
    · exact hnumber
  abut i p hp := by
    obtain ⟨hp, hi⟩ | ⟨rfl, rfl⟩ := getElem?_snoc hp
    · rw [List.take_append_of_le_length (by omega)]
      exact h.abut i p hp
    · rw [List.take_left, h.bytes]
      exact hoffset
  bytes := by rw [payloads_snoc, h.bytes]

end

/-! ### The loop -/

/-- What holds at the loop: the packets so far tile the file from `offset` to the position of the stream, and
what is left of the length has not been read. -/
structure Reading (env : ChunkEnv) (connectionId : UInt64) (streamId offset length pn : UInt32) (pos : Nat)
    (chunk : StreamChunk) (sent : List QuicPacket) : Prop where
  ids : chunk.connectionId = connectionId ∧ chunk.streamId = streamId ∧ chunk.offset = offset
  fileSize : chunk.fileSize.toNat = env.content.length
  small : env.content.length ≤ 2 ^ 31
  position : pos = offset.toNat + chunk.sentBytes.toNat
  inside : pos ≤ env.content.length
  length : chunk.sentBytes.toNat + chunk.remaining.toNat = length.toNat
  nextPn : chunk.nextPn = pn + UInt32.ofNat sent.length
  tiles : Tiles connectionId streamId pn offset.toNat ((env.content.drop offset.toNat).take chunk.sentBytes.toNat) sent

/-- The range that was asked for, as far as it lies in the file. -/
def wanted (content : Bytes) (offset length : UInt32) : Bytes :=
  (content.drop offset.toNat).take (min (offset.toNat + length.toNat) content.length - offset.toNat)

section

variable {env : ChunkEnv} {connectionId : UInt64} {streamId offset length pn : UInt32} {pos : Nat}
  {chunk : StreamChunk} {sent : List QuicPacket}

theorem Reading.continues_iff (h : Reading env connectionId streamId offset length pn pos chunk sent) :
    chunk.continues ↔ 0 < chunk.remaining.toNat ∧ pos < env.content.length := by
  have hsmall := h.small
  have hinside := h.inside
  have hpos := h.position
  unfold StreamChunk.continues
  rw [gt_iff_lt, UInt32.lt_iff_toNat_lt, UInt32.lt_iff_toNat_lt, UInt32.toNat_add, h.fileSize, h.ids.2.2]
  simp only [UInt32.toNat_zero]
  omega

theorem Reading.done (h : Reading env connectionId streamId offset length pn pos chunk sent)
    (hend : chunk.remaining.toNat = 0 ∨ pos = env.content.length) :
    Tiles connectionId streamId pn offset.toNat (wanted env.content offset length) sent := by
  have htiles := h.tiles
  have hinside := h.inside
  have hpos := h.position
  have hlength := h.length
  have hsame : wanted env.content offset length =
      (env.content.drop offset.toNat).take chunk.sentBytes.toNat := by
    unfold wanted
    congr 1
    omega
  rw [hsame]
  exact htiles

theorem fread_length (env : ChunkEnv) (pos : Nat) (chunk : StreamChunk) :
    (chunk.fread env.content pos).bytes.length =
      min (min chunk.remaining.toNat quicMaxPayload) (env.content.length - pos) := by
  show ((env.content.drop pos).take chunk.toRead).length = _
  rw [List.length_take, List.length_drop, StreamChunk.toRead]
  split_ifs
  · omega
  · omega

theorem Reading.advance (h : Reading env connectionId streamId offset length pn pos chunk sent)
    (hcontinues : chunk.continues) :
    Reading env connectionId streamId offset length pn (pos + (chunk.fread env.content pos).bytes.length)
      (chunk.advance (chunk.fread env.content pos).length)
      (sent ++ [chunk.packet (chunk.fread env.content pos)]) := by
  obtain ⟨hremaining, hbefore⟩ := h.continues_iff.mp hcontinues
  have hread := fread_length env pos chunk
  have hlength := h.length
  have hsmall := h.small
  have hpos := h.position
  have hle : (chunk.fread env.content pos).length.toNat ≤ chunk.remaining.toNat := by
    rw [Payload.length_toNat]
    omega
  have hlt := length.toNat_lt
  obtain ⟨hsentBytes, hremaining'⟩ := chunk.advance_spec (by omega) hle
  rw [Payload.length_toNat] at hsentBytes hremaining'
  have htaken : ((env.content.drop offset.toNat).take chunk.sentBytes.toNat).length = chunk.sentBytes.toNat := by
    rw [List.length_take, List.length_drop]
    have hinside := h.inside
    omega
  refine ⟨h.ids, h.fileSize, h.small, ?_, ?_, ?_, ?_, ?_⟩
  · rw [hsentBytes]
    omega
  · omega
  · rw [hsentBytes, hremaining']
    omega
  · show chunk.nextPn + 1 = pn + UInt32.ofNat (sent ++ [_]).length
    rw [h.nextPn, List.length_append, List.length_singleton, UInt32.ofNat_add]
    exact UInt32.add_assoc pn (UInt32.ofNat sent.length) 1
  · have hbytes : (env.content.drop offset.toNat).take
          (chunk.advance (chunk.fread env.content pos).length).sentBytes.toNat =
        (env.content.drop offset.toNat).take chunk.sentBytes.toNat ++
          (chunk.packet (chunk.fread env.content pos)).payload.bytes := by
      show _ = _ ++ (env.content.drop pos).take chunk.toRead
      have htoRead : ((env.content.drop pos).take chunk.toRead).length =
          (chunk.fread env.content pos).bytes.length := rfl
      rw [hsentBytes, List.take_add, List.drop_drop, ← hpos, ← htoRead]
      congr 1
      rw [List.take_eq_take_iff, List.length_take]
      omega
    rw [hbytes]
    refine h.tiles.snoc ?_ ?_ h.nextPn ?_
    · exact ⟨rfl, h.ids.1, h.ids.2.1⟩
    · show 1 ≤ (chunk.fread env.content pos).bytes.length ∧ (chunk.fread env.content pos).bytes.length ≤ 16384
      rw [hread, quicMaxPayload]
      omega
    · show (chunk.offset + chunk.sentBytes).toNat = _
      rw [h.ids.2.2, UInt32.toNat_add, htaken]
      omega

theorem Reading.loop (hsend : ∀ n, env.send n = true)
    (h : Reading env connectionId streamId offset length pn pos chunk sent) :
    let result := sendVideoChunkLoop env pos chunk sent
    result.rc = 0 ∧ result.nextPn = pn + UInt32.ofNat result.sent.length ∧
      Tiles connectionId streamId pn offset.toNat (wanted env.content offset length) result.sent := by
  induction hn : chunk.remaining.toNat using Nat.strong_induction_on generalizing pos chunk sent with
  | _ n ih =>
      intro result
      subst hn
      have hinside := h.inside
      by_cases hcontinues : chunk.continues
      · obtain ⟨hremaining, hbefore⟩ := h.continues_iff.mp hcontinues
        have hread := fread_length env pos chunk
        rw [quicMaxPayload] at hread
        have hnonempty : ¬ (chunk.fread env.content pos).length = 0 := by
          intro hzero
          rw [Payload.length_eq_zero] at hzero
          rw [hzero, List.length_nil] at hread
          omega
        have hnext := h.advance hcontinues
        by_cases hlast : (chunk.advance (chunk.fread env.content pos).length).sentBytes +
            (chunk.advance (chunk.fread env.content pos).length).offset ≥
              (chunk.advance (chunk.fread env.content pos).length).fileSize
        · have hresult : result = ⟨0, sent ++ [chunk.packet (chunk.fread env.content pos)],
              (chunk.advance (chunk.fread env.content pos).length).nextPn⟩ := by
            show sendVideoChunkLoop env pos chunk sent = _
            rw [sendVideoChunkLoop]
            simp only [hcontinues, hnonempty, hsend, hlast, if_true, dite_false, Bool.true_eq_false, if_false]
          have hend : pos + (chunk.fread env.content pos).bytes.length = env.content.length := by
            rw [ge_iff_le, UInt32.le_iff_toNat_le, UInt32.toNat_add, hnext.fileSize, hnext.ids.2.2] at hlast
            have hposition := hnext.position
            have hinside' := hnext.inside
            omega
          rw [hresult]
          exact ⟨rfl, hnext.nextPn, hnext.done (.inr hend)⟩
        · have hresult : result = sendVideoChunkLoop env (pos + (chunk.fread env.content pos).bytes.length)
              (chunk.advance (chunk.fread env.content pos).length)
              (sent ++ [chunk.packet (chunk.fread env.content pos)]) := by
            show sendVideoChunkLoop env pos chunk sent = _
            rw [sendVideoChunkLoop]
            simp only [hcontinues, hnonempty, hsend, hlast, if_true, dite_false, Bool.true_eq_false, if_false]
          rw [hresult]
          exact ih _ (StreamChunk.advance_remaining_lt hnonempty) hnext rfl
      · have hresult : result = ⟨0, sent, chunk.nextPn⟩ := by
          show sendVideoChunkLoop env pos chunk sent = _
          rw [sendVideoChunkLoop, if_neg hcontinues]
        rw [hresult]
        refine ⟨rfl, h.nextPn, h.done ?_⟩
        rw [h.continues_iff] at hcontinues
        omega

end

/-- Every call succeeds: the file can be opened, and the engine takes every packet. -/
structure ChunkEnv.Succeeds (env : ChunkEnv) : Prop where
  quicEngine : env.quicEngine = true
  stat : env.stat = true
  fopen : env.fopen = true
  fseek : env.fseek = true
  send : ∀ n, env.send n = true

/-- **The packets of a `stream_chunk` tile the range that was asked for**, as far as it lies in the file. -/
theorem video_chunks_tile {env : ChunkEnv} (connectionId : UInt64) (streamId offset length pn : UInt32)
    (henv : env.Succeeds) (hsize : env.content.length ≤ 2 * 1024 * 1024 * 1024) :
    let result := sendVideoChunk env connectionId streamId offset length pn
    (offset.toNat < env.content.length →
      result.rc = 0 ∧ result.nextPn = pn + UInt32.ofNat result.sent.length ∧
        Tiles connectionId streamId pn offset.toNat (wanted env.content offset length) result.sent) ∧
    (env.content.length ≤ offset.toNat → result.rc = -1 ∧ result.sent = []) := by
  intro result
  have hfileSize : (UInt32.ofNat env.content.length).toNat = env.content.length := by
    rw [UInt32.toNat_ofNat']
    omega
  have hcalls : result = if offset ≥ UInt32.ofNat env.content.length then ⟨-1, [], pn⟩
      else sendVideoChunkLoop env offset.toNat
        ⟨connectionId, streamId, offset, UInt32.ofNat env.content.length, length, 0, pn⟩ [] := by
    show sendVideoChunk env connectionId streamId offset length pn = _
    simp only [sendVideoChunk, henv.quicEngine, henv.stat, henv.fopen, henv.fseek, Bool.true_eq_false, if_false]
  have hbehind : offset ≥ UInt32.ofNat env.content.length ↔ env.content.length ≤ offset.toNat := by
    rw [ge_iff_le, UInt32.le_iff_toNat_le, hfileSize]
  rw [hcalls]
  constructor
  · intro hbefore
    rw [if_neg (by rw [hbehind]; omega)]
    apply Reading.loop henv.send
    refine ⟨⟨rfl, rfl, rfl⟩, hfileSize, by omega, rfl, by omega, ?_, ?_, ?_⟩
    · show 0 + length.toNat = length.toNat
      omega
    · simp
    · exact Tiles.nil
  · intro hafter
    rw [if_pos (hbehind.mpr hafter)]
    exact ⟨rfl, rfl⟩

/-- Three bytes, and a range that reaches beyond `2 ^ 32`. -/
def sampleChunk : ChunkEnv := ⟨true, true, true, true, [1, 2, 3], fun _ => true⟩

theorem video_chunks_tile_sample :
    let result := sendVideoChunk sampleChunk 7 1 1 0xFFFFFFFF 9
    result.rc = 0 ∧ result.nextPn = 9 + UInt32.ofNat result.sent.length ∧ Tiles 7 1 9 1 [2, 3] result.sent :=
  (video_chunks_tile 7 1 1 0xFFFFFFFF 9 ⟨rfl, rfl, rfl, rfl, fun _ => rfl⟩ (by decide)).1 (by decide)

end OttQuic.WebSocket
