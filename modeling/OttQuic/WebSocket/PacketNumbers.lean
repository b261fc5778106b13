import OttQuic.Lib.Transition
import OttQuic.Quic.Packet
import Mathlib.Logic.Function.Basic

/-!
# Packet numbers of the WebSocket clients (`websocket.c`)

Every client thread takes the packet numbers of its `DATA` packets from `ctx->next_packet_number`. A
`quic_send` increments the counter under the lock. A `stream_chunk` copies it under the lock, advances
its copy over a whole file range (`send_video_chunk`), and stores the copy back under the lock.

The system interleaves the commands of any number of clients, one atomic step at a time. With
`Exclusive`, the condition on a step that the numbers of a `stream_chunk` are not taken by anyone else
before they are written back, the numbers in use stay below one frontier (`Numbered`), and no number is
sent twice.
-/

namespace OttQuic.WebSocket

open Transition

/-- The variables of `send_video_chunk` at its loop. -/
structure StreamChunk where
  connectionId : UInt64
  streamId : UInt32
  offset : UInt32
  /-- `(uint32_t)st.st_size`. -/
  fileSize : UInt32
  remaining : UInt32
  sentBytes : UInt32
  nextPn : UInt32

/-- Where a client's command is. -/
inductive Client where
  | idle
  /-- `quic_send` has numbered its packet. -/
  | quicSend (packet : QuicPacket)
  /-- `stream_chunk` has copied the counter; next it opens the file. -/
  | chunkOpen (connectionId : UInt64) (streamId offset length nextPn : UInt32)
  /-- At the loop of `send_video_chunk`. -/
  | chunkLoop (chunk : StreamChunk)
  /-- `send_video_chunk` has returned `0`. -/
  | chunkDone (chunk : StreamChunk)

/-- The `websocket_context_t` and its clients; `sent` is what `quic_engine_send_to_connection` has
accepted. -/
structure PnState where
  nextPacketNumber : UInt32
  clients : Nat → Client
  sent : List QuicPacket

/-- An atomic step of a client. -/
inductive ClientStep where
  | quicSend (connectionId : UInt64) (streamId offset : UInt32) (payload : Payload)
  | quicSent (ok : Bool)
  | chunkCopy (connectionId : UInt64) (streamId offset length : UInt32)
  /-- `stat`, `fopen` and `fseek`: the size of the file when they succeed. -/
  | chunkOpen (stSize : Option Nat)
  /-- One pass of the loop: what `fread` returns and whether the packet is sent. -/
  | chunkPacket (bytes : Payload) (ok : Bool)
  | chunkEnd
  | chunkStore

def dataPacket (connectionId : UInt64) (packetNumber streamId offset : UInt32) (payload : Payload) :
    QuicPacket :=
  ⟨quicFlagData, connectionId, packetNumber, streamId, offset, payload⟩

/-- The condition of the loop of `send_video_chunk`. -/
def StreamChunk.continues (chunk : StreamChunk) : Prop :=
  chunk.remaining > 0 ∧ chunk.sentBytes + chunk.offset < chunk.fileSize

instance (chunk : StreamChunk) : Decidable chunk.continues := by
  unfold StreamChunk.continues
  infer_instance

def StreamChunk.toRead (chunk : StreamChunk) : Nat :=
  if chunk.remaining.toNat > quicMaxPayload then quicMaxPayload else chunk.remaining.toNat

/-- The packet of one pass of the loop. -/
def StreamChunk.packet (chunk : StreamChunk) (bytes : Payload) : QuicPacket :=
  dataPacket chunk.connectionId chunk.nextPn chunk.streamId (chunk.offset + chunk.sentBytes) bytes

/-- The loop's variables after the packet has been sent. -/
def StreamChunk.advance (chunk : StreamChunk) (n : UInt32) : StreamChunk :=
  { chunk with
    nextPn := chunk.nextPn + 1
    sentBytes := chunk.sentBytes + n
    remaining := if chunk.remaining ≥ n then chunk.remaining - n else 0 }

/-- A client's step: its new place, the counter, and the packet it sends. -/
def Client.step (counter : UInt32) : Client → ClientStep → Option (Client × UInt32 × List QuicPacket)
  | .idle, .quicSend connectionId streamId offset payload =>
    some (.quicSend (dataPacket connectionId counter streamId offset payload), counter + 1, [])
  | .quicSend packet, .quicSent ok => some (.idle, counter, if ok then [packet] else [])
  | .idle, .chunkCopy connectionId streamId offset length =>
    some (.chunkOpen connectionId streamId offset length counter, counter, [])
  | .chunkOpen .., .chunkOpen none => some (.idle, counter, [])
  | .chunkOpen connectionId streamId offset length nextPn, .chunkOpen (some stSize) =>
    let fileSize := UInt32.ofNat stSize
    if offset ≥ fileSize then some (.idle, counter, [])
    else some (.chunkLoop ⟨connectionId, streamId, offset, fileSize, length, 0, nextPn⟩, counter, [])
  | .chunkLoop chunk, .chunkPacket bytes ok =>
    if chunk.continues ∧ bytes.bytes.length ≤ chunk.toRead then
      if bytes.length = 0 then some (.chunkDone chunk, counter, [])
      -- on a failed send the numbers taken so far are not stored back
      else if ok = false then some (.idle, counter, [])
      else
        let chunk' := chunk.advance bytes.length
        some (if chunk'.sentBytes + chunk'.offset ≥ chunk'.fileSize then .chunkDone chunk'
          else .chunkLoop chunk', counter, [chunk.packet bytes])
    else none
  | .chunkLoop chunk, .chunkEnd =>
    if chunk.continues then none else some (.chunkDone chunk, counter, [])
  | .chunkDone chunk, .chunkStore => some (.idle, chunk.nextPn, [])
  | _, _ => none

def PnState.step (s : PnState) : Nat × ClientStep → Option PnState
  | (i, e) =>
    ((s.clients i).step s.nextPacketNumber e).map fun (client, counter, packets) =>
      ⟨counter, Function.update s.clients i client, s.sent ++ packets⟩

/-- `websocket_context_init`. -/
def PnState.initial : PnState := ⟨1, fun _ => .idle, []⟩

def pnSystem : System PnState (Nat × ClientStep) := .ofPartial .initial PnState.step

/-- The step is a send that fails. -/
def ClientStep.sendFails : ClientStep → Bool
  | quicSent ok | chunkPacket _ ok => !ok
  | _ => false

/-- The `stream_chunk` of the client, once its file is open. -/
def Client.chunk : Client → Option StreamChunk
  | chunkLoop chunk | chunkDone chunk => some chunk
  | _ => none

/-- The client is a `stream_chunk` that has sent a packet and has not stored its copy back. -/
def Client.Ahead (client : Client) : Prop := ∃ chunk, client.chunk = some chunk ∧ chunk.sentBytes ≠ 0

/-- The condition on a step. No client takes a packet number while some `stream_chunk` is ahead of the
counter, except that `stream_chunk` itself; a `stream_chunk` sends its first packet, and one that sent
none stores its copy back, only while the counter has the value it copied; and the number taken is not
the last one, whose increment wraps around. -/
def Exclusive (s : PnState) : Nat × ClientStep → Prop
  | (_, .quicSend ..) => (∀ j, ¬ (s.clients j).Ahead) ∧ s.nextPacketNumber.toNat + 1 < 2 ^ 32
  | (i, .chunkPacket bytes _) => ∀ chunk, s.clients i = .chunkLoop chunk → bytes.length ≠ 0 →
      (chunk.sentBytes = 0 → s.nextPacketNumber = chunk.nextPn ∧ ∀ j, ¬ (s.clients j).Ahead) ∧
        chunk.nextPn.toNat + 1 < 2 ^ 32
  | (i, .chunkStore) => ∀ chunk, s.clients i = .chunkDone chunk → chunk.sentBytes = 0 →
      s.nextPacketNumber = chunk.nextPn
  | _ => True

/-! ### The invariant -/

/-- The packet numbers that have been sent. -/
def PnState.numbers (s : PnState) : List UInt32 := s.sent.map QuicPacket.packetNumber

/-- All numbers in use are below `frontier`, and that is where the next number is taken: at the copy of
the `stream_chunk` that is ahead, or else at the counter. -/
structure Numbered (s : PnState) (frontier : Nat) : Prop where
  /-- The loop has counted no more bytes than it was asked for. -/
  bounded : ∀ i chunk, (s.clients i).chunk = some chunk →
    chunk.sentBytes.toNat + chunk.remaining.toNat < 2 ^ 32
  le : s.nextPacketNumber.toNat ≤ frontier
  counter : (∀ i, ¬ (s.clients i).Ahead) → s.nextPacketNumber.toNat = frontier
  ahead : ∀ i chunk, (s.clients i).chunk = some chunk → chunk.sentBytes ≠ 0 →
    chunk.nextPn.toNat = frontier
  one : ∀ i j, (s.clients i).Ahead → (s.clients j).Ahead → i = j
  nodup : s.numbers.Nodup
  sent : ∀ n ∈ s.numbers, n.toNat < frontier
  pending : ∀ i packet, s.clients i = .quicSend packet →
    packet.packetNumber.toNat < frontier ∧ packet.packetNumber ∉ s.numbers
  distinct : ∀ i j p q, s.clients i = .quicSend p → s.clients j = .quicSend q →
    p.packetNumber = q.packetNumber → i = j

/-! ### One step -/

/-- What a client's step does when its send succeeds. -/
inductive ClientEffect (counter : UInt32) : Client → ClientStep → Client → UInt32 → List QuicPacket → Prop
  | number {connectionId streamId offset payload packet} : packet.packetNumber = counter →
      ClientEffect counter .idle (.quicSend connectionId streamId offset payload) (.quicSend packet)
        (counter + 1) []
  | sent {packet ok} : ClientEffect counter (.quicSend packet) (.quicSent ok) .idle counter [packet]
  | quiet {client e client'} : (∀ packet, client' ≠ .quicSend packet) →
      (∀ chunk, client.chunk = some chunk → client'.chunk = some chunk) →
      (∀ chunk, client'.chunk = some chunk → client.chunk = some chunk ∨ chunk.sentBytes = 0) →
      ClientEffect counter client e client' counter []
  | packet {chunk client'} {bytes : Payload} {ok} : bytes.length ≠ 0 →
      bytes.bytes.length ≤ chunk.remaining.toNat → client'.chunk = some (chunk.advance bytes.length) →
      ClientEffect counter (.chunkLoop chunk) (.chunkPacket bytes ok) client' counter
        [chunk.packet bytes]
  | store {chunk} : ClientEffect counter (.chunkDone chunk) .chunkStore .idle chunk.nextPn []

theorem StreamChunk.toRead_le (chunk : StreamChunk) : chunk.toRead ≤ chunk.remaining.toNat := by
  unfold toRead
  split <;> omega

theorem Client.step_effect {counter counter' : UInt32} {client client' : Client} {e : ClientStep}
    {packets : List QuicPacket} (h : client.step counter e = some (client', counter', packets))
    (hok : e.sendFails = false) : ClientEffect counter client e client' counter' packets := by
  unfold Client.step at h
  split at h
  · cases h
    exact .number rfl
  · rename_i packet ok
    have hsent : ok = true := by simpa [ClientStep.sendFails] using hok
    subst hsent
    cases h
    exact .sent
  · cases h
    exact .quiet (by simp) (fun _ hchunk => hchunk) (fun _ hchunk => .inl hchunk)
  · cases h
    exact .quiet (by simp) (fun _ hchunk => hchunk) (fun _ hchunk => .inl hchunk)
  · simp only at h
    split at h
    · cases h
      exact .quiet (by simp) (fun _ hchunk => hchunk) (fun _ hchunk => .inl hchunk)
    · cases h
      refine .quiet (by simp) (fun _ hchunk => by cases hchunk) (fun chunk hchunk => .inr ?_)
      obtain rfl := Option.some.inj hchunk
      rfl
  · rename_i chunk bytes ok
    have hsent : ok = true := by simpa [ClientStep.sendFails] using hok
    subst hsent
    split at h
    · rename_i hread
      split at h
      · cases h
        exact .quiet (by simp) (fun _ hchunk => hchunk) (fun _ hchunk => .inl hchunk)
      · rename_i hbytes
        simp only [Bool.true_eq_false, if_false, Option.some.injEq, Prod.mk.injEq] at h
        obtain ⟨rfl, rfl, rfl⟩ := h
        refine .packet hbytes (Nat.le_trans hread.2 chunk.toRead_le) ?_
        split <;> rfl
    · cases h
  · split at h
    · cases h
    · cases h
      exact .quiet (by simp) (fun _ hchunk => hchunk) (fun _ hchunk => .inl hchunk)
  · cases h
    exact .store
  · cases h

variable {s : PnState} {frontier i : Nat}

theorem not_ahead_idle : ¬ Client.idle.Ahead := by
  intro h
  obtain ⟨chunk, hchunk, -⟩ := h
  cases hchunk

theorem pending_update {client' : Client} (hsend : ∀ packet, client' ≠ .quicSend packet) {j : Nat}
    {packet : QuicPacket} (h : Function.update s.clients i client' j = .quicSend packet) :
    j ≠ i ∧ s.clients j = .quicSend packet := by
  by_cases hj : j = i
  · subst hj
    rw [Function.update_self] at h
    exact absurd h (hsend packet)
  · rw [Function.update_of_ne hj] at h
    exact ⟨hj, h⟩

theorem Numbered.quiet {client' : Client} (hN : Numbered s frontier)
    (hsend : ∀ packet, client' ≠ .quicSend packet)
    (hkeep : ∀ chunk, (s.clients i).chunk = some chunk → chunk.sentBytes ≠ 0 →
      client'.chunk = some chunk)
    (hfresh : ∀ chunk, client'.chunk = some chunk →
      (s.clients i).chunk = some chunk ∨ chunk.sentBytes = 0) :
    Numbered { s with clients := Function.update s.clients i client' } frontier := by
  have hchunk : ∀ j chunk, (Function.update s.clients i client' j).chunk = some chunk →
      (s.clients j).chunk = some chunk ∨ chunk.sentBytes = 0 := by
    intro j chunk h
    by_cases hj : j = i
    · subst hj
      rw [Function.update_self] at h
      exact hfresh chunk h
    · rw [Function.update_of_ne hj] at h
      exact .inl h
  have hahead : ∀ j, (Function.update s.clients i client' j).Ahead ↔ (s.clients j).Ahead := by
    intro j
    constructor
    · intro h
      obtain ⟨chunk, h, hsome⟩ := h
      rcases hchunk j chunk h with h | h
      · exact ⟨chunk, h, hsome⟩
      · exact absurd h hsome
    · intro h
      obtain ⟨chunk, h, hsome⟩ := h
      refine ⟨chunk, ?_, hsome⟩
      by_cases hj : j = i
      · subst hj
        rw [Function.update_self]
        exact hkeep chunk h hsome
      · rw [Function.update_of_ne hj]
        exact h
  refine ⟨fun j chunk h => ?_, hN.le, fun h => ?_, fun j chunk h hsome => ?_, fun j k hj hk => ?_,
    hN.nodup, hN.sent, fun j packet h => ?_, fun j k p q hp hq => ?_⟩
  · rcases hchunk j chunk h with h | h
    · exact hN.bounded j chunk h
    · rw [h]
      have hlt := chunk.remaining.toNat_lt
      simpa using hlt
  · exact hN.counter fun j hj => h j ((hahead j).mpr hj)
  · rcases hchunk j chunk h with h | h
    · exact hN.ahead j chunk h hsome
    · exact absurd h hsome
  · exact hN.one j k ((hahead j).mp hj) ((hahead k).mp hk)
  · exact hN.pending j packet (pending_update hsend h).2
  · exact hN.distinct j k p q (pending_update hsend hp).2 (pending_update hsend hq).2

theorem chunk_update {client' : Client} (hnone : client'.chunk = none) {j : Nat} {chunk : StreamChunk}
    (h : (Function.update s.clients i client' j).chunk = some chunk) :
    j ≠ i ∧ (s.clients j).chunk = some chunk := by
  by_cases hj : j = i
  · subst hj
    rw [Function.update_self, hnone] at h
    cases h
  · rw [Function.update_of_ne hj] at h
    exact ⟨hj, h⟩

theorem ahead_update {client' : Client} (hnone : client'.chunk = none) {j : Nat}
    (h : (Function.update s.clients i client' j).Ahead) : j ≠ i ∧ (s.clients j).Ahead := by
  obtain ⟨chunk, hchunk, hsome⟩ := h
  obtain ⟨hj, hchunk⟩ := chunk_update hnone hchunk
  exact ⟨hj, chunk, hchunk, hsome⟩

theorem Numbered.number {packet : QuicPacket} (hN : Numbered s frontier)
    (hpn : packet.packetNumber = s.nextPacketNumber) (hnone : ∀ j, ¬ (s.clients j).Ahead)
    (hlast : s.nextPacketNumber.toNat + 1 < 2 ^ 32) :
    Numbered { s with
      nextPacketNumber := s.nextPacketNumber + 1
      clients := Function.update s.clients i (.quicSend packet) } (frontier + 1) := by
  have hcounter := hN.counter hnone
  have hnext : (s.nextPacketNumber + 1).toNat = s.nextPacketNumber.toNat + 1 :=
    toNat_add_ofNat (n := 1) hlast
  have hnone' : ∀ j, ¬ (Function.update s.clients i (.quicSend packet) j).Ahead :=
    fun j hj => hnone j (ahead_update rfl hj).2
  have hpacket : packet.packetNumber.toNat = frontier := by rw [hpn, hcounter]
  have hfresh : packet.packetNumber ∉ s.numbers := by
    intro hmem
    have hlt := hN.sent _ hmem
    omega
  refine ⟨fun j chunk h => hN.bounded j chunk (chunk_update rfl h).2, ?_, fun _ => ?_,
    fun j chunk h hsome => absurd ⟨chunk, h, hsome⟩ (hnone' j), fun j _ hj _ => absurd hj (hnone' j),
    hN.nodup, fun n hn => Nat.lt_succ_of_lt (hN.sent n hn), fun j p h => ?_, fun j k p q hp hq hpq => ?_⟩
  · show (s.nextPacketNumber + 1).toNat ≤ frontier + 1
    omega
  · show (s.nextPacketNumber + 1).toNat = frontier + 1
    omega
  · by_cases hj : j = i
    · subst hj
      simp only [Function.update_self, Client.quicSend.injEq] at h
      subst h
      exact ⟨by omega, hfresh⟩
    · simp only [Function.update_of_ne hj] at h
      obtain ⟨hlt, hmem⟩ := hN.pending j p h
      exact ⟨by omega, hmem⟩
  · -- a pending number of another client is below the frontier, the new one is at it
    have hother : ∀ l r, l ≠ i → Function.update s.clients i (.quicSend packet) l = .quicSend r →
        s.clients l = .quicSend r ∧ r.packetNumber ≠ packet.packetNumber := by
      intro l r hl h
      rw [Function.update_of_ne hl] at h
      have hlt := (hN.pending l r h).1
      exact ⟨h, fun heq => by rw [heq] at hlt; omega⟩
    by_cases hj : j = i
    · by_cases hk : k = i
      · rw [hj, hk]
      · subst hj
        simp only [Function.update_self, Client.quicSend.injEq] at hp
        subst hp
        exact absurd hpq.symm (hother k q hk hq).2
    · by_cases hk : k = i
      · subst hk
        simp only [Function.update_self, Client.quicSend.injEq] at hq
        subst hq
        exact absurd hpq (hother j p hj hp).2
      · exact hN.distinct j k p q (hother j p hj hp).1 (hother k q hk hq).1 hpq

theorem Numbered.quicSent {packet : QuicPacket} (hN : Numbered s frontier)
    (hi : s.clients i = .quicSend packet) :
    Numbered { s with clients := Function.update s.clients i .idle, sent := s.sent ++ [packet] }
      frontier := by
  obtain ⟨hlt, hfresh⟩ := hN.pending i packet hi
  have hnumbers : (s.sent ++ [packet]).map QuicPacket.packetNumber = s.numbers ++ [packet.packetNumber] := by
    simp [PnState.numbers]
  refine ⟨fun j chunk h => hN.bounded j chunk (chunk_update rfl h).2, hN.le, fun h => ?_,
    fun j chunk h hsome => hN.ahead j chunk (chunk_update rfl h).2 hsome,
    fun j k hj hk => hN.one j k (ahead_update rfl hj).2 (ahead_update rfl hk).2, ?_, fun n hn => ?_,
    fun j p h => ?_, fun j k p q hp hq hpq => ?_⟩
  · refine hN.counter fun j hj => h j ?_
    have hji : j ≠ i := by
      intro hji
      subst hji
      rw [hi] at hj
      obtain ⟨chunk, hchunk, -⟩ := hj
      cases hchunk
    show (Function.update s.clients i .idle j).Ahead
    rwa [Function.update_of_ne hji]
  · show List.Nodup (List.map QuicPacket.packetNumber (s.sent ++ [packet]))
    rw [hnumbers, List.nodup_append]
    refine ⟨hN.nodup, by simp, fun n hn m hm => ?_⟩
    rw [List.mem_singleton.mp hm]
    exact fun heq => hfresh (heq ▸ hn)
  · replace hn : n ∈ s.numbers ++ [packet.packetNumber] := hnumbers ▸ hn
    rcases List.mem_append.mp hn with hn | hn
    · exact hN.sent n hn
    · rw [List.mem_singleton.mp hn]
      exact hlt
  · obtain ⟨hj, h⟩ := pending_update (by simp) h
    obtain ⟨hp, hmem⟩ := hN.pending j p h
    refine ⟨hp, fun hn => ?_⟩
    replace hn : p.packetNumber ∈ s.numbers ++ [packet.packetNumber] := hnumbers ▸ hn
    rcases List.mem_append.mp hn with hn | hn
    · exact hmem hn
    · exact hj (hN.distinct j i p packet h hi (List.mem_singleton.mp hn))
  · exact hN.distinct j k p q (pending_update (by simp) hp).2 (pending_update (by simp) hq).2 hpq

theorem StreamChunk.advance_spec {chunk : StreamChunk} {n : UInt32}
    (hbound : chunk.sentBytes.toNat + chunk.remaining.toNat < 2 ^ 32)
    (hn : n.toNat ≤ chunk.remaining.toNat) :
    (chunk.advance n).sentBytes.toNat = chunk.sentBytes.toNat + n.toNat ∧
      (chunk.advance n).remaining.toNat = chunk.remaining.toNat - n.toNat := by
  have hle : chunk.remaining ≥ n := UInt32.le_iff_toNat_le.mpr hn
  refine ⟨?_, ?_⟩
  · show (chunk.sentBytes + n).toNat = _
    rw [UInt32.toNat_add]
    omega
  · show (if chunk.remaining ≥ n then chunk.remaining - n else 0).toNat = _
    rw [if_pos hle, UInt32.toNat_sub_of_le _ _ hle]

theorem Numbered.at_frontier {chunk : StreamChunk} (hN : Numbered s frontier)
    (hchunk : (s.clients i).chunk = some chunk)
    (hfirst : chunk.sentBytes = 0 → s.nextPacketNumber = chunk.nextPn ∧ ∀ j, ¬ (s.clients j).Ahead) :
    chunk.nextPn.toNat = frontier ∧ ∀ j, (s.clients j).Ahead → j = i := by
  by_cases hzero : chunk.sentBytes = 0
  · obtain ⟨hcounter, hnone⟩ := hfirst hzero
    exact ⟨by rw [← hcounter, hN.counter hnone], fun j hj => absurd hj (hnone j)⟩
  · exact ⟨hN.ahead i chunk hchunk hzero, fun j hj => hN.one j i hj ⟨chunk, hchunk, hzero⟩⟩

theorem Numbered.append {n : UInt32} (hN : Numbered s frontier) (hn : n.toNat = frontier) :
    (s.numbers ++ [n]).Nodup ∧ (∀ m ∈ s.numbers ++ [n], m.toNat < frontier + 1) ∧
      ∀ j packet, s.clients j = .quicSend packet →
        packet.packetNumber.toNat < frontier + 1 ∧ packet.packetNumber ∉ s.numbers ++ [n] := by
  refine ⟨?_, fun m hm => ?_, fun j packet h => ?_⟩
  · rw [List.nodup_append]
    refine ⟨hN.nodup, by simp, fun m hm m' hm' heq => ?_⟩
    have hlt := hN.sent m hm
    rw [heq, List.mem_singleton.mp hm'] at hlt
    omega
  · rcases List.mem_append.mp hm with hm | hm
    · exact Nat.lt_succ_of_lt (hN.sent m hm)
    · rw [List.mem_singleton.mp hm]
      omega
  · obtain ⟨hlt, hmem⟩ := hN.pending j packet h
    refine ⟨by omega, fun hm => ?_⟩
    rcases List.mem_append.mp hm with hm | hm
    · exact hmem hm
    · rw [List.mem_singleton.mp hm] at hlt
      omega

theorem Numbered.packet {chunk : StreamChunk} {client' : Client} {bytes : Payload}
    (hN : Numbered s frontier) (hi : s.clients i = .chunkLoop chunk) (hbytes : bytes.length ≠ 0)
    (hread : bytes.bytes.length ≤ chunk.remaining.toNat)
    (hclient : client'.chunk = some (chunk.advance bytes.length))
    (hfirst : chunk.sentBytes = 0 →
      s.nextPacketNumber = chunk.nextPn ∧ ∀ j, ¬ (s.clients j).Ahead)
    (hlast : chunk.nextPn.toNat + 1 < 2 ^ 32) :
    Numbered { s with
      clients := Function.update s.clients i client'
      sent := s.sent ++ [chunk.packet bytes] } (frontier + 1) := by
  have hchunk : (s.clients i).chunk = some chunk := by rw [hi]; rfl
  have hbound := hN.bounded i chunk hchunk
  obtain ⟨hsentBytes, hremaining⟩ :=
    chunk.advance_spec (n := bytes.length) hbound (by rwa [Payload.length_toNat])
  rw [Payload.length_toNat] at hsentBytes hremaining
  have hpos : bytes.bytes.length ≠ 0 := by
    intro hzero
    exact hbytes (Payload.length_eq_zero.mpr (List.length_eq_zero_iff.mp hzero))
  have hsome : (chunk.advance bytes.length).sentBytes ≠ 0 := by
    intro hzero
    rw [hzero] at hsentBytes
    simp only [UInt32.toNat_zero] at hsentBytes
    omega
  obtain ⟨hnext, honly⟩ := hN.at_frontier hchunk hfirst
  have hself : (Function.update s.clients i client' i).Ahead := by
    rw [Function.update_self]
    exact ⟨_, hclient, hsome⟩
  have honly' : ∀ j, (Function.update s.clients i client' j).Ahead → j = i := by
    intro j hj
    by_contra hji
    rw [Function.update_of_ne hji] at hj
    exact hji (honly j hj)
  have hsend : ∀ packet, client' ≠ .quicSend packet := by
    intro packet h
    rw [h] at hclient
    cases hclient
  have hnumbers : (s.sent ++ [chunk.packet bytes]).map QuicPacket.packetNumber =
      s.numbers ++ [chunk.nextPn] := by
    simp [PnState.numbers, StreamChunk.packet, dataPacket]
  obtain ⟨hnodup, hsent, hpending⟩ := hN.append hnext
  rw [← hnumbers] at hnodup hsent hpending
  refine ⟨fun j c h => ?_, Nat.le_succ_of_le hN.le, fun h => absurd hself (h i), fun j c h hc => ?_,
    fun j k hj hk => by rw [honly' j hj, honly' k hk], hnodup, hsent,
    fun j p h => hpending j p (pending_update hsend h).2, fun j k p q hp hq hpq => ?_⟩
  · by_cases hj : j = i
    · subst hj
      simp only [Function.update_self, hclient, Option.some.injEq] at h
      subst h
      omega
    · simp only [Function.update_of_ne hj] at h
      exact hN.bounded j c h
  · have hj := honly' j ⟨c, h, hc⟩
    subst hj
    simp only [Function.update_self, hclient, Option.some.injEq] at h
    subst h
    show (chunk.nextPn + 1).toNat = frontier + 1
    rw [← hnext]
    exact toNat_add_ofNat (n := 1) hlast
  · exact hN.distinct j k p q (pending_update hsend hp).2 (pending_update hsend hq).2 hpq

theorem Numbered.store {chunk : StreamChunk} (hN : Numbered s frontier)
    (hi : s.clients i = .chunkDone chunk)
    (hnone : chunk.sentBytes = 0 → s.nextPacketNumber = chunk.nextPn) :
    Numbered { s with
      nextPacketNumber := chunk.nextPn
      clients := Function.update s.clients i .idle } frontier ∧
      s.nextPacketNumber.toNat ≤ chunk.nextPn.toNat := by
  have hchunk : (s.clients i).chunk = some chunk := by rw [hi]; rfl
  by_cases hzero : chunk.sentBytes = 0
  · refine ⟨?_, by rw [hnone hzero]⟩
    rw [← hnone hzero]
    refine hN.quiet (by simp) (fun c hc hsome => ?_) (fun c hc => by cases hc)
    rw [hchunk] at hc
    obtain rfl := Option.some.inj hc
    exact absurd hzero hsome
  · have hnext := hN.ahead i chunk hchunk hzero
    have hnone' : ∀ j, ¬ (Function.update s.clients i .idle j).Ahead := by
      intro j h
      obtain ⟨hj, h⟩ := ahead_update rfl h
      exact hj (hN.one j i h ⟨chunk, hchunk, hzero⟩)
    refine ⟨⟨fun j c h => hN.bounded j c (chunk_update rfl h).2, by rw [← hnext], fun _ => hnext,
      fun j c h hc => absurd ⟨c, h, hc⟩ (hnone' j), fun j _ hj _ => absurd hj (hnone' j), hN.nodup,
      hN.sent, fun j p h => hN.pending j p (pending_update (by simp) h).2,
      fun j k p q hp hq hpq => ?_⟩, by rw [hnext]; exact hN.le⟩
    exact hN.distinct j k p q (pending_update (by simp) hp).2 (pending_update (by simp) hq).2 hpq

/-- **One step.** A step that meets `Exclusive` and whose send succeeds keeps the invariant, and the
counter does not decrease. -/
theorem Numbered.step {t : PnState} {e : Nat × ClientStep} (hN : Numbered s frontier)
    (h : s.step e = some t) (hok : e.2.sendFails = false) (hexcl : Exclusive s e) :
    (∃ frontier', Numbered t frontier') ∧ s.nextPacketNumber ≤ t.nextPacketNumber := by
  obtain ⟨i, e⟩ := e
  simp only [PnState.step, Option.map_eq_some_iff] at h
  obtain ⟨⟨client', counter', packets⟩, hstep, rfl⟩ := h
  have heffect := Client.step_effect hstep hok
  rw [UInt32.le_iff_toNat_le]
  generalize hi : s.clients i = client at heffect
  cases heffect with
  | number hpn =>
      obtain ⟨hnone, hlast⟩ := hexcl
      refine ⟨⟨frontier + 1, ?_⟩, ?_⟩
      · simpa using hN.number (i := i) hpn hnone hlast
      · show _ ≤ (s.nextPacketNumber + 1).toNat
        rw [show s.nextPacketNumber + 1 = s.nextPacketNumber + UInt32.ofNat 1 from rfl,
          toNat_add_ofNat hlast]
        omega
  | sent => exact ⟨⟨_, hN.quicSent hi⟩, Nat.le_refl _⟩
  | quiet hsend hkeep hfresh =>
      subst hi
      refine ⟨⟨frontier, ?_⟩, Nat.le_refl _⟩
      simpa using hN.quiet hsend (fun c hc _ => hkeep c hc) hfresh
  | packet hbytes hread hclient =>
      obtain ⟨hfirst, hlast⟩ := hexcl _ hi hbytes
      exact ⟨⟨_, hN.packet hi hbytes hread hclient hfirst hlast⟩, Nat.le_refl _⟩
  | store =>
      obtain ⟨hN', hle⟩ := hN.store hi (hexcl _ hi)
      exact ⟨⟨frontier, by simpa using hN'⟩, hle⟩

/-! ### Runs -/

theorem numbered_initial : Numbered .initial 1 where
  bounded _ _ h := by cases h
  le := Nat.le_refl _
  counter _ := rfl
  ahead _ _ h := by cases h
  one _ _ h := absurd h not_ahead_idle
  nodup := List.nodup_nil
  sent _ h := by cases h
  pending _ _ h := by cases h
  distinct _ _ _ _ h := by cases h

theorem numbered_run {t : PnState} {es : List (Nat × ClientStep)}
    (h : (pnSystem.restrict Exclusive).Run s es t) (hok : ∀ e ∈ es, e.2.sendFails = false)
    (hN : ∃ frontier, Numbered s frontier) :
    (∃ frontier, Numbered t frontier) ∧ s.nextPacketNumber ≤ t.nextPacketNumber := by
  induction h with
  | nil => exact ⟨hN, UInt32.le_refl _⟩
  | snoc _ hstep ih =>
      obtain ⟨⟨frontier, hmid⟩, hle⟩ := ih fun e he => hok e (List.mem_append_left _ he)
      obtain ⟨hN', hle'⟩ := hmid.step hstep.2 (hok _ (by simp)) hstep.1
      exact ⟨hN', UInt32.le_trans hle hle'⟩

/-- **Packet numbers are not reused.** In every run of any number of clients whose steps all meet
`Exclusive` and whose sends succeed, no two `DATA` packets are sent with the same number, and between
any two states of the run the counter does not decrease. -/
theorem packet_numbers_unique {t : PnState} {es fs : List (Nat × ClientStep)}
    (h : (pnSystem.restrict Exclusive).Run .initial es s)
    (h' : (pnSystem.restrict Exclusive).Run s fs t) (hok : ∀ e ∈ es ++ fs, e.2.sendFails = false) :
    (t.sent.map QuicPacket.packetNumber).Nodup ∧ s.nextPacketNumber ≤ t.nextPacketNumber := by
  obtain ⟨hN, -⟩ := numbered_run h (fun e he => hok e (List.mem_append_left _ he)) ⟨1, numbered_initial⟩
  obtain ⟨⟨frontier, hN'⟩, hle⟩ := numbered_run h' (fun e he => hok e (List.mem_append_right _ he)) hN
  exact ⟨hN'.nodup, hle⟩

/-- One byte of a file or of a command. -/
def oneByte : Payload := ⟨[65], Nat.one_lt_two_pow (Nat.succ_ne_zero 31)⟩

instance : DecidablePred Client.Ahead := fun client =>
  inferInstanceAs (Decidable (∃ chunk ∈ client.chunk, chunk.sentBytes ≠ 0))

/-- Only the first two clients do anything. -/
def PnState.Two (s : PnState) : Prop := ∀ j, 2 ≤ j → s.clients j = .idle

theorem PnState.Two.step {s t : PnState} {e : Nat × ClientStep} (h : s.Two) (hclient : e.1 < 2)
    (hstep : s.step e = some t) : t.Two := by
  obtain ⟨i, e⟩ := e
  simp only [PnState.step, Option.map_eq_some_iff] at hstep
  obtain ⟨⟨client, counter, packets⟩, -, rfl⟩ := hstep
  intro j hj
  have hji : j ≠ i := by
    dsimp only at hclient
    omega
  exact (Function.update_of_ne hji _ _).trans (h j hj)

theorem run_two {C : PnState → Nat × ClientStep → Prop} {check : PnState → Nat × ClientStep → Bool} {s t : PnState}
    {es : List (Nat × ClientStep)} (hcheck : ∀ s e, s.Two → check s e = true → C s e) (hs : s.Two)
    (h : es.foldlM (fun s e => if e.1 < 2 ∧ check s e = true then s.step e else none) s = some t) :
    (pnSystem.restrict C).Run s es t ∧ t.Two := by
  have hstep (s : PnState) (e : Nat × ClientStep) (t : PnState) (hs : s.Two)
      (hst : (if e.1 < 2 ∧ check s e = true then s.step e else none) = some t) :
      (pnSystem.restrict C).step s e t ∧ t.Two := by
    split_ifs at hst with hok
    exact ⟨⟨hcheck s e hs hok.2, hst⟩, hs.step hok.1 hst⟩
  have hrun := System.run_of_foldlM_of hstep hs h
  refine ⟨hrun, ?_⟩
  clear hrun
  induction es generalizing s with
  | nil =>
      obtain rfl : s = t := by simpa using h
      exact hs
  | cons e es ih =>
      rw [List.foldlM_cons, Option.bind_eq_bind, Option.bind_eq_some_iff] at h
      obtain ⟨m, hfirst, hrest⟩ := h
      exact ih (hstep s e m hs hfirst).2 hrest

/-- `Exclusive` for two clients. -/
def exclusiveTwo (s : PnState) : Nat × ClientStep → Bool
  | (_, .quicSend ..) => (∀ j < 2, ¬ (s.clients j).Ahead) ∧ s.nextPacketNumber.toNat + 1 < 2 ^ 32
  | (i, .chunkPacket bytes _) =>
    match s.clients i with
    | .chunkLoop chunk => bytes.length ≠ 0 →
      (chunk.sentBytes = 0 → s.nextPacketNumber = chunk.nextPn ∧ ∀ j < 2, ¬ (s.clients j).Ahead) ∧
        chunk.nextPn.toNat + 1 < 2 ^ 32
    | _ => true
  | (i, .chunkStore) =>
    match s.clients i with
    | .chunkDone chunk => chunk.sentBytes = 0 → s.nextPacketNumber = chunk.nextPn
    | _ => true
  | _ => true

theorem exclusive_of_two {s : PnState} {e : Nat × ClientStep} (h : s.Two) (hcheck : exclusiveTwo s e = true) :
    Exclusive s e := by
  have hall (hfirst : ∀ j < 2, ¬ (s.clients j).Ahead) (j : Nat) : ¬ (s.clients j).Ahead := by
    rcases Nat.lt_or_ge j 2 with hj | hj
    · exact hfirst j hj
    · rw [h j hj]
      exact not_ahead_idle
  obtain ⟨i, e⟩ := e
  cases e with
  | quicSend connectionId streamId offset payload =>
      obtain ⟨hfirst, hlast⟩ := of_decide_eq_true hcheck
      exact ⟨hall hfirst, hlast⟩
  | chunkPacket bytes ok =>
      intro chunk hchunk hbytes
      simp only [exclusiveTwo, hchunk, decide_eq_true_eq] at hcheck
      obtain ⟨hfresh, hlast⟩ := hcheck hbytes
      exact ⟨fun hzero => ⟨(hfresh hzero).1, hall (hfresh hzero).2⟩, hlast⟩
  | chunkStore =>
      intro chunk hchunk
      simpa only [exclusiveTwo, hchunk, decide_eq_true_eq] using hcheck
  | quicSent | chunkCopy | chunkOpen | chunkEnd => trivial

/-- Two clients, with a `quic_send` each; and then a `stream_chunk` of two packets, during which the other client's next
packet goes out. -/
theorem packet_numbers_unique_two : ∃ s t : PnState,
    s.sent.map QuicPacket.packetNumber = [2, 1] ∧ t.sent.map QuicPacket.packetNumber = [2, 1, 4, 3, 5] ∧
      (t.sent.map QuicPacket.packetNumber).Nodup ∧ s.nextPacketNumber ≤ t.nextPacketNumber := by
  let es : List (Nat × ClientStep) :=
    [(0, .quicSend 7 0 0 oneByte), (1, .quicSend 8 0 0 oneByte), (1, .quicSent true), (0, .quicSent true)]
  let fs : List (Nat × ClientStep) :=
    [(0, .quicSend 7 0 1 oneByte), (1, .chunkCopy 8 0 1 2), (1, .chunkOpen (some 3)), (1, .chunkPacket oneByte true),
      (0, .quicSent true), (1, .chunkPacket oneByte true), (1, .chunkStore)]
  let f (s : PnState) (e : Nat × ClientStep) : Option PnState :=
    if e.1 < 2 ∧ exclusiveTwo s e = true then s.step e else none
  have hfirst : (es.foldlM f .initial).map PnState.numbers = some [2, 1] := by decide +kernel
  have hall : ((es ++ fs).foldlM f .initial).map PnState.numbers = some [2, 1, 4, 3, 5] := by decide +kernel
  obtain ⟨s, hs, hsent⟩ := Option.map_eq_some_iff.mp hfirst
  obtain ⟨t, ht, hsent'⟩ := Option.map_eq_some_iff.mp hall
  rw [List.foldlM_append, Option.bind_eq_bind, hs, Option.bind_some] at ht
  obtain ⟨hrun, htwo⟩ := run_two (fun _ _ => exclusive_of_two) (fun _ _ => rfl) hs
  obtain ⟨hrun', -⟩ := run_two (fun _ _ => exclusive_of_two) htwo ht
  exact ⟨s, t, hsent, hsent', packet_numbers_unique hrun hrun' (by decide)⟩

/-- A `stream_chunk` copies the counter, a `quic_send` of another client takes the same number and
sends its packet, and the `stream_chunk` sends its own: both packets have the number `1`. -/
theorem packet_numbers_reused :
    ¬ ∀ (es : List (Nat × ClientStep)) (s : PnState), pnSystem.Run .initial es s →
      (∀ e ∈ es, e.2.sendFails = false) → s.sent.length < 2 ^ 32 →
      (s.sent.map QuicPacket.packetNumber).Nodup := by
  intro h
  let es : List (Nat × ClientStep) :=
    [(0, .chunkCopy 7 0 0 1), (1, .quicSend 8 0 0 oneByte), (1, .quicSent true),
      (0, .chunkOpen (some 1)), (0, .chunkPacket oneByte true), (0, .chunkStore)]
  have hrun : (es.foldlM PnState.step .initial).map PnState.numbers = some [1, 1] := by
    decide +kernel
  obtain ⟨s, hs, hnumbers⟩ := Option.map_eq_some_iff.mp hrun
  have hlen : s.sent.length = 2 := by
    rw [← List.length_map QuicPacket.packetNumber]
    exact congrArg List.length hnumbers
  have hnodup := h es s (System.run_ofPartial.mpr hs) (by decide) (by omega)
  rw [show s.sent.map QuicPacket.packetNumber = [1, 1] from hnumbers] at hnodup
  exact absurd hnodup (by decide)

end OttQuic.WebSocket
