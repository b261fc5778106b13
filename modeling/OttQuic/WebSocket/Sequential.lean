import OttQuic.WebSocket.PacketNumbers

/-!
# Packet numbers without concurrency

One command after the other: a command begins when no other is running. `send_video_chunk` advances the
copy of the counter that its caller stores back, but only when it returns `0`. A `stream_chunk` that fails
behind its first packet therefore leaves the counter below numbers that are on the wire; what keeps the
counter above them is that no command does that (`Client.Fresh`, `next_packet_number_fresh`).
-/

namespace OttQuic.WebSocket

open Transition

/-- Every packet has a number below `n`. -/
def Below (n : UInt32) (sent : List QuicPacket) : Prop := ∀ packet ∈ sent, packet.packetNumber < n

theorem Below.append {n : UInt32} {sent packets : List QuicPacket} (h : Below n sent)
    (h' : Below n packets) : Below n (sent ++ packets) := by
  intro packet hmem
  rcases List.mem_append.mp hmem with hmem | hmem
  · exact h packet hmem
  · exact h' packet hmem

theorem Below.succ {n : UInt32} {sent : List QuicPacket} (h : Below n sent)
    (hlast : n.toNat + 1 < 2 ^ 32) : Below (n + 1) sent := by
  intro packet hmem
  have hlt := h packet hmem
  have hnext : (n + 1).toNat = n.toNat + 1 := toNat_add_ofNat (n := 1) hlast
  rw [UInt32.lt_iff_toNat_lt] at hlt ⊢
  omega

theorem below_self {packet : QuicPacket} {n : UInt32} (hpn : packet.packetNumber = n)
    (hlast : n.toNat + 1 < 2 ^ 32) : Below (n + 1) [packet] := by
  intro p hmem
  have hnext : (n + 1).toNat = n.toNat + 1 := toNat_add_ofNat (n := 1) hlast
  rw [List.mem_singleton.mp hmem, hpn, UInt32.lt_iff_toNat_lt]
  omega

/-- The numbers on the wire are below the next one, which is that of the counter, or that of the copy of a
`stream_chunk` that has sent a packet. -/
def Client.Fresh (counter : UInt32) (sent : List QuicPacket) : Client → Prop
  | .idle => Below counter sent
  | .quicSend packet => Below counter sent ∧ packet.packetNumber < counter
  | .chunkOpen _ _ _ _ nextPn => Below counter sent ∧ nextPn = counter
  | .chunkLoop chunk | .chunkDone chunk =>
    Below chunk.nextPn sent ∧ (chunk.sentBytes = 0 → chunk.nextPn = counter) ∧
      chunk.sentBytes.toNat + chunk.remaining.toNat < 2 ^ 32

/-- The condition on a step: a `stream_chunk` whose send fails has sent no packet before, and the last number,
whose increment wraps around, is not taken. -/
def Client.Keeps (counter : UInt32) : Client → ClientStep → Prop
  | .idle, .quicSend .. => counter.toNat + 1 < 2 ^ 32
  | .chunkLoop chunk, .chunkPacket bytes ok =>
    bytes.length ≠ 0 → if ok then chunk.nextPn.toNat + 1 < 2 ^ 32 else chunk.sentBytes = 0
  | _, _ => True

theorem StreamChunk.fresh_advance {chunk : StreamChunk} {counter : UInt32} {sent : List QuicPacket}
    {bytes : Payload} (hF : (Client.chunkLoop chunk).Fresh counter sent)
    (hbytes : bytes.length ≠ 0) (hread : bytes.bytes.length ≤ chunk.toRead)
    (hlast : chunk.nextPn.toNat + 1 < 2 ^ 32) :
    (Client.chunkLoop (chunk.advance bytes.length)).Fresh counter (sent ++ [chunk.packet bytes]) := by
  obtain ⟨hbelow, -, hbound⟩ := hF
  have hn : bytes.length.toNat ≤ chunk.remaining.toNat := by
    rw [Payload.length_toNat]
    exact Nat.le_trans hread chunk.toRead_le
  obtain ⟨hsent, hremaining⟩ := chunk.advance_spec hbound hn
  have hpos : bytes.length.toNat ≠ 0 := fun hzero => hbytes (UInt32.toNat_inj.mp hzero)
  refine ⟨(hbelow.succ hlast).append (below_self rfl hlast), fun hzero => ?_, by omega⟩
  rw [hzero] at hsent
  simp only [UInt32.toNat_zero] at hsent
  omega

/-- **One step of the command that runs.** -/
theorem Client.Fresh.step {counter counter' : UInt32} {client client' : Client} {e : ClientStep}
    {packets sent : List QuicPacket} (hF : client.Fresh counter sent)
    (h : client.step counter e = some (client', counter', packets)) (hkeeps : client.Keeps counter e) :
    client'.Fresh counter' (sent ++ packets) := by
  unfold Client.step at h
  split at h
  · cases h
    rw [List.append_nil]
    have hnumber : ∀ packet : QuicPacket, packet.packetNumber = counter → packet.packetNumber < counter + 1 :=
      fun packet hpn => below_self hpn hkeeps packet List.mem_cons_self
    exact ⟨Below.succ hF hkeeps, hnumber _ rfl⟩
  · rename_i packet ok
    cases h
    cases ok with
    | true => exact hF.1.append fun p hp => by rw [List.mem_singleton.mp hp]; exact hF.2
    | false => rw [if_neg Bool.false_ne_true, List.append_nil]; exact hF.1
  · cases h
    rw [List.append_nil]
    exact ⟨hF, rfl⟩
  · cases h
    rw [List.append_nil]
    exact hF.1
  · simp only at h
    split at h
    · cases h
      rw [List.append_nil]
      exact hF.1
    · cases h
      rw [List.append_nil]
      exact ⟨hF.2 ▸ hF.1, fun _ => hF.2, (Nat.zero_add _).trans_lt (UInt32.toNat_lt _)⟩
  · rename_i chunk bytes ok
    split at h
    · rename_i hread
      split at h
      · cases h
        rw [List.append_nil]
        exact hF
      · rename_i hbytes
        have hkeep := hkeeps hbytes
        split at h
        · rename_i hfail
          subst hfail
          cases h
          rw [List.append_nil]
          rw [if_neg Bool.false_ne_true] at hkeep
          exact hF.2.1 hkeep ▸ hF.1
        · rename_i hok
          rw [if_pos (Bool.eq_true_of_not_eq_false hok)] at hkeep
          simp only [Option.some.injEq, Prod.mk.injEq] at h
          obtain ⟨rfl, rfl, rfl⟩ := h
          have hnext := StreamChunk.fresh_advance hF hbytes hread.2 hkeep
          split
          · exact hnext
          · exact hnext
    · cases h
  · split at h
    · cases h
    · cases h
      rw [List.append_nil]
      exact hF
  · cases h
    rw [List.append_nil]
    exact hF.1
  · cases h

/-! ### Runs -/

/-- No other command is running. -/
def Alone (s : PnState) (i : Nat) : Prop := ∀ j, j ≠ i → s.clients j = .idle

/-- A step without concurrency that meets `Keeps`. -/
def Sequential (s : PnState) : Nat × ClientStep → Prop
  | (i, e) => Alone s i ∧ (s.clients i).Keeps s.nextPacketNumber e

/-- Whichever command is the one that runs, the numbers on the wire are below the next one. -/
def Sequenced (s : PnState) : Prop :=
  ∀ i, Alone s i → (s.clients i).Fresh s.nextPacketNumber s.sent

theorem Sequenced.step {s t : PnState} {e : Nat × ClientStep} (hS : Sequenced s) (hseq : Sequential s e)
    (h : s.step e = some t) : Sequenced t := by
  obtain ⟨i, e⟩ := e
  obtain ⟨halone, hkeeps⟩ := hseq
  simp only [PnState.step, Option.map_eq_some_iff] at h
  obtain ⟨⟨client', counter', packets⟩, hstep, rfl⟩ := h
  have hfresh := (hS i halone).step hstep hkeeps
  intro j hj
  dsimp only
  by_cases hji : j = i
  · subst hji
    rw [Function.update_self]
    exact hfresh
  · -- the command has ended, and no other is running
    have hidle := hj i (Ne.symm hji)
    dsimp only at hidle
    rw [Function.update_self] at hidle
    rw [hidle] at hfresh
    rw [Function.update_of_ne hji, halone j hji]
    exact hfresh

theorem sequenced_run {s t : PnState} {es : List (Nat × ClientStep)}
    (h : (pnSystem.restrict Sequential).Run s es t) (hS : Sequenced s) : Sequenced t :=
  h.preserves hS fun _ _ _ hs hstep => hs.step hstep.1 hstep.2

/-- **The counter is above the wire.** In a run of one command after the other in which no `stream_chunk` fails
behind its first packet, after every command the counter is above the number of every packet sent. -/
theorem next_packet_number_fresh {s : PnState} {es : List (Nat × ClientStep)}
    (h : (pnSystem.restrict Sequential).Run .initial es s) (hidle : ∀ i, s.clients i = .idle) :
    ∀ packet ∈ s.sent, packet.packetNumber < s.nextPacketNumber := by
  have hinitial : Sequenced .initial := fun i _ packet hmem => absurd hmem List.not_mem_nil
  have hfresh := sequenced_run h hinitial 0 fun j _ => hidle j
  rw [hidle 0] at hfresh
  exact hfresh

def Client.isIdle : Client → Bool
  | .idle => true
  | _ => false

theorem Client.eq_idle {client : Client} (h : client.isIdle = true) : client = .idle := by
  cases client with
  | idle => rfl
  | quicSend | chunkOpen | chunkLoop | chunkDone => cases h

/-- `Keeps`, evaluated. -/
def Client.keeps (counter : UInt32) : Client → ClientStep → Bool
  | .idle, .quicSend .. => counter.toNat + 1 < 2 ^ 32
  | .chunkLoop chunk, .chunkPacket bytes ok =>
    bytes.length ≠ 0 → if ok then chunk.nextPn.toNat + 1 < 2 ^ 32 else chunk.sentBytes = 0
  | _, _ => true

/-- `Sequential` for two clients. -/
def sequentialTwo (s : PnState) (e : Nat × ClientStep) : Bool :=
  (List.range 2).all (fun j => j = e.1 ∨ (s.clients j).isIdle = true) &&
    (s.clients e.1).keeps s.nextPacketNumber e.2

theorem sequential_of_two {s : PnState} {e : Nat × ClientStep} (h : s.Two) (hcheck : sequentialTwo s e = true) :
    Sequential s e := by
  obtain ⟨hidle, hkeeps⟩ := Bool.and_eq_true_iff.mp hcheck
  refine ⟨fun j hj => ?_, ?_⟩
  · rcases Nat.lt_or_ge j 2 with hlt | hge
    · have hother := of_decide_eq_true (List.all_eq_true.mp hidle j (List.mem_range.mpr hlt))
      exact Client.eq_idle (hother.resolve_left hj)
    · exact h j hge
  · unfold Client.keeps at hkeeps
    unfold Client.Keeps
    split at hkeeps
    · exact of_decide_eq_true hkeeps
    · exact of_decide_eq_true hkeeps
    · trivial

/-- A `quic_send` that fails, a `stream_chunk` of two packets, and one that fails at its first packet. -/
theorem next_packet_number_fresh_chunk : ∃ s : PnState, s.sent.map QuicPacket.packetNumber = [2, 3] ∧
    s.nextPacketNumber = 4 ∧ ∀ packet ∈ s.sent, packet.packetNumber < s.nextPacketNumber := by
  let es : List (Nat × ClientStep) :=
    [(0, .quicSend 7 0 0 oneByte), (0, .quicSent false), (1, .chunkCopy 8 0 0 2), (1, .chunkOpen (some 2)),
      (1, .chunkPacket oneByte true), (1, .chunkPacket oneByte true), (1, .chunkStore), (0, .chunkCopy 7 0 0 2),
      (0, .chunkOpen (some 2)), (0, .chunkPacket oneByte false)]
  let f (s : PnState) (e : Nat × ClientStep) : Option PnState :=
    if e.1 < 2 ∧ sequentialTwo s e = true then s.step e else none
  have hevaluated : ∃ s ∈ es.foldlM f .initial, s.sent.map QuicPacket.packetNumber = [2, 3] ∧ s.nextPacketNumber = 4 ∧
      ∀ j < 2, (s.clients j).isIdle = true := by
    decide +kernel
  obtain ⟨s, hs, hsent, hcounter, hidle⟩ := hevaluated
  obtain ⟨hrun, htwo⟩ := run_two (fun _ _ => sequential_of_two) (fun _ _ => rfl) hs
  refine ⟨s, hsent, hcounter, next_packet_number_fresh hrun fun j => ?_⟩
  rcases Nat.lt_or_ge j 2 with hlt | hge
  · exact Client.eq_idle (hidle j hlt)
  · exact htwo j hge

/-- A `stream_chunk` sends the packet with number 1 and fails at its next one: the counter stays at 1. -/
theorem failed_chunk_recycles :
    ¬ ∀ (es : List (Nat × ClientStep)) (s : PnState), pnSystem.Run .initial es s →
      (∀ e ∈ es, e.1 = 0) → es.length < 2 ^ 32 → (∀ i, s.clients i = .idle) →
      ∀ packet ∈ s.sent, packet.packetNumber < s.nextPacketNumber := by
  intro h
  let chunk : StreamChunk := ⟨7, 0, 0, 2, 2, 0, 1⟩
  let opened : Nat → Client := Function.update (fun _ => .idle) 0 (.chunkOpen 7 0 0 2 1)
  let looping : Nat → Client := Function.update opened 0 (.chunkLoop chunk)
  let again : Nat → Client := Function.update looping 0 (.chunkLoop (chunk.advance 1))
  let ended : Nat → Client := Function.update again 0 .idle
  have hfails : (Client.chunkLoop (chunk.advance 1)).step 1 (.chunkPacket oneByte false) =
      some (.idle, 1, []) := by
    unfold Client.step
    dsimp only
    rw [if_pos (by decide), if_neg (by decide), if_pos rfl]
  have hrun : pnSystem.Run .initial [(0, .chunkCopy 7 0 0 2), (0, .chunkOpen (some 2)),
      (0, .chunkPacket oneByte true), (0, .chunkPacket oneByte false)]
      ⟨1, ended, [chunk.packet oneByte]⟩ := by
    refine System.run_cons_iff.mpr ⟨⟨1, opened, []⟩, rfl, ?_⟩
    refine System.run_cons_iff.mpr ⟨⟨1, looping, []⟩, rfl, ?_⟩
    refine System.run_cons_iff.mpr ⟨⟨1, again, [chunk.packet oneByte]⟩, rfl, ?_⟩
    refine System.run_cons_iff.mpr ⟨⟨1, ended, [chunk.packet oneByte]⟩, ?_, .nil⟩
    show ((Client.chunkLoop (chunk.advance 1)).step 1 (.chunkPacket oneByte false)).map _ = _
    rw [hfails]
    rfl
  have hidle : ∀ i, ended i = .idle := by
    intro i
    by_cases hi : i = 0
    · subst hi
      rfl
    · simp only [ended, again, looping, opened, Function.update_of_ne hi]
  have hlt := h _ _ hrun (by simp) (by decide) hidle (chunk.packet oneByte) List.mem_cons_self
  exact absurd hlt (by decide)

end OttQuic.WebSocket
