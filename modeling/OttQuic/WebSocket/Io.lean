import OttQuic.Basic
import OttQuic.Lib.Framing

/-!
# Sending frames (`io_write`, `write_all`, `ws_send_frame`)

The socket of a client: `answers` is how it answers each write, with `0` for a failure and otherwise the
most bytes it takes. What it has accepted is in `sent`; beside the bytes the model counts the writes and keeps a
log of the frames.

`takeFrame` says of the answers alone what a socket takes of a frame. `wsSendFrame_eq` is the one lemma about
sending that the rest uses: `ws_send_frame` succeeds exactly if the socket takes the whole frame, and adds it to
the log with what was taken.
-/

namespace OttQuic.WebSocket

open Framing

structure WsIo where
  answers : Nat → Nat
  sent : Bytes
  /-- The number of writes so far. -/
  writes : Nat
  frames : List (Attempt UInt8)
  /-- The number of bytes of the current frame that have been accepted. -/
  begun : Nat

/-- A client's socket before the first frame. -/
def WsIo.fresh (answers : Nat → Nat) : WsIo := ⟨answers, [], 0, [], 0⟩

/-- `io_write`, with `0` for its `-1`. -/
def ioWrite (io : WsIo) (buf : Bytes) : Nat × WsIo :=
  let n := min (io.answers io.writes) buf.length
  (n, { io with
    sent := io.sent ++ buf.take n
    writes := io.writes + 1
    begun := io.begun + n })

/-- The loop of `write_all`; every pass accepts a byte or returns. -/
def writeAllLoop : Nat → Bytes → WsIo → Bool × WsIo
  | _, [], io => (true, io)
  | 0, _ :: _, io => (false, io)
  | fuel + 1, c :: buf, io =>
    match ioWrite io (c :: buf) with
    | (0, io) => (false, io)
    | (n + 1, io) => writeAllLoop fuel (buf.drop n) io

/-- `write_all`: whether it returns `0`. -/
def writeAll (io : WsIo) (buf : Bytes) : Bool × WsIo := writeAllLoop buf.length buf io

/-- The header of a frame: its opcode with `FIN`, and its length in 7, 16 or 64 bits. -/
def frameHeader (opcode : UInt8) (payloadLen : Nat) : Bytes :=
  let first := 0x80 ||| (opcode &&& 0x0F)
  if payloadLen ≤ 125 then [first, UInt8.ofNat payloadLen]
  else if payloadLen ≤ 0xFFFF then [first, 126, UInt8.ofNat (payloadLen / 2 ^ 8), UInt8.ofNat payloadLen]
  else [first, 127] ++ (List.range 8).map fun i => UInt8.ofNat (payloadLen / 2 ^ (56 - 8 * i))

/-- `ws_send_frame`: whether it returns `0`. -/
def wsSendFrame (io : WsIo) (opcode : UInt8) (payload : Bytes) : Bool × WsIo :=
  let header := frameHeader opcode payload.length
  let log (io : WsIo) : WsIo := { io with frames := io.frames ++ [⟨header ++ payload, io.begun⟩] }
  match writeAll { io with begun := 0 } header with
  | (false, io) => (false, log io)
  | (true, io) =>
    match writeAll io payload with
    | (ok, io) => (ok, log io)

/-! ### What a socket takes -/

/-- What a socket takes of so many bytes from its write `i` on, and the number of the write after that: it is offered
the rest again and again, until it has taken all of it or fails. -/
def takeBytes (answers : Nat → Nat) : Nat → Nat → Nat → Nat × Nat
  | 0, i, _ => (0, i)
  | fuel + 1, i, left =>
    if left = 0 then (0, i)
    else if answers i = 0 then (0, i + 1)
    else
      let n := min (answers i) left
      let (m, j) := takeBytes answers fuel (i + 1) (left - n)
      (n + m, j)

/-- What a socket takes of a frame, its header before its payload. -/
def takeFrame (answers : Nat → Nat) (i : Nat) (header payload : Nat) : Nat × Nat :=
  let (n, j) := takeBytes answers header i header
  if n < header then (n, j)
  else
    let (m, k) := takeBytes answers payload j payload
    (n + m, k)

variable {answers : Nat → Nat}

theorem takeBytes_le (fuel i left : Nat) : (takeBytes answers fuel i left).1 ≤ left := by
  induction fuel generalizing i left with
  | zero => exact Nat.zero_le left
  | succ fuel ih =>
      rw [takeBytes]
      split_ifs
      · exact Nat.zero_le left
      · exact Nat.zero_le left
      · have hrest := ih (i + 1) (left - min (answers i) left)
        simp only
        omega

theorem writeAllLoop_eq (fuel : Nat) (buf : Bytes) (io : WsIo) (hfuel : buf.length ≤ fuel) :
    writeAllLoop fuel buf io =
      (decide ((takeBytes io.answers fuel io.writes buf.length).1 = buf.length), { io with
        sent := io.sent ++ buf.take (takeBytes io.answers fuel io.writes buf.length).1
        writes := (takeBytes io.answers fuel io.writes buf.length).2
        begun := io.begun + (takeBytes io.answers fuel io.writes buf.length).1 }) := by
  induction fuel generalizing buf io with
  | zero =>
      obtain rfl := List.eq_nil_of_length_eq_zero (Nat.le_zero.mp hfuel)
      simp [writeAllLoop, takeBytes]
  | succ fuel ih =>
      cases buf with
      | nil => simp [writeAllLoop, takeBytes]
      | cons c buf =>
          have hne : (c :: buf).length ≠ 0 := Nat.succ_ne_zero _
          rw [writeAllLoop, takeBytes, if_neg hne]
          by_cases hzero : io.answers io.writes = 0
          · simp [ioWrite, hzero]
          · obtain ⟨n, hn⟩ : ∃ n, min (io.answers io.writes) (c :: buf).length = n + 1 :=
              Nat.exists_eq_succ_of_ne_zero (by omega)
            have hle : n ≤ buf.length := by
              rw [List.length_cons] at hn
              omega
            have hrest : (c :: buf).length - (n + 1) = (buf.drop n).length := by
              rw [List.length_cons, List.length_drop]
              omega
            rw [if_neg hzero]
            simp only [ioWrite, hn, hrest]
            rw [ih (buf.drop n) _ (by simp at hfuel ⊢; omega)]
            simp only [List.length_cons, List.length_drop, List.take_succ_cons]
            generalize (takeBytes io.answers fuel (io.writes + 1) (buf.length - n)).1 = m
            have hall : m = buf.length - n ↔ n + 1 + m = buf.length + 1 := by omega
            have htaken : (c :: buf).take (n + 1 + m) = c :: (buf.take n ++ (buf.drop n).take m) := by
              rw [show n + 1 + m = n + m + 1 by omega, List.take_succ_cons, List.take_add]
            rw [htaken]
            simp only [hall, List.append_assoc, List.cons_append, Nat.add_assoc]

/-! ### A frame -/

/-- The frame `ws_send_frame` sends. -/
def wsFrame (opcode : UInt8) (payload : Bytes) : Bytes := frameHeader opcode payload.length ++ payload

theorem frameHeader_length (opcode : UInt8) (n : Nat) :
    (frameHeader opcode n).length = if n ≤ 125 then 2 else if n ≤ 0xFFFF then 4 else 10 := by
  rw [frameHeader]
  split_ifs <;> rfl

/-- The bytes of a frame that a socket takes, and the number of its next write. -/
def WsIo.taken (io : WsIo) (opcode : UInt8) (payload : Bytes) : Nat × Nat :=
  takeFrame io.answers io.writes (frameHeader opcode payload.length).length payload.length

/-- **`ws_send_frame`** returns `0` exactly if the socket takes the frame as a whole. -/
theorem wsSendFrame_eq (io : WsIo) (opcode : UInt8) (payload : Bytes) :
    wsSendFrame io opcode payload =
      (decide ((wsFrame opcode payload).length ≤ (io.taken opcode payload).1), { io with
        sent := io.sent ++ (wsFrame opcode payload).take (io.taken opcode payload).1
        writes := (io.taken opcode payload).2
        frames := io.frames ++ [⟨wsFrame opcode payload, (io.taken opcode payload).1⟩]
        begun := (io.taken opcode payload).1 }) := by
  rcases hheader : takeBytes io.answers (frameHeader opcode payload.length).length io.writes
    (frameHeader opcode payload.length).length with ⟨n, j⟩
  have hle : n ≤ (frameHeader opcode payload.length).length := by
    rw [← show _ = n from congrArg Prod.fst hheader]
    exact takeBytes_le ..
  unfold wsSendFrame writeAll
  simp only
  rw [writeAllLoop_eq _ _ _ (Nat.le_refl _)]
  simp only [hheader]
  by_cases hall : n = (frameHeader opcode payload.length).length
  · rcases hpayload : takeBytes io.answers payload.length j payload.length with ⟨m, k⟩
    have hle' : m ≤ payload.length := by
      rw [← show _ = m from congrArg Prod.fst hpayload]
      exact takeBytes_le ..
    have htaken : io.taken opcode payload = (n + m, k) := by
      rw [WsIo.taken, takeFrame, hheader]
      simp only
      rw [if_neg (by omega), hpayload]
    have hwhole : m = payload.length ↔ (wsFrame opcode payload).length ≤ n + m := by
      rw [wsFrame, List.length_append]
      omega
    have hbytes : (wsFrame opcode payload).take (n + m) = frameHeader opcode payload.length ++ payload.take m := by
      rw [wsFrame, hall, List.take_length_add_append]
    rw [decide_eq_true hall]
    simp only
    rw [writeAllLoop_eq _ _ _ (Nat.le_refl _)]
    simp only [hpayload, htaken, hwhole, hbytes]
    simp only [hall, List.take_length, List.append_assoc, Nat.zero_add, wsFrame]
  · have htaken : io.taken opcode payload = (n, j) := by
      rw [WsIo.taken, takeFrame, hheader]
      exact if_pos (by omega)
    have hshort : ¬ (wsFrame opcode payload).length ≤ n := by
      rw [wsFrame, List.length_append]
      omega
    have hbytes : (wsFrame opcode payload).take n = (frameHeader opcode payload.length).take n := by
      rw [wsFrame, List.take_append_of_le_length hle]
    rw [decide_eq_false hall]
    simp only [htaken, hshort, hbytes, decide_false, Nat.zero_add]
    rfl

theorem wsFrame_injective {opcode : UInt8} {payload payload' : Bytes}
    (h : wsFrame opcode payload = wsFrame opcode payload') : payload = payload' := by
  have hlength := congrArg List.length h
  simp only [wsFrame, List.length_append, frameHeader_length] at hlength
  exact List.append_inj_right' h (by split_ifs at hlength <;> omega)

end OttQuic.WebSocket
