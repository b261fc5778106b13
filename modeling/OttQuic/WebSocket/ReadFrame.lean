import OttQuic.Lib.BigEndian
import OttQuic.WebSocket.TextFrame
import Mathlib.Tactic.Ring

/-!
# Reading frames (`io_read`, `read_exact`, `ws_read_frame`)

What a client sends arrives in pieces: `arrivals` is how many bytes each `recv` finds at most, with `0`
for a failure. `readExact_flows` and `readExact_some` say that the pieces do not matter.

`Encoding` is a frame on the wire: its length in one of three forms, an optional mask, and three reserved
bits. `wsReadFrame_encoding` reads an encoding back and `encoding_of_wsReadFrame` finds the encoding of an
accepted frame; `ws_frame_codec` is the round trip over whole sessions and the frames the server sends.
-/

namespace OttQuic.WebSocket

open BigEndian

def wsMaxFramePayload : Nat := 64 * 1024

/-- The incoming side of a connection. -/
structure WsInput where
  incoming : Bytes
  arrivals : Nat → Nat
  reads : Nat

/-- `io_read`, with `none` for its `-1`. -/
def ioRead (io : WsInput) (len : Nat) : Option (Bytes × WsInput) :=
  let n := min (io.arrivals io.reads) (min len io.incoming.length)
  if n = 0 then none
  else some (io.incoming.take n, { io with incoming := io.incoming.drop n, reads := io.reads + 1 })

/-- The loop of `read_exact`; every pass reads a byte or returns. -/
def readExactLoop : Nat → Nat → WsInput → Option (Bytes × WsInput)
  | _, 0, io => some ([], io)
  | 0, _ + 1, _ => none
  | fuel + 1, len + 1, io =>
    match ioRead io (len + 1) with
    | none => none
    | some (got, io) =>
      match readExactLoop fuel (len + 1 - got.length) io with
      | none => none
      | some (rest, io) => some (got ++ rest, io)

/-- `read_exact`, with the bytes it reads. -/
def readExact (io : WsInput) (len : Nat) : Option (Bytes × WsInput) := readExactLoop len len io

def websocketApplyMask (data mask : Bytes) : Bytes :=
  data.mapIdx fun i b => b ^^^ mask.getD (i % 4) 0

/-- `(n << 8) | b`. -/
def shiftIn (n : UInt64) (b : UInt8) : UInt64 := (n <<< 8) ||| b.toUInt64

/-- The length of the payload, from the low bits of the second byte and what follows it. -/
def readPayloadLen (len7 : UInt8) (io : WsInput) : Option (UInt64 × WsInput) :=
  if len7 = 126 then
    match readExact io 2 with
    | none => none
    | some (extended, io) =>
      some (((extended.getD 0 0).toUInt64 <<< 8) ||| (extended.getD 1 0).toUInt64, io)
  else if len7 = 127 then
    match readExact io 8 with
    | none => none
    | some (extended, io) => some (extended.foldl shiftIn 0, io)
  else some (len7.toUInt64, io)

/-- `mask_key`, zero for a frame without a mask. -/
def readMask (maskFlag : Bool) (io : WsInput) : Option (Bytes × WsInput) :=
  if maskFlag then readExact io 4 else some ([0, 0, 0, 0], io)

/-- The payload, unmasked. -/
def readPayload (malloc : Bool) (payloadLen : UInt64) (maskFlag : Bool) (maskKey : Bytes) (io : WsInput) :
    Option (Bytes × WsInput) :=
  if payloadLen = 0 then some ([], io)
  else if malloc then
    match readExact io payloadLen.toNat with
    | none => none
    | some (payload, io) => some (if maskFlag then websocketApplyMask payload maskKey else payload, io)
  else none

/-- `ws_read_frame`; `malloc` is whether the buffer of the payload is allocated. -/
def wsReadFrame (malloc : Bool) (io : WsInput) : Option (WsFrame × WsInput) :=
  match readExact io 2 with
  | none => none
  | some (header, io) =>
    let fin := header.getD 0 0 &&& 0x80 != 0
    let opcode := header.getD 0 0 &&& 0x0F
    let maskFlag := header.getD 1 0 &&& 0x80 != 0
    match readPayloadLen (header.getD 1 0 &&& 0x7F) io with
    | none => none
    | some (payloadLen, io) =>
      if payloadLen.toNat > wsMaxFramePayload then none
      else
        match readMask maskFlag io with
        | none => none
        | some (maskKey, io) =>
          match readPayload malloc payloadLen maskFlag maskKey io with
          | none => none
          | some (payload, io) => some (⟨opcode, fin, payload⟩, io)

/-- The next `n` frames. -/
def readFrames (malloc : Bool) : Nat → WsInput → Option (List WsFrame × WsInput)
  | 0, io => some ([], io)
  | n + 1, io =>
    match wsReadFrame malloc io with
    | none => none
    | some (frame, io) =>
      match readFrames malloc n io with
      | none => none
      | some (frames, io) => some (frame :: frames, io)

/-! ### Bytes in pieces -/

/-- No `recv` fails while there are bytes to come. -/
def WsInput.Flows (io : WsInput) : Prop := ∀ i, 0 < io.arrivals i

variable {io io' : WsInput} {bytes rest : Bytes} {n len : Nat}

theorem ioRead_some (h : ioRead io len = some (bytes, io')) :
    io.incoming = bytes ++ io'.incoming ∧ 0 < bytes.length ∧ bytes.length ≤ len ∧
      io'.arrivals = io.arrivals := by
  unfold ioRead at h
  simp only at h
  split_ifs at h with hn
  obtain ⟨rfl, rfl⟩ := Prod.mk.inj (Option.some.inj h)
  refine ⟨(List.take_append_drop _ _).symm, ?_, ?_, rfl⟩ <;> rw [List.length_take] <;> omega

theorem ioRead_flows (hflows : io.Flows) (hlen : 0 < len) (hin : io.incoming ≠ []) :
    (ioRead io len).isSome = true := by
  have hpos := hflows io.reads
  have hin' := List.length_pos_iff.mpr hin
  unfold ioRead
  rw [if_neg (by omega)]
  rfl

theorem readExactLoop_some {fuel : Nat} (h : readExactLoop fuel len io = some (bytes, io')) :
    io.incoming = bytes ++ io'.incoming ∧ bytes.length = len ∧ io'.arrivals = io.arrivals := by
  induction fuel generalizing len io bytes with
  | zero =>
      cases len with
      | zero =>
          obtain ⟨rfl, rfl⟩ := Prod.mk.inj (Option.some.inj h)
          exact ⟨rfl, rfl, rfl⟩
      | succ len => cases h
  | succ fuel ih =>
      cases len with
      | zero =>
          obtain ⟨rfl, rfl⟩ := Prod.mk.inj (Option.some.inj h)
          exact ⟨rfl, rfl, rfl⟩
      | succ len =>
          unfold readExactLoop at h
          split at h
          · cases h
          · rename_i got io₁ hgot
            split at h
            · cases h
            · rename_i more io₂ hmore
              obtain ⟨rfl, rfl⟩ := Prod.mk.inj (Option.some.inj h)
              obtain ⟨hin, hpos, hle, harr⟩ := ioRead_some hgot
              obtain ⟨hin', hlen, harr'⟩ := ih hmore
              refine ⟨?_, ?_, harr'.trans harr⟩
              · rw [hin, hin', List.append_assoc]
              · rw [List.length_append, hlen]
                omega

theorem readExactLoop_isSome {fuel : Nat} (hflows : io.Flows) (hfuel : len ≤ fuel)
    (hlen : len ≤ io.incoming.length) : (readExactLoop fuel len io).isSome = true := by
  induction fuel generalizing len io with
  | zero =>
      obtain rfl : len = 0 := by omega
      rfl
  | succ fuel ih =>
      cases len with
      | zero => rfl
      | succ len =>
          have hin : io.incoming ≠ [] := List.length_pos_iff.mp (by omega)
          obtain ⟨⟨got, io₁⟩, hgot⟩ := Option.isSome_iff_exists.mp (ioRead_flows hflows (Nat.succ_pos len) hin)
          obtain ⟨hsplit, hpos, hle, harr⟩ := ioRead_some hgot
          have hflows₁ : io₁.Flows := by
            unfold WsInput.Flows
            rw [harr]
            exact hflows
          have hleft : len + 1 - got.length ≤ io₁.incoming.length := by
            rw [hsplit, List.length_append] at hlen
            omega
          have hfuel₁ : len + 1 - got.length ≤ fuel := by omega
          obtain ⟨⟨more, io₂⟩, hmore⟩ := Option.isSome_iff_exists.mp (ih hflows₁ hfuel₁ hleft)
          simp only [readExactLoop, hgot, hmore, Option.isSome_some]

theorem readExact_some (h : readExact io len = some (bytes, io')) :
    io.incoming = bytes ++ io'.incoming ∧ bytes.length = len ∧ io'.arrivals = io.arrivals :=
  readExactLoop_some h

/-- **`read_exact`** returns the next bytes, in whatever pieces they arrive. -/
theorem readExact_flows (hflows : io.Flows) (hin : io.incoming = bytes ++ rest) :
    ∃ io', readExact io bytes.length = some (bytes, io') ∧ io'.incoming = rest ∧ io'.Flows := by
  have hlen : bytes.length ≤ io.incoming.length := by
    rw [hin, List.length_append]
    omega
  obtain ⟨⟨got, io'⟩, hgot⟩ :=
    Option.isSome_iff_exists.mp (readExactLoop_isSome hflows (Nat.le_refl _) hlen)
  obtain ⟨hsplit, hlength, harr⟩ := readExactLoop_some hgot
  obtain ⟨rfl, hrest⟩ := List.append_inj (hsplit.symm.trans hin) hlength
  refine ⟨io', hgot, hrest, ?_⟩
  unfold WsInput.Flows
  rw [harr]
  exact hflows

/-! ### Frames on the wire -/

/-- How a frame gives the length of its payload. -/
inductive LengthForm where
  | seven
  | sixteen
  | sixtyFour
  deriving DecidableEq

namespace LengthForm

/-- The form can hold the length. -/
def Holds : LengthForm → Nat → Prop
  | seven, n => n ≤ 125
  | sixteen, n => n ≤ 0xFFFF
  | sixtyFour, n => n < 2 ^ 64

/-- The low bits of the second byte. -/
def field : LengthForm → Nat → UInt8
  | seven, n => UInt8.ofNat n
  | sixteen, _ => 126
  | sixtyFour, _ => 127

/-- The bytes of the length behind the first two. -/
def extended : LengthForm → Nat → Bytes
  | seven, _ => []
  | sixteen, n => bigEndian 2 n
  | sixtyFour, n => bigEndian 8 n

end LengthForm

/-- The first byte of a frame. -/
def firstByte (fin : Bool) (rsv : Fin 8) (opcode : Fin 16) : UInt8 :=
  (if fin then (0x80 : UInt8) else 0) ||| (UInt8.ofNat rsv <<< 4) ||| UInt8.ofNat opcode

/-- The second byte of a frame. -/
def secondByte (masked : Bool) (field : UInt8) : UInt8 := (if masked then (0x80 : UInt8) else 0) ||| field

/-- The header of a frame whose payload has `n` bytes, up to the mask. -/
def frameHead (fin : Bool) (rsv : Fin 8) (opcode : Fin 16) (masked : Bool) (form : LengthForm) (n : Nat) :
    Bytes :=
  firstByte fin rsv opcode :: secondByte masked (form.field n) :: form.extended n

/-- A frame on the wire. -/
structure Encoding where
  fin : Bool
  rsv : Fin 8
  opcode : Fin 16
  form : LengthForm
  mask : Option Bytes
  payload : Bytes
  holds : form.Holds payload.length
  payload_le : payload.length ≤ wsMaxFramePayload
  mask_length : ∀ key ∈ mask, key.length = 4

/-- The payload as it is on the wire: under a mask, its byte `i` with the byte `i mod 4` of the key. -/
def maskedPayload (mask : Option Bytes) (payload : Bytes) : Bytes :=
  match mask with
  | none => payload
  | some key => List.ofFn fun i : Fin payload.length => payload.get i ^^^ key.getD (i % 4) 0

namespace Encoding

def wirePayload (e : Encoding) : Bytes := maskedPayload e.mask e.payload

def wire (e : Encoding) : Bytes :=
  frameHead e.fin e.rsv e.opcode e.mask.isSome e.form e.payload.length ++ (e.mask.getD [] ++ e.wirePayload)

/-- The frame that is encoded. -/
def frame (e : Encoding) : WsFrame := ⟨UInt8.ofNat e.opcode, e.fin, e.payload⟩

end Encoding

/-! ### Bits -/

theorem byte_cases {P : UInt8 → Prop} (h : ∀ n : Fin 256, P (UInt8.ofNat n)) (b : UInt8) : P b := by
  have hb := h ⟨b.toNat, b.toNat_lt⟩
  rwa [UInt8.ofNat_toNat] at hb

theorem firstByte_fields (fin : Bool) (rsv : Fin 8) (opcode : Fin 16) :
    (firstByte fin rsv opcode &&& 0x80 != 0) = fin ∧
      firstByte fin rsv opcode &&& 0x0F = UInt8.ofNat opcode := by
  revert fin rsv opcode
  decide +kernel

theorem firstByte_surjective (b : UInt8) :
    ∃ rsv opcode, b = firstByte (b &&& 0x80 != 0) rsv opcode ∧ b &&& 0x0F = UInt8.ofNat opcode := by
  refine ⟨⟨b.toNat / 16 % 8, Nat.mod_lt _ (by omega)⟩, ⟨b.toNat % 16, Nat.mod_lt _ (by omega)⟩, ?_⟩
  revert b
  apply byte_cases
  decide +kernel

theorem secondByte_fields (masked : Bool) {field : UInt8} (h : field < 128) :
    (secondByte masked field &&& 0x80 != 0) = masked ∧ secondByte masked field &&& 0x7F = field := by
  revert field
  apply byte_cases
  revert masked
  decide +kernel

theorem secondByte_eq (b : UInt8) : b = secondByte (b &&& 0x80 != 0) (b &&& 0x7F) ∧ b &&& 0x7F < 128 := by
  revert b
  apply byte_cases
  decide +kernel

theorem applyMask_eq (payload key : Bytes) : websocketApplyMask payload key = maskedPayload (some key) payload := by
  apply List.ext_getElem
  · simp [websocketApplyMask, maskedPayload]
  · intro i h₁ h₂
    simp [websocketApplyMask, maskedPayload]

/-- **Masking** twice with one key gives the payload back. -/
theorem applyMask_applyMask (data key : Bytes) :
    websocketApplyMask (websocketApplyMask data key) key = data := by
  unfold websocketApplyMask
  rw [List.mapIdx_mapIdx]
  apply List.ext_getElem
  · rw [List.length_mapIdx]
  · intro i h₁ h₂
    rw [List.getElem_mapIdx, Function.comp_apply, UInt8.xor_assoc, UInt8.xor_self, UInt8.xor_zero]

/-! ### The length -/

theorem shiftIn_toNat {n : UInt64} {b : UInt8} (h : n.toNat < 2 ^ 56) :
    (shiftIn n b).toNat = n.toNat * 256 + b.toNat := by
  have hb : b.toNat < 2 ^ 8 := b.toNat_lt
  unfold shiftIn
  rw [UInt64.toNat_or, UInt64.toNat_shiftLeft, UInt8.toNat_toUInt64, Nat.shiftLeft_eq]
  have hmod : n.toNat * 2 ^ ((8 : UInt64).toNat % 64) % 2 ^ 64 = 2 ^ 8 * n.toNat := by
    change n.toNat * 2 ^ 8 % 2 ^ 64 = 2 ^ 8 * n.toNat
    omega
  rw [hmod, ← Nat.two_pow_add_eq_or_of_lt hb]
  omega

theorem foldl_shiftIn (bs : Bytes) (acc : UInt64)
    (h : acc.toNat * 256 ^ bs.length + ofBigEndian bs < 2 ^ 64) :
    (bs.foldl shiftIn acc).toNat = acc.toNat * 256 ^ bs.length + ofBigEndian bs := by
  induction bs generalizing acc with
  | nil => simp [ofBigEndian]
  | cons b bs ih =>
      have hexpand : acc.toNat * 256 ^ (b :: bs).length + ofBigEndian (b :: bs)
          = (acc.toNat * 256 + b.toNat) * 256 ^ bs.length + ofBigEndian bs := by
        rw [List.length_cons, ofBigEndian]
        ring
      rw [hexpand] at h ⊢
      have hpow : 1 ≤ 256 ^ bs.length := Nat.one_le_pow _ _ (by decide)
      have hacc : acc.toNat < 2 ^ 56 := by
        have hle := Nat.le_mul_of_pos_right (acc.toNat * 256 + b.toNat) hpow
        omega
      rw [List.foldl_cons, ih, shiftIn_toNat hacc]
      rw [shiftIn_toNat hacc]
      exact h

theorem foldl_shiftIn_zero {bs : Bytes} (h : bs.length ≤ 8) :
    (bs.foldl shiftIn 0).toNat = ofBigEndian bs := by
  have hlt := ofBigEndian_lt bs
  have hpow : 256 ^ bs.length ≤ 256 ^ 8 := Nat.pow_le_pow_right (by decide) h
  have hfold := foldl_shiftIn bs 0
  simp only [UInt64.toNat_zero, Nat.zero_mul, Nat.zero_add] at hfold
  apply hfold
  omega

theorem twoBytes_toNat (a b : UInt8) :
    ((a.toUInt64 <<< 8) ||| b.toUInt64).toNat = ofBigEndian [a, b] := by
  have ha : a.toUInt64.toNat < 2 ^ 56 := by
    have := a.toNat_lt
    rw [UInt8.toNat_toUInt64]
    omega
  have hshift := shiftIn_toNat (b := b) ha
  rw [UInt8.toNat_toUInt64] at hshift
  simpa [shiftIn, ofBigEndian] using hshift

theorem readPayloadLen_form {form : LengthForm} (hholds : form.Holds n) (hflows : io.Flows)
    (hin : io.incoming = form.extended n ++ rest) :
    ∃ io', readPayloadLen (form.field n) io = some (UInt64.ofNat n, io') ∧ io'.incoming = rest ∧ io'.Flows := by
  cases form with
  | seven =>
      have hn : n ≤ 125 := hholds
      have hsmall : (UInt8.ofNat n).toNat = n := by
        rw [UInt8.toNat_ofNat']
        omega
      have h126 : UInt8.ofNat n ≠ 126 := by
        intro heq
        rw [heq] at hsmall
        exact absurd hsmall.symm (by change n ≠ 126; omega)
      have h127 : UInt8.ofNat n ≠ 127 := by
        intro heq
        rw [heq] at hsmall
        exact absurd hsmall.symm (by change n ≠ 127; omega)
      have hvalue : (UInt8.ofNat n).toUInt64 = UInt64.ofNat n := by
        apply UInt64.toNat_inj.mp
        rw [UInt8.toNat_toUInt64, hsmall, UInt64.toNat_ofNat']
        omega
      refine ⟨io, ?_, hin, hflows⟩
      unfold readPayloadLen LengthForm.field
      rw [if_neg h126, if_neg h127, hvalue]
  | sixteen =>
      have hn : n ≤ 0xFFFF := hholds
      obtain ⟨io', hread, hrest, hflows'⟩ := readExact_flows hflows hin
      have hvalue : (((bigEndian 2 n).getD 0 0).toUInt64 <<< 8) ||| ((bigEndian 2 n).getD 1 0).toUInt64
          = UInt64.ofNat n := by
        apply UInt64.toNat_inj.mp
        have hbytes : [(bigEndian 2 n).getD 0 0, (bigEndian 2 n).getD 1 0] = bigEndian 2 n := rfl
        rw [twoBytes_toNat, hbytes, ofBigEndian_bigEndian (by omega), UInt64.toNat_ofNat']
        omega
      refine ⟨io', ?_, hrest, hflows'⟩
      simp only [LengthForm.extended, bigEndian_length] at hread
      unfold readPayloadLen LengthForm.field
      rw [if_pos rfl, hread]
      simp only [hvalue]
  | sixtyFour =>
      have hn : n < 2 ^ 64 := hholds
      obtain ⟨io', hread, hrest, hflows'⟩ := readExact_flows hflows hin
      have hvalue : (bigEndian 8 n).foldl shiftIn 0 = UInt64.ofNat n := by
        apply UInt64.toNat_inj.mp
        rw [foldl_shiftIn_zero (by rw [bigEndian_length]), ofBigEndian_bigEndian (by omega),
          UInt64.toNat_ofNat', Nat.mod_eq_of_lt hn]
      refine ⟨io', ?_, hrest, hflows'⟩
      simp only [LengthForm.extended, bigEndian_length] at hread
      unfold readPayloadLen LengthForm.field
      have h126 : ¬ (127 : UInt8) = 126 := by decide
      rw [if_neg h126, if_pos rfl, hread]
      simp only [hvalue]

theorem readPayloadLen_some {len7 : UInt8} {payloadLen : UInt64} (h7 : len7 < 128)
    (h : readPayloadLen len7 io = some (payloadLen, io')) :
    ∃ form : LengthForm, form.Holds payloadLen.toNat ∧ form.field payloadLen.toNat = len7 ∧
      io.incoming = form.extended payloadLen.toNat ++ io'.incoming := by
  unfold readPayloadLen at h
  by_cases h126 : len7 = 126
  · rw [if_pos h126] at h
    split at h
    · cases h
    · rename_i extended io₁ hread
      obtain ⟨rfl, rfl⟩ := Prod.mk.inj (Option.some.inj h)
      obtain ⟨hin, hlen, -⟩ := readExact_some hread
      obtain ⟨a, b, rfl⟩ := List.length_eq_two.mp hlen
      refine ⟨.sixteen, ?_, h126.symm, ?_⟩
      · have hlt := ofBigEndian_lt [a, b]
        change (UInt64.toNat _) ≤ 0xFFFF
        simp only [List.getD_cons_zero, List.getD_cons_succ, twoBytes_toNat]
        simp only [List.length_cons, List.length_nil] at hlt
        omega
      · have hback := bigEndian_ofBigEndian [a, b]
        simp only [List.getD_cons_zero, List.getD_cons_succ, twoBytes_toNat]
        rw [hin]
        exact congrArg (· ++ io₁.incoming) hback.symm
  · rw [if_neg h126] at h
    by_cases h127 : len7 = 127
    · rw [if_pos h127] at h
      split at h
      · cases h
      · rename_i extended io₁ hread
        obtain ⟨rfl, rfl⟩ := Prod.mk.inj (Option.some.inj h)
        obtain ⟨hin, hlen, -⟩ := readExact_some hread
        refine ⟨.sixtyFour, UInt64.toNat_lt _, h127.symm, ?_⟩
        have hback := bigEndian_ofBigEndian extended
        rw [hlen] at hback
        rw [foldl_shiftIn_zero (by omega), hin]
        exact congrArg (· ++ io₁.incoming) hback.symm
    · rw [if_neg h127] at h
      obtain ⟨rfl, rfl⟩ := Prod.mk.inj (Option.some.inj h)
      have hle : len7.toNat ≤ 125 := by
        have h₁ : len7.toNat < 128 := UInt8.lt_iff_toNat_lt.mp h7
        have h₂ : len7.toNat ≠ 126 := fun heq => h126 (UInt8.toNat_inj.mp heq)
        have h₃ : len7.toNat ≠ 127 := fun heq => h127 (UInt8.toNat_inj.mp heq)
        omega
      refine ⟨.seven, ?_, ?_, rfl⟩
      · rw [UInt8.toNat_toUInt64]
        exact hle
      · rw [UInt8.toNat_toUInt64]
        exact UInt8.ofNat_toNat

/-! ### A frame -/

theorem LengthForm.field_lt {form : LengthForm} (h : form.Holds n) : form.field n < 128 := by
  cases form with
  | seven =>
      have hn : n ≤ 125 := h
      rw [LengthForm.field, UInt8.lt_iff_toNat_lt, UInt8.toNat_ofNat']
      change n % 2 ^ 8 < 128
      omega
  | sixteen => exact (by decide : (126 : UInt8) < 128)
  | sixtyFour => exact (by decide : (127 : UInt8) < 128)

theorem readHead {fin : Bool} {rsv : Fin 8} {opcode : Fin 16} {masked : Bool} {form : LengthForm}
    (hholds : form.Holds n) (hflows : io.Flows)
    (hin : io.incoming = frameHead fin rsv opcode masked form n ++ rest) :
    ∃ header io₁ io₂, readExact io 2 = some (header, io₁) ∧
      (header.getD 0 0 &&& 0x80 != 0) = fin ∧ header.getD 0 0 &&& 0x0F = UInt8.ofNat opcode ∧
      (header.getD 1 0 &&& 0x80 != 0) = masked ∧
      readPayloadLen (header.getD 1 0 &&& 0x7F) io₁ = some (UInt64.ofNat n, io₂) ∧
      io₂.incoming = rest ∧ io₂.Flows := by
  have hin₁ : io.incoming =
      [firstByte fin rsv opcode, secondByte masked (form.field n)] ++ (form.extended n ++ rest) := hin
  obtain ⟨io₁, hread, hrest, hflows₁⟩ := readExact_flows hflows hin₁
  obtain ⟨io₂, hlen, hrest₂, hflows₂⟩ := readPayloadLen_form hholds hflows₁ hrest
  have hfirst := firstByte_fields fin rsv opcode
  have hsecond := secondByte_fields masked (LengthForm.field_lt hholds)
  refine ⟨_, io₁, io₂, hread, hfirst.1, hfirst.2, hsecond.1, ?_, hrest₂, hflows₂⟩
  rw [← hlen]
  exact congrArg (readPayloadLen · io₁) hsecond.2

theorem maskedPayload_length (mask : Option Bytes) (payload : Bytes) :
    (maskedPayload mask payload).length = payload.length := by
  unfold maskedPayload
  split
  · rfl
  · exact List.length_ofFn

theorem unmasked_iff {mask : Option Bytes} {key wire payload : Bytes} (hkey : ∀ k ∈ mask, key = k) :
    payload = (if mask.isSome then websocketApplyMask wire key else wire) ↔
      wire = maskedPayload mask payload := by
  cases mask with
  | none => exact eq_comm
  | some k =>
      rw [hkey k rfl]
      rw [← applyMask_eq]
      simp only [Option.isSome_some, if_true]
      constructor
      · rintro rfl
        exact (applyMask_applyMask wire k).symm
      · rintro rfl
        exact (applyMask_applyMask payload k).symm

theorem readMask_wire {mask : Option Bytes} (hmask : ∀ key ∈ mask, key.length = 4) (hflows : io.Flows)
    (hin : io.incoming = mask.getD [] ++ rest) :
    ∃ key io', readMask mask.isSome io = some (key, io') ∧ (∀ k ∈ mask, key = k) ∧
      io'.incoming = rest ∧ io'.Flows := by
  cases mask with
  | none => exact ⟨[0, 0, 0, 0], io, rfl, by simp, hin, hflows⟩
  | some key =>
      obtain ⟨io', hread, hrest, hflows'⟩ := readExact_flows hflows hin
      have hlen : ((some key).getD []).length = 4 := hmask key rfl
      rw [hlen] at hread
      refine ⟨key, io', hread, ?_, hrest, hflows'⟩
      rintro k ⟨⟩
      rfl

theorem Encoding.payloadLen_toNat (e : Encoding) :
    (UInt64.ofNat e.payload.length).toNat = e.payload.length := by
  have hle := e.payload_le
  unfold wsMaxFramePayload at hle
  rw [UInt64.toNat_ofNat', Nat.mod_eq_of_lt]
  omega

theorem readPayload_wire (e : Encoding) {key : Bytes} (hkey : ∀ k ∈ e.mask, key = k) (hflows : io.Flows)
    (hin : io.incoming = e.wirePayload ++ rest) :
    ∃ io', readPayload true (UInt64.ofNat e.payload.length) e.mask.isSome key io = some (e.payload, io') ∧
      io'.incoming = rest ∧ io'.Flows := by
  unfold readPayload
  by_cases hempty : e.payload = []
  · have hwire : e.wirePayload = [] := by
      apply List.length_eq_zero_iff.mp
      rw [Encoding.wirePayload, maskedPayload_length, hempty]
      rfl
    refine ⟨io, ?_, by rw [hin, hwire, List.nil_append], hflows⟩
    rw [hempty, if_pos (by rfl)]
  · have hne : ¬ UInt64.ofNat e.payload.length = 0 := by
      intro heq
      have hlen := e.payloadLen_toNat
      rw [heq] at hlen
      exact hempty (List.length_eq_zero_iff.mp hlen.symm)
    obtain ⟨io', hread, hin', hflows'⟩ := readExact_flows hflows hin
    rw [Encoding.wirePayload, maskedPayload_length, ← e.payloadLen_toNat] at hread
    refine ⟨io', ?_, hin', hflows'⟩
    simp only [if_neg hne, if_true, hread, ← (unmasked_iff hkey).mpr rfl]

/-- **Round trip**: an encoding is read back, and nothing behind it is consumed. -/
theorem wsReadFrame_wire (e : Encoding) (hflows : io.Flows) (hin : io.incoming = e.wire ++ rest) :
    ∃ io', wsReadFrame true io = some (e.frame, io') ∧ io'.incoming = rest ∧ io'.Flows := by
  have hshort : ¬ (UInt64.ofNat e.payload.length).toNat > wsMaxFramePayload := by
    rw [e.payloadLen_toNat]
    exact Nat.not_lt.mpr e.payload_le
  rw [Encoding.wire, List.append_assoc, List.append_assoc] at hin
  obtain ⟨header, io₁, io₂, hread, hfin, hopcode, hmasked, hpayloadLen, hin₂, hflows₂⟩ :=
    readHead e.holds hflows hin
  obtain ⟨key, io₃, hmask, hkey, hin₃, hflows₃⟩ := readMask_wire e.mask_length hflows₂ hin₂
  obtain ⟨io₄, hpayload, hin₄, hflows₄⟩ := readPayload_wire e hkey hflows₃ hin₃
  refine ⟨io₄, ?_, hin₄, hflows₄⟩
  simp only [wsReadFrame, hread, hpayloadLen, hfin, hopcode, hmasked, if_neg hshort, hmask, hpayload]
  rfl

theorem readFrames_wire (es : List Encoding) (hflows : io.Flows)
    (hin : io.incoming = es.flatMap Encoding.wire ++ rest) :
    ∃ io', readFrames true es.length io = some (es.map Encoding.frame, io') ∧ io'.incoming = rest := by
  induction es generalizing io with
  | nil => exact ⟨io, rfl, hin⟩
  | cons e es ih =>
      rw [List.flatMap_cons, List.append_assoc] at hin
      obtain ⟨io₁, hread, hin₁, hflows₁⟩ := wsReadFrame_wire e hflows hin
      obtain ⟨io', hrest, hin'⟩ := ih hflows₁ hin₁
      refine ⟨io', ?_, hin'⟩
      simp only [List.length_cons, readFrames, hread, hrest, List.map_cons]

theorem readMask_some {maskFlag : Bool} {key : Bytes} (h : readMask maskFlag io = some (key, io')) :
    ∃ mask : Option Bytes, mask.isSome = maskFlag ∧ (∀ k ∈ mask, key = k ∧ k.length = 4) ∧
      io.incoming = mask.getD [] ++ io'.incoming := by
  unfold readMask at h
  split_ifs at h with hflag
  · obtain ⟨hin, hlen, -⟩ := readExact_some h
    refine ⟨some key, hflag.symm, ?_, hin⟩
    rintro k ⟨⟩
    exact ⟨rfl, hlen⟩
  · obtain ⟨rfl, rfl⟩ := Prod.mk.inj (Option.some.inj h)
    exact ⟨none, (Bool.eq_false_iff.mpr hflag).symm, by simp, rfl⟩

theorem readPayload_some {malloc maskFlag : Bool} {payloadLen : UInt64} {key payload : Bytes}
    (h : readPayload malloc payloadLen maskFlag key io = some (payload, io')) :
    ∃ wire : Bytes, io.incoming = wire ++ io'.incoming ∧ wire.length = payloadLen.toNat ∧
      payload = if maskFlag then websocketApplyMask wire key else wire := by
  unfold readPayload at h
  by_cases hzero : payloadLen = 0
  · rw [if_pos hzero] at h
    obtain ⟨rfl, rfl⟩ := Prod.mk.inj (Option.some.inj h)
    refine ⟨[], rfl, by rw [hzero]; rfl, ?_⟩
    split_ifs <;> rfl
  · rw [if_neg hzero] at h
    split at h
    · split at h
      · cases h
      · rename_i wire io₁ hread
        obtain ⟨rfl, rfl⟩ := Prod.mk.inj (Option.some.inj h)
        obtain ⟨hin, hlen, -⟩ := readExact_some hread
        exact ⟨wire, hin, hlen, rfl⟩
    · cases h

/-- **What is accepted** has an encoding. -/
theorem encoding_of_wsReadFrame {malloc : Bool} {frame : WsFrame} (h : wsReadFrame malloc io = some (frame, io')) :
    ∃ e : Encoding, e.frame = frame ∧ io.incoming = e.wire ++ io'.incoming := by
  unfold wsReadFrame at h
  split at h
  · cases h
  rename_i header io₁ hread
  obtain ⟨hin, hlen, -⟩ := readExact_some hread
  obtain ⟨b₀, b₁, rfl⟩ := List.length_eq_two.mp hlen
  simp only [List.getD_cons_zero, List.getD_cons_succ] at h
  obtain ⟨rsv, opcode, hfirst, hopcode⟩ := firstByte_surjective b₀
  obtain ⟨hsecond, hlt⟩ := secondByte_eq b₁
  split at h
  · cases h
  rename_i payloadLen io₂ hpayloadLen
  obtain ⟨form, hholds, hfield, hin₂⟩ := readPayloadLen_some hlt hpayloadLen
  by_cases hlong : payloadLen.toNat > wsMaxFramePayload
  · rw [if_pos hlong] at h
    cases h
  rw [if_neg hlong] at h
  split at h
  · cases h
  rename_i key io₃ hmask
  obtain ⟨mask, hflag, hkey, hin₃⟩ := readMask_some hmask
  split at h
  · cases h
  rename_i payload io₄ hpayload
  obtain ⟨rfl, rfl⟩ := Prod.mk.inj (Option.some.inj h)
  obtain ⟨wire, hin₄, hwire, hunmasked⟩ := readPayload_some hpayload
  have hsize : payload.length = payloadLen.toNat := by
    rw [hunmasked, ← hwire]
    split_ifs
    · rw [applyMask_eq, maskedPayload_length]
    · rfl
  have hlength : ∀ k ∈ mask, k.length = 4 := fun k hk => (hkey k hk).2
  refine ⟨⟨b₀ &&& 0x80 != 0, rsv, opcode, form, mask, payload, by rwa [hsize], by omega, hlength⟩, ?_, ?_⟩
  · rw [Encoding.frame, ← hopcode]
  · rw [← hflag] at hunmasked
    have hback : wire = maskedPayload mask payload :=
      (unmasked_iff fun k hk => (hkey k hk).1).mp hunmasked
    have hhead : b₀ :: b₁ :: form.extended payloadLen.toNat =
        frameHead (b₀ &&& 0x80 != 0) rsv opcode mask.isSome form payload.length := by
      rw [frameHead, hsize, hfield, hflag, ← hfirst, ← hsecond]
    rw [Encoding.wire, Encoding.wirePayload, ← hback, hin, hin₂, hin₃, hin₄, ← hhead]
    simp only [List.cons_append, List.nil_append, List.append_assoc]

theorem LengthForm.eq_sixtyFour {form : LengthForm} (hholds : form.Holds n) (h : form.field n = 127) :
    form = .sixtyFour := by
  cases form with
  | seven =>
      have hn : n ≤ 125 := hholds
      have hvalue := congrArg UInt8.toNat h
      rw [LengthForm.field, UInt8.toNat_ofNat'] at hvalue
      change n % 2 ^ 8 = 127 at hvalue
      omega
  | sixteen => exact absurd h (by decide : ¬ (126 : UInt8) = 127)
  | sixtyFour => rfl

/-- **A length above the limit** is rejected. -/
theorem wsReadFrame_too_long {malloc fin masked : Bool} {rsv : Fin 8} {opcode : Fin 16}
    (hlong : wsMaxFramePayload < n) (hn : n < 2 ^ 64)
    (hin : io.incoming = frameHead fin rsv opcode masked .sixtyFour n ++ rest) :
    wsReadFrame malloc io = none := by
  rw [Option.eq_none_iff_forall_not_mem]
  rintro ⟨frame, io'⟩ hread
  obtain ⟨e, -, hwire⟩ := encoding_of_wsReadFrame hread
  rw [hin, Encoding.wire, frameHead, frameHead, List.append_assoc] at hwire
  obtain ⟨-, hwire⟩ := List.cons.inj hwire
  obtain ⟨hsecond, hwire⟩ := List.cons.inj hwire
  have hfield : e.form.field e.payload.length = 127 := by
    have hseven := (secondByte_fields e.mask.isSome (LengthForm.field_lt e.holds)).2
    rw [← hsecond] at hseven
    exact hseven.symm.trans (secondByte_fields masked (by decide : (127 : UInt8) < 128)).2
  have hform := LengthForm.eq_sixtyFour e.holds hfield
  rw [hform] at hwire
  have hsame := (List.append_inj hwire (by rw [LengthForm.extended, LengthForm.extended, bigEndian_length,
    bigEndian_length])).1
  have hvalue := congrArg ofBigEndian hsame
  have hle := e.payload_le
  unfold wsMaxFramePayload at hle
  rw [LengthForm.extended, LengthForm.extended, ofBigEndian_bigEndian (by omega),
    ofBigEndian_bigEndian (by omega)] at hvalue
  unfold wsMaxFramePayload at hlong
  omega

/-! ### The frames the server sends -/

theorem frameHeader_eq (opcode : Fin 16) (n : Nat) :
    frameHeader (UInt8.ofNat opcode) n =
      frameHead true 0 opcode false
        (if n ≤ 125 then .seven else if n ≤ 0xFFFF then .sixteen else .sixtyFour) n := by
  have hfirst : 0x80 ||| (UInt8.ofNat opcode &&& 0x0F) = firstByte true 0 opcode := by
    revert opcode
    decide +kernel
  have hsecond : ∀ field, secondByte false field = field := by
    apply byte_cases
    decide +kernel
  unfold frameHeader frameHead
  simp only [hfirst, hsecond]
  split_ifs
  · rfl
  · simp [LengthForm.field, LengthForm.extended, bigEndian]
  · simp [LengthForm.field, LengthForm.extended, bigEndian, List.range_succ]

theorem wsFrame_encoding (opcode : Fin 16) {payload : Bytes} (hle : payload.length ≤ wsMaxFramePayload) :
    ∃ e : Encoding, e.frame = ⟨UInt8.ofNat opcode, true, payload⟩ ∧
      e.wire = wsFrame (UInt8.ofNat opcode) payload := by
  have hholds : (if payload.length ≤ 125 then LengthForm.seven
      else if payload.length ≤ 0xFFFF then .sixteen else .sixtyFour).Holds payload.length := by
    unfold wsMaxFramePayload at hle
    split_ifs with h₁ h₂
    · exact h₁
    · exact h₂
    · change payload.length < 2 ^ 64
      omega
  refine ⟨⟨true, 0, opcode, _, none, payload, hholds, hle, by simp⟩, rfl, ?_⟩
  rw [Encoding.wire, wsFrame, frameHeader_eq]
  rfl

/-- **The frame codec.** However a stream is split across `recv` calls: an encoding of a frame is read
back as that frame, with exactly its bytes consumed, and a sequence of encodings as the sequence of their
frames; what is accepted has an encoding, and a declared length above the limit is rejected; and what
`ws_send_frame` sends is read back with `FIN`, the opcode and the payload. -/
theorem ws_frame_codec :
    (∀ (e : Encoding) (rest : Bytes) (io : WsInput), io.Flows → io.incoming = e.wire ++ rest →
      ∃ io', wsReadFrame true io = some (⟨UInt8.ofNat e.opcode, e.fin, e.payload⟩, io') ∧
        io'.incoming = rest) ∧
    (∀ (es : List Encoding) (rest : Bytes) (io : WsInput), io.Flows →
      io.incoming = es.flatMap Encoding.wire ++ rest →
      ∃ io', readFrames true es.length io = some (es.map Encoding.frame, io') ∧ io'.incoming = rest) ∧
    (∀ (malloc : Bool) (io io' : WsInput) (frame : WsFrame), wsReadFrame malloc io = some (frame, io') →
      ∃ e : Encoding, e.frame = frame ∧ io.incoming = e.wire ++ io'.incoming) ∧
    (∀ (malloc : Bool) (io : WsInput) (fin masked : Bool) (rsv : Fin 8) (opcode : Fin 16) (n : Nat)
      (rest : Bytes), wsMaxFramePayload < n → n < 2 ^ 64 →
      io.incoming = frameHead fin rsv opcode masked .sixtyFour n ++ rest → wsReadFrame malloc io = none) ∧
    (∀ (opcode : Fin 16) (payload : Bytes), payload.length ≤ wsMaxFramePayload →
      ∀ out out' : WsIo, wsSendFrame out (UInt8.ofNat opcode) payload = (true, out') →
      ∃ bytes, out'.sent = out.sent ++ bytes ∧
        ∀ (rest : Bytes) (io : WsInput), io.Flows → io.incoming = bytes ++ rest →
        ∃ io', wsReadFrame true io = some (⟨UInt8.ofNat opcode, true, payload⟩, io') ∧
          io'.incoming = rest) := by
  refine ⟨?_, ?_, ?_, ?_, ?_⟩
  · intro e rest io hflows hin
    obtain ⟨io', hread, hin', -⟩ := wsReadFrame_wire e hflows hin
    exact ⟨io', hread, hin'⟩
  · intro es rest io hflows hin
    exact readFrames_wire es hflows hin
  · intro malloc io io' frame h
    exact encoding_of_wsReadFrame h
  · intro malloc io fin masked rsv opcode n rest hlong hn hin
    exact wsReadFrame_too_long hlong hn hin
  · intro opcode payload hle out out' hsend
    rw [wsSendFrame_eq] at hsend
    obtain ⟨hall, rfl⟩ := Prod.mk.inj hsend
    obtain ⟨e, hframe, hwire⟩ := wsFrame_encoding opcode hle
    refine ⟨wsFrame (UInt8.ofNat opcode) payload, ?_, fun rest io hflows hin => ?_⟩
    · rw [List.take_of_length_le (of_decide_eq_true hall)]
    · rw [← hwire] at hin
      obtain ⟨io', hread, hin', -⟩ := wsReadFrame_wire e hflows hin
      rw [hframe] at hread
      exact ⟨io', hread, hin'⟩

/-- A masked text frame that arrives byte by byte, and a byte behind it; the key begins again with the fifth byte. -/
theorem ws_frame_codec_hello :
    ∃ io', wsReadFrame true ⟨[0x81, 0x86, 0x37, 0xfa, 0x21, 0x3d, 0x7f, 0x9f, 0x4d, 0x51, 0x58, 0xdb, 0x7f],
        fun _ => 1, 0⟩ = some (⟨1, true, [0x48, 0x65, 0x6c, 0x6c, 0x6f, 0x21]⟩, io') ∧ io'.incoming = [0x7f] :=
  ws_frame_codec.1
    ⟨true, 0, 1, .seven, some [0x37, 0xfa, 0x21, 0x3d], [0x48, 0x65, 0x6c, 0x6c, 0x6f, 0x21], (by decide : 6 ≤ 125),
      by decide, by simp⟩ [0x7f] _ (fun _ => Nat.one_pos) (by decide +kernel)

end OttQuic.WebSocket
