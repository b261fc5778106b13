import OttQuic.Lib.Base64
import OttQuic.Lib.Memory
import OttQuic.Server.Opening

/-!
# The key of the handshake (`base64_encode`, `websocket_calculate_accept_key`)

`base64EncodeTo` is `base64_encode` with the buffer it writes to: one character after another, and every read and write
checked. What has been written and the text of the bytes that are left make up the text of the whole, so the loop ends
with all of it. `base64_encode_exact` says what is in the buffer then, for every input and every size.
-/

namespace OttQuic.Server

open Base64 BigEndian CString Memory WebSocket

/-! ### The function -/

/-- `i < len ? data[i] : 0`. -/
def octet (data : Bytes) (len i : UInt64) : Checked UInt32 :=
  if i < len then do
    let byte ← load data i.toNat 1
    return (byte.getD 0 0).toUInt32
  else return 0

/-- `table[x & 0x3F]`. -/
def base64Entry (x : UInt32) : UInt8 := base64Table.getD (x &&& 0x3F).toNat 0

/-- `out[j++] = c`. -/
def putChar (out : Bytes) (j : UInt64) (c : UInt8) : Checked (UInt64 × Bytes) := do
  let out ← store out j.toNat [c]
  return (j + 1, out)

/-- A pass of the loop of `base64_encode`. -/
def base64Pass (data : Bytes) (len i j : UInt64) (out : Bytes) : Checked (UInt64 × Bytes) := do
  let octetA ← octet data len i
  let octetB ← octet data len (i + 1)
  let octetC ← octet data len (i + 2)
  let triple := (octetA <<< 16) ||| (octetB <<< 8) ||| octetC
  let (j, out) ← putChar out j (base64Entry (triple >>> 18))
  let (j, out) ← putChar out j (base64Entry (triple >>> 12))
  let (j, out) ← putChar out j (if i + 1 < len then base64Entry (triple >>> 6) else 61)
  putChar out j (if i + 2 < len then base64Entry triple else 61)

/-- The loop of `base64_encode`. -/
def base64Loop (data : Bytes) (len : UInt64) : Nat → UInt64 → UInt64 → Bytes → Checked (UInt64 × Bytes)
  | 0, _, _, _ => .error .passes
  | fuel + 1, i, j, out =>
    if i < len then do
      let (j, out) ← base64Pass data len i j out
      base64Loop data len fuel (i + 3) j out
    else return (j, out)

/-- `base64_encode`: what it returns, and the buffer. -/
def base64EncodeTo (data : Bytes) (out : Bytes) (outSize : UInt64) : Checked (Int × Bytes) :=
  let len := UInt64.ofNat data.length
  let encodedLen := (len + 2) / 3 * 4
  if outSize < encodedLen + 1 then return (-1, out)
  else do
    let (j, out) ← base64Loop data len (data.length + 1) 0 0 out
    let out ← store out j.toNat [0]
    return (0, out)

/-! ### The alphabet -/

theorem base64Table_eq (digit : Fin 64) : base64Table.getD digit.val 0 = standard.char digit := by
  revert digit
  decide +kernel

theorem base64Entry_eq {x shift : UInt32} {k : Nat} (hshift : shift.toNat % 32 = 6 * k) :
    base64Entry (x >>> shift) = standard.char (digit x.toNat k) := by
  have hbits : ((x >>> shift) &&& 0x3F).toNat = x.toNat / 64 ^ k % 64 := by
    rw [UInt32.toNat_and, UInt32.toNat_shiftRight, hshift, Nat.shiftRight_eq_div_pow, Nat.pow_mul]
    exact Nat.and_two_pow_sub_one_eq_mod _ 6
  rw [base64Entry, hbits]
  exact base64Table_eq (digit x.toNat k)

theorem triple_eq (a b c : UInt8) :
    ((a.toUInt32 <<< 16) ||| (b.toUInt32 <<< 8) ||| c.toUInt32).toNat = ofBigEndian [a, b, c] := by
  have hbytes := or_bytes 0 a b c
  have hzero : (0 : UInt8).toUInt32 <<< 24 = 0 := rfl
  have hlt : ofBigEndian [a, b, c] < 256 ^ 3 := ofBigEndian_lt [a, b, c]
  rw [hzero, UInt32.zero_or] at hbytes
  rw [hbytes, UInt32.toNat_ofNat', ofBigEndian, UInt8.toNat_zero, Nat.zero_mul, Nat.zero_add]
  exact Nat.mod_eq_of_lt (Nat.lt_trans hlt (by decide))

/-! ### The text -/

theorem base64Group_eq (data : Bytes) (i : Nat) : base64Group data i = standard.group (data.drop i) := by
  have hget (k : Nat) : (data.drop i).getD k 0 = data.getD (i + k) 0 := by
    rw [List.getD_eq_getElem?_getD, List.getD_eq_getElem?_getD, List.getElem?_drop]
  have hin (k : Nat) : k < (data.drop i).length ↔ i + k < data.length := by
    rw [List.length_drop]
    omega
  have hentry {shift : UInt32} {k : Nat} (hshift : shift.toNat % 32 = 6 * k) :
      base64Entry (((data.getD i 0).toUInt32 <<< 16 ||| (data.getD (i + 1) 0).toUInt32 <<< 8 |||
        (data.getD (i + 2) 0).toUInt32) >>> shift) =
      standard.char (digit (ofBigEndian [data.getD i 0, data.getD (i + 1) 0, data.getD (i + 2) 0]) k) := by
    rw [base64Entry_eq hshift, triple_eq]
  rw [Alphabet.group, hget, hget, hget, Nat.add_zero, ← hentry (by decide : (18 : UInt32).toNat % 32 = 6 * 3),
    ← hentry (by decide : (12 : UInt32).toNat % 32 = 6 * 2), ← hentry (by decide : (6 : UInt32).toNat % 32 = 6 * 1),
    ← hentry (by decide : (0 : UInt32).toNat % 32 = 6 * 0)]
  simp only [hin]
  rfl

section

variable {data s tail : Bytes} {fuel i m : Nat}

theorem encode_drop (hi : i < data.length) :
    encode standard (data.drop i) = base64Group data i ++ encode standard (data.drop (i + 3)) := by
  have hsome : data.drop i ≠ [] := fun hnil => Nat.not_le_of_lt hi (List.drop_eq_nil_iff.mp hnil)
  rw [encode_of_ne_nil standard hsome, base64Group_eq, List.drop_drop]

theorem flatMap_base64Group (hm : m = (data.length - i + 2) / 3) :
    (List.range m).flatMap (fun group => base64Group data (i + group * 3)) = encode standard (data.drop i) := by
  induction m generalizing i with
  | zero =>
      rw [List.drop_of_length_le (by omega)]
      rfl
  | succ m ih =>
      have hrest := @ih (i + 3) (by omega)
      rw [List.range_succ_eq_map, List.flatMap_cons, List.flatMap_map, encode_drop (by omega), ← hrest]
      simp only [Nat.zero_mul, Nat.add_zero, Nat.succ_mul, Nat.add_assoc, Nat.add_comm 3]

theorem base64Encode_eq (data : Bytes) (outSize : Nat) :
    base64Encode data outSize =
      if 4 * ((data.length + 2) / 3) + 1 ≤ outSize then some (encode standard data) else none := by
  have hgroups := @flatMap_base64Group data 0 _ rfl
  simp only [Nat.zero_add, Nat.sub_zero, List.drop_zero] at hgroups
  rw [base64Encode, hgroups]
  by_cases hfits : 4 * ((data.length + 2) / 3) + 1 ≤ outSize
  · rw [if_neg (by omega), if_pos hfits]
  · rw [if_pos (by omega), if_neg hfits]

/-! ### The run -/

theorem octet_ok (hdata : data.length < 2 ^ 64) (hi : i < 2 ^ 64) :
    octet data (UInt64.ofNat data.length) (UInt64.ofNat i) = .ok (data.getD i 0).toUInt32 := by
  rw [octet, UInt64.toNat_ofNat_of_lt' hi]
  simp only [UInt64.ofNat_lt_iff_lt hi hdata]
  split_ifs with hin
  · rw [load_one hin, bind_ok, List.getD_eq_getElem?_getD, List.getD_eq_getElem?_getD, List.getElem?_eq_getElem hin]
    rfl
  · rw [List.getD_eq_getElem?_getD, List.getElem?_eq_none (Nat.le_of_not_lt hin)]
    rfl

theorem putChar_ok (c : UInt8) (hs : s.length < 2 ^ 64) (htail : 0 < tail.length) :
    putChar (s ++ tail) (UInt64.ofNat s.length) c = .ok (UInt64.ofNat (s ++ [c]).length, s ++ [c] ++ tail.drop 1) := by
  have hroom : [c].length ≤ tail.length := htail
  rw [putChar, UInt64.toNat_ofNat_of_lt' hs, store_append hroom, bind_ok, List.length_append, List.length_singleton,
    UInt64.ofNat_add]
  rfl

theorem base64Pass_ok (hdata : data.length < 2 ^ 63) (hi : i < data.length) (hs : s.length + 4 ≤ 2 ^ 64)
    (htail : 4 ≤ tail.length) :
    base64Pass data (UInt64.ofNat data.length) (UInt64.ofNat i) (UInt64.ofNat s.length) (s ++ tail) =
      .ok (UInt64.ofNat (s ++ base64Group data i).length, s ++ base64Group data i ++ tail.drop 4) := by
  have hone : UInt64.ofNat i + 1 = UInt64.ofNat (i + 1) := (UInt64.ofNat_add i 1).symm
  have htwo : UInt64.ofNat i + 2 = UInt64.ofNat (i + 2) := (UInt64.ofNat_add i 2).symm
  have hlen : data.length < UInt64.size := Nat.lt_trans hdata (by decide)
  have hsize : i + 2 < UInt64.size := Nat.lt_trans (by omega : i + 2 < 2 ^ 63 + 2) (by decide)
  rw [base64Pass, hone, htwo, octet_ok hlen (by omega), bind_ok, octet_ok hlen (by omega), bind_ok,
    octet_ok hlen (by omega), bind_ok]
  simp only [UInt64.ofNat_lt_iff_lt (Nat.lt_of_succ_lt hsize) hlen, UInt64.ofNat_lt_iff_lt hsize hlen]
  rw [putChar_ok _ (by omega) (by omega), bind_ok]
  dsimp only
  rw [putChar_ok _ (by simp; omega) (by simp; omega), bind_ok]
  dsimp only
  rw [putChar_ok _ (by simp; omega) (by simp; omega), bind_ok]
  dsimp only
  rw [putChar_ok _ (by simp; omega) (by simp; omega)]
  simp only [List.append_assoc, List.drop_drop]
  rfl

theorem base64Loop_ok (hdata : data.length < 2 ^ 63) (hi : i < data.length + 3) (hfuel : data.length - i < fuel)
    (hs : s.length + (encode standard (data.drop i)).length ≤ 2 ^ 64)
    (htail : (encode standard (data.drop i)).length ≤ tail.length) :
    let text := encode standard (data.drop i)
    base64Loop data (UInt64.ofNat data.length) fuel (UInt64.ofNat i) (UInt64.ofNat s.length) (s ++ tail) =
      .ok (UInt64.ofNat (s ++ text).length, s ++ text ++ tail.drop text.length) := by
  have hlen : data.length < UInt64.size := Nat.lt_trans hdata (by decide)
  induction fuel generalizing i s tail with
  | zero => omega
  | succ fuel ih =>
      have hsize : i < UInt64.size := Nat.lt_trans (by omega : i < 2 ^ 63 + 3) (by decide)
      dsimp only
      rw [base64Loop]
      simp only [UInt64.ofNat_lt_iff_lt hsize hlen]
      split_ifs with hin
      · have hgroup : (base64Group data i).length = 4 := rfl
        have hlength := congrArg List.length (encode_drop hin)
        rw [List.length_append, hgroup] at hlength
        have hrest := @ih (s ++ base64Group data i) (tail.drop 4) (i + 3) (by omega) (by omega)
          (by rw [List.length_append]; omega) (by rw [List.length_drop]; omega)
        have hthree : UInt64.ofNat i + 3 = UInt64.ofNat (i + 3) := (UInt64.ofNat_add i 3).symm
        rw [base64Pass_ok hdata hin (by omega) (by omega), bind_ok]
        dsimp only
        rw [hthree, hrest, hlength, encode_drop hin, List.drop_drop, List.append_assoc s]
      · rw [List.drop_of_length_le (Nat.le_of_not_lt hin), encode, List.append_nil]
        rfl

end

/-- What the standard asks of a text for these bytes. -/
structure TextOf (data text : Bytes) : Prop where
  length : text.length = 4 * ((data.length + 2) / 3)
  padding : ∃ digits : List (Fin 64),
    text = digits.map standard.char ++ List.replicate ((3 - data.length % 3) % 3) standard.pad
  decodes : decode standard text = some data

theorem textOf_encode (data : Bytes) : TextOf data (encode standard data) where
  length := length_encode standard data
  padding := encode_padding standard data
  decodes := decode_encode standard data

/-- The memory from `out` on, and the size that is passed for it. -/
structure OutBuffer where
  bytes : Bytes
  size : UInt64
  holds : size.toNat ≤ bytes.length

theorem base64EncodeTo_eq (data : Object) (out : OutBuffer) :
    base64EncodeTo data.val out.bytes out.size =
      .ok ((base64Encode data.val out.size.toNat).elim (-1, out.bytes) fun text =>
        (0, text ++ 0 :: out.bytes.drop (text.length + 1))) := by
  have hdata := data.property
  have hlen : data.val.length < UInt64.size := Nat.lt_trans hdata (by decide)
  have hneed : ((UInt64.ofNat data.val.length + 2) / 3 * 4 + 1).toNat = 4 * ((data.val.length + 2) / 3) + 1 := by
    rw [UInt64.toNat_add, UInt64.toNat_mul, UInt64.toNat_div, UInt64.toNat_add, UInt64.toNat_ofNat_of_lt' hlen]
    show ((data.val.length + 2) % 2 ^ 64 / 3 * 4 % 2 ^ 64 + 1) % 2 ^ 64 = _
    omega
  have hlength := length_encode standard data.val
  have hholds := out.holds
  have hsize := out.size.toNat_lt
  rw [base64EncodeTo, base64Encode_eq]
  simp only [UInt64.lt_iff_toNat_lt, hneed]
  split_ifs with hshort hfits hfits
  · omega
  · rfl
  · have hloop := @base64Loop_ok data.val [] out.bytes (data.val.length + 1) 0 hdata (by omega) (by omega)
      (by rw [List.drop_zero, hlength, List.length_nil]; omega) (by rw [List.drop_zero, hlength]; omega)
    have hroom : [(0 : UInt8)].length ≤ (out.bytes.drop (encode standard data.val).length).length := by
      rw [List.length_drop, List.length_singleton]
      omega
    have hlt : (encode standard data.val).length < 2 ^ 64 := by omega
    simp only [List.drop_zero, List.nil_append, List.length_nil] at hloop
    rw [show (0 : UInt64) = UInt64.ofNat 0 from rfl, hloop, bind_ok]
    dsimp only
    rw [UInt64.toNat_ofNat_of_lt' hlt, store_append hroom, bind_ok, List.drop_drop,
      List.append_assoc]
    rfl
  · omega

/-- **`base64_encode`** writes the text and a NUL if they fit, and nothing otherwise. -/
theorem base64_encode_exact (data : Object) (out : OutBuffer) :
    if 4 * ((data.val.length + 2) / 3) + 1 ≤ out.size.toNat then
      ∃ text, TextOf data.val text ∧
        base64EncodeTo data.val out.bytes out.size = .ok (0, text ++ 0 :: out.bytes.drop (text.length + 1))
    else base64EncodeTo data.val out.bytes out.size = .ok (-1, out.bytes) := by
  rw [base64EncodeTo_eq, base64Encode_eq]
  split_ifs with hfits
  · exact ⟨_, textOf_encode data.val, rfl⟩
  · rfl

/-- Two bytes take five bytes with their NUL; four are not enough. -/
theorem base64_encode_exact_two :
    (∃ text, TextOf [0xff, 0x00] text ∧
        base64EncodeTo [0xff, 0x00] [1, 2, 3, 4, 5, 6] 5 = .ok (0, text ++ 0 :: [1, 2, 3, 4, 5, 6].drop (text.length + 1))) ∧
      base64EncodeTo [0xff, 0x00] [1, 2, 3, 4, 5, 6] 4 = .ok (-1, [1, 2, 3, 4, 5, 6]) := by
  have hfits := base64_encode_exact ⟨[0xff, 0x00], by decide⟩ ⟨[1, 2, 3, 4, 5, 6], 5, by decide⟩
  have hshort := base64_encode_exact ⟨[0xff, 0x00], by decide⟩ ⟨[1, 2, 3, 4, 5, 6], 4, by decide⟩
  rw [if_pos (by decide)] at hfits
  rw [if_neg (by decide)] at hshort
  exact ⟨hfits, hshort⟩

theorem websocketCalculateAcceptKey_eq (stack : Vector UInt8 64) {clientKey : Bytes} {outSize : Nat}
    (hkey : clientKey.length + wsGuid.length < 128) (hsize : 28 < outSize) :
    websocketCalculateAcceptKey stack clientKey outSize =
      some (encode standard (Fips180.sha1 (clientKey ++ wsGuid))) := by
  have hhash : sha1Compute stack (clientKey ++ wsGuid) = Fips180.sha1 (clientKey ++ wsGuid) :=
    ((sha1Init_holds stack).update _).final
  rw [websocketCalculateAcceptKey, if_neg (Nat.not_le_of_lt hkey), hhash, base64Encode_eq, Fips180.sha1_length]
  exact if_pos hsize

end OttQuic.Server
