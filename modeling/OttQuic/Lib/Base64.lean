import Mathlib.Data.List.FinRange
import OttQuic.Lib.BigEndian

/-!
# Base64 as the standard defines it (RFC 4648)

Three bytes are a number below `2 ^ 24`, and so are four digits of six bits; a group of bytes is written as the digits
of its number. A last group of one or two bytes is filled up with zeros, and the digits that hold none of its bits are
replaced by padding. `decode` reads what is written in this way and nothing else: the padding is at the end, and the
bits between the last byte and the padding are zero.
-/

namespace Base64

open BigEndian

/-- 64 characters for the digits, and one for the padding. -/
structure Alphabet (α : Type) where
  char : Fin 64 → α
  pad : α
  injective : Function.Injective char
  fresh : ∀ digit, char digit ≠ pad

/-- `A` to `Z`, `a` to `z`, `0` to `9`, `+` and `/`; the padding is `=`. -/
def standard : Alphabet UInt8 where
  char digit :=
    if digit.val < 26 then UInt8.ofNat (65 + digit.val)
    else if digit.val < 52 then UInt8.ofNat (97 + (digit.val - 26))
    else if digit.val < 62 then UInt8.ofNat (48 + (digit.val - 52))
    else if digit.val = 62 then 43 else 47
  pad := 61
  injective a b h := by
    have hnat := congrArg UInt8.toNat h
    simp only [apply_ite UInt8.toNat, UInt8.toNat_ofNat', UInt8.reduceToNat] at hnat
    split_ifs at hnat <;> omega
  fresh := by decide +kernel

/-- Digit `k` of a number, where digit 0 is the last one. -/
def digit (n k : Nat) : Fin 64 := Fin.ofNat 64 (n / 64 ^ k)

/-- The number of a group of digits. -/
def ofDigits (a b c d : Fin 64) : Nat := ((a.val * 64 + b.val) * 64 + c.val) * 64 + d.val

/-- The first `k` of the three bytes of a number; the others have to be zero. -/
def leading (k n : Nat) : Option (List UInt8) :=
  if n % 256 ^ (3 - k) = 0 then some ((bigEndian 3 n).take k) else none

variable {α : Type}

def encode (alphabet : Alphabet α) : List UInt8 → List α
  | [] => []
  | [a] =>
    let n := ofBigEndian [a, 0, 0]
    [alphabet.char (digit n 3), alphabet.char (digit n 2), alphabet.pad, alphabet.pad]
  | [a, b] =>
    let n := ofBigEndian [a, b, 0]
    [alphabet.char (digit n 3), alphabet.char (digit n 2), alphabet.char (digit n 1), alphabet.pad]
  | a :: b :: c :: rest =>
    let n := ofBigEndian [a, b, c]
    [alphabet.char (digit n 3), alphabet.char (digit n 2), alphabet.char (digit n 1), alphabet.char (digit n 0)] ++
      encode alphabet rest

/-- The first group of a text: where a byte is missing, there is no digit. -/
def Alphabet.group (alphabet : Alphabet α) (data : List UInt8) : List α :=
  let n := ofBigEndian [data.getD 0 0, data.getD 1 0, data.getD 2 0]
  [alphabet.char (digit n 3), alphabet.char (digit n 2),
    if 1 < data.length then alphabet.char (digit n 1) else alphabet.pad,
    if 2 < data.length then alphabet.char (digit n 0) else alphabet.pad]

/-- The digit that a character stands for. -/
def Alphabet.value [DecidableEq α] (alphabet : Alphabet α) (c : α) : Option (Fin 64) :=
  (List.finRange 64).find? fun digit => alphabet.char digit = c

/-- The bytes of a group that ends with padding. -/
def decodeLast [DecidableEq α] (alphabet : Alphabet α) (w x y : α) : Option (List UInt8) := do
  let a ← alphabet.value w
  let b ← alphabet.value x
  if y = alphabet.pad then leading 1 (ofDigits a b 0 0)
  else
    let c ← alphabet.value y
    leading 2 (ofDigits a b c 0)

def decode [DecidableEq α] (alphabet : Alphabet α) : List α → Option (List UInt8)
  | [] => some []
  | w :: x :: y :: z :: rest =>
    if z = alphabet.pad then
      if rest = [] then decodeLast alphabet w x y else none
    else do
      let a ← alphabet.value w
      let b ← alphabet.value x
      let c ← alphabet.value y
      let d ← alphabet.value z
      let bytes ← leading 3 (ofDigits a b c d)
      let more ← decode alphabet rest
      return bytes ++ more
  | _ => none

variable {n : Nat} (alphabet : Alphabet α) (a b c : UInt8)

/-! ### Groups -/

theorem ofDigits_digit (h : n < 256 ^ 3) : ofDigits (digit n 3) (digit n 2) (digit n 1) (digit n 0) = n := by
  simp only [ofDigits, digit, Fin.ofNat]
  omega

theorem ofBigEndian_group_lt : ofBigEndian [a, b, c] < 256 ^ 3 := ofBigEndian_lt [a, b, c]

theorem digit_one_byte : digit (ofBigEndian [a, 0, 0]) 1 = 0 ∧ digit (ofBigEndian [a, 0, 0]) 0 = 0 := by
  simp only [digit, ofBigEndian, List.length_cons, List.length_nil, UInt8.toNat_zero, Fin.ext_iff, Fin.ofNat,
    Fin.val_zero]
  omega

theorem digit_two_bytes : digit (ofBigEndian [a, b, 0]) 0 = 0 := by
  simp only [digit, ofBigEndian, List.length_cons, List.length_nil, UInt8.toNat_zero, Fin.ext_iff, Fin.ofNat,
    Fin.val_zero]
  omega

theorem leading_one : leading 1 (ofBigEndian [a, 0, 0]) = some [a] := by
  have hzero : ofBigEndian [a, 0, 0] % 256 ^ (3 - 1) = 0 := by
    simp only [ofBigEndian, List.length_cons, List.length_nil, UInt8.toNat_zero]
    omega
  rw [leading, if_pos hzero]
  exact congrArg (fun bytes => some (bytes.take 1)) (bigEndian_ofBigEndian [a, 0, 0])

theorem leading_two : leading 2 (ofBigEndian [a, b, 0]) = some [a, b] := by
  have hzero : ofBigEndian [a, b, 0] % 256 ^ (3 - 2) = 0 := by
    simp only [ofBigEndian, List.length_cons, List.length_nil, UInt8.toNat_zero]
    omega
  rw [leading, if_pos hzero]
  exact congrArg (fun bytes => some (bytes.take 2)) (bigEndian_ofBigEndian [a, b, 0])

theorem leading_three : leading 3 (ofBigEndian [a, b, c]) = some [a, b, c] := by
  have hzero : ofBigEndian [a, b, c] % 256 ^ (3 - 3) = 0 := Nat.mod_one _
  rw [leading, if_pos hzero]
  exact congrArg (fun bytes => some (bytes.take 3)) (bigEndian_ofBigEndian [a, b, c])

/-! ### Texts -/

theorem length_encode (data : List UInt8) : (encode alphabet data).length = 4 * ((data.length + 2) / 3) := by
  induction data using encode.induct with
  | case1 => rfl
  | case2 a => exact (by decide : 4 = 4 * ((1 + 2) / 3))
  | case3 a b => exact (by decide : 4 = 4 * ((2 + 2) / 3))
  | case4 a b c rest ih =>
      rw [encode, List.length_append, ih]
      simp only [List.length_cons, List.length_nil]
      omega

theorem encode_padding (data : List UInt8) :
    ∃ digits : List (Fin 64), encode alphabet data =
      digits.map alphabet.char ++ List.replicate ((3 - data.length % 3) % 3) alphabet.pad := by
  induction data using encode.induct with
  | case1 => exact ⟨[], rfl⟩
  | case2 a =>
      rw [encode]
      exact ⟨[digit (ofBigEndian [a, 0, 0]) 3, digit (ofBigEndian [a, 0, 0]) 2], rfl⟩
  | case3 a b =>
      rw [encode]
      exact ⟨[digit (ofBigEndian [a, b, 0]) 3, digit (ofBigEndian [a, b, 0]) 2, digit (ofBigEndian [a, b, 0]) 1], rfl⟩
  | case4 a b c rest ih =>
      obtain ⟨digits, hrest⟩ := ih
      let n := ofBigEndian [a, b, c]
      refine ⟨[digit n 3, digit n 2, digit n 1, digit n 0] ++ digits, ?_⟩
      rw [encode, hrest, List.map_append, List.append_assoc]
      simp only [List.length_cons, Nat.add_mod_right, Nat.add_assoc]
      rfl

theorem encode_of_ne_nil {data : List UInt8} (h : data ≠ []) :
    encode alphabet data = alphabet.group data ++ encode alphabet (data.drop 3) := by
  cases data using encode.fun_cases with
  | case1 => exact absurd rfl h
  | case2 a => rfl
  | case3 a b => rfl
  | case4 a b c rest =>
      rw [encode, Alphabet.group, List.length_cons, List.length_cons, List.length_cons, if_pos (by omega),
        if_pos (by omega)]
      rfl

variable [DecidableEq α]

theorem Alphabet.value_char (d : Fin 64) : alphabet.value (alphabet.char d) = some d := by
  rw [Alphabet.value]
  cases hfound : (List.finRange 64).find? fun digit => alphabet.char digit = alphabet.char d with
  | none =>
      have hnot := List.find?_eq_none.mp hfound d (List.mem_finRange d)
      exact absurd (decide_eq_true rfl) hnot
  | some e =>
      have hsame := List.find?_some hfound
      rw [alphabet.injective (of_decide_eq_true hsame)]

section

variable (w x y z : Fin 64)

theorem decode_one : decode alphabet [alphabet.char w, alphabet.char x, alphabet.pad, alphabet.pad] =
    leading 1 (ofDigits w x 0 0) := by
  rw [decode, if_pos rfl, if_pos rfl, decodeLast, alphabet.value_char, alphabet.value_char]
  exact if_pos rfl

theorem decode_two : decode alphabet [alphabet.char w, alphabet.char x, alphabet.char y, alphabet.pad] =
    leading 2 (ofDigits w x y 0) := by
  rw [decode, if_pos rfl, if_pos rfl, decodeLast, alphabet.value_char, alphabet.value_char]
  show (if _ then _ else _) = _
  rw [if_neg (alphabet.fresh y), alphabet.value_char]
  rfl

theorem decode_three {bytes data : List UInt8} {rest : List α} (hbytes : leading 3 (ofDigits w x y z) = some bytes)
    (hrest : decode alphabet rest = some data) :
    decode alphabet (alphabet.char w :: alphabet.char x :: alphabet.char y :: alphabet.char z :: rest) =
      some (bytes ++ data) := by
  rw [decode, if_neg (alphabet.fresh z), hrest]
  simp only [alphabet.value_char, Option.bind_eq_bind, Option.bind_some, hbytes]
  rfl

end

/-- **What is encoded** is read back. -/
theorem decode_encode (data : List UInt8) : decode alphabet (encode alphabet data) = some data := by
  induction data using encode.induct with
  | case1 => rfl
  | case2 a =>
      obtain ⟨hone, hzero⟩ := digit_one_byte a
      have hnumber := ofDigits_digit (ofBigEndian_group_lt a 0 0)
      rw [hone, hzero] at hnumber
      rw [encode, decode_one, hnumber, leading_one]
  | case3 a b =>
      have hnumber := ofDigits_digit (ofBigEndian_group_lt a b 0)
      rw [digit_two_bytes] at hnumber
      rw [encode, decode_two, hnumber, leading_two]
  | case4 a b c rest ih =>
      have hnumber := ofDigits_digit (ofBigEndian_group_lt a b c)
      rw [encode]
      exact decode_three alphabet _ _ _ _ (by rw [hnumber, leading_three]) ih

-- "Ma" is "TWE="
example : encode standard [77, 97] = [84, 87, 69, 61] := by decide

end Base64
