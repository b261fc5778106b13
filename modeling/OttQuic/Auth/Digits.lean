import Mathlib.Tactic.IntervalCases
import OttQuic.Auth.Blowfish

/-!
# The digits of a hash (`BF_encode`, `BF_decode`)

Salt and digest are written in digits of six bits, without padding. `BF_decode` does not look at the bits of the last
digit that belong to no byte, so a text is not always what its bytes would be written as: `bfEncode_of_bfDecode`
says which texts are read, and that they differ from it in these bits only.
-/

namespace OttQuic.Auth

open CString

variable {n : Nat} {c d d1 d2 d3 d4 : UInt8} {src bs : Bytes}

/-! ### Digits -/

theorem bfSafeAtoi64_bfItoa64 (h : d < 64) : bfSafeAtoi64 (bfItoa64 d) = some d := by
  have hall : ∀ n : Fin 64, bfSafeAtoi64 (bfItoa64 (UInt8.ofNat n)) = some (UInt8.ofNat n) := by decide +kernel
  have hd := hall ⟨d.toNat, UInt8.lt_iff_toNat_lt.mp h⟩
  rwa [UInt8.ofNat_toNat] at hd

theorem bfSafeAtoi64_some (h : bfSafeAtoi64 c = some d) : d < 64 ∧ bfItoa64 d = c ∧ bfAtoi64 (c - 0x20) = d := by
  have hall : ∀ n : Fin 256, ∀ d ∈ bfSafeAtoi64 (UInt8.ofNat n),
      d < 64 ∧ bfItoa64 d = UInt8.ofNat n ∧ bfAtoi64 (UInt8.ofNat n - 0x20) = d := by
    decide +kernel
  have hc := hall ⟨c.toNat, c.toNat_lt⟩
  rw [UInt8.ofNat_toNat] at hc
  exact hc d h

/-! ### Three bytes, four digits -/

section

theorem byte_ext {a b : UInt8} (h : ∀ i < 8, a.toBitVec.getLsbD i = b.toBitVec.getLsbD i) : a = b :=
  UInt8.toBitVec_inj.mp (BitVec.eq_of_getLsbD_eq h)

theorem digit_bits (h : d < 64) : d.toBitVec[6] = false ∧ d.toBitVec[7] = false := by
  have hlt : d.toNat < 2 ^ 6 := UInt8.lt_iff_toNat_lt.mp h
  exact ⟨Nat.testBit_lt_two_pow hlt, Nat.testBit_lt_two_pow (Nat.lt_trans hlt (by decide))⟩

variable (c1 c2 c3 : UInt8)

theorem digits_lt : c1 >>> 2 < 64 ∧ (c1 &&& 0x03) <<< 4 ||| c2 >>> 4 < 64 ∧ (c2 &&& 0x0f) <<< 2 ||| c3 >>> 6 < 64 ∧
    c3 &&& 0x3f < 64 := by
  have hlt {d : UInt8} (h : d &&& 0x3f = d) : d < 64 := by
    rw [UInt8.lt_iff_toNat_lt, ← h, UInt8.toNat_and]
    exact Nat.lt_of_le_of_lt Nat.and_le_right (by decide)
  refine ⟨hlt (byte_ext ?_), hlt (byte_ext ?_), hlt (byte_ext ?_), hlt (byte_ext ?_)⟩ <;>
    intro i hi <;> interval_cases i <;> simp

theorem firstByte : (c1 >>> 2) <<< 2 ||| (((c1 &&& 0x03) <<< 4 ||| c2 >>> 4) &&& 0x30) >>> 4 = c1 := by
  apply byte_ext
  intro i hi
  interval_cases i <;> simp

theorem secondByte : (((c1 &&& 0x03) <<< 4 ||| c2 >>> 4) &&& 0x0F) <<< 4 |||
    (((c2 &&& 0x0f) <<< 2 ||| c3 >>> 6) &&& 0x3C) >>> 2 = c2 := by
  apply byte_ext
  intro i hi
  interval_cases i <;> simp

theorem thirdByte : (((c2 &&& 0x0f) <<< 2 ||| c3 >>> 6) &&& 0x03) <<< 6 ||| (c3 &&& 0x3f) = c3 := by
  apply byte_ext
  intro i hi
  interval_cases i <;> simp

end

theorem firstDigit (h : d1 < 64) : (d1 <<< 2 ||| (d2 &&& 0x30) >>> 4) >>> 2 = d1 := by
  obtain ⟨hsix, hseven⟩ := digit_bits h
  apply byte_ext
  intro i hi
  interval_cases i <;> simp [hsix, hseven]

theorem secondDigit (h : d2 < 64) : ((d1 <<< 2 ||| (d2 &&& 0x30) >>> 4) &&& 0x03) <<< 4 |||
    ((d2 &&& 0x0F) <<< 4 ||| (d3 &&& 0x3C) >>> 2) >>> 4 = d2 := by
  obtain ⟨hsix, hseven⟩ := digit_bits h
  apply byte_ext
  intro i hi
  interval_cases i <;> simp [hsix, hseven]

theorem thirdDigit (h : d3 < 64) (h4 : d4 < 64) : (((d2 &&& 0x0F) <<< 4 ||| (d3 &&& 0x3C) >>> 2) &&& 0x0f) <<< 2 |||
    ((d3 &&& 0x03) <<< 6 ||| d4) >>> 6 = d3 := by
  obtain ⟨hsix, hseven⟩ := digit_bits h
  obtain ⟨hsix4, hseven4⟩ := digit_bits h4
  apply byte_ext
  intro i hi
  interval_cases i <;> simp [hsix, hseven, hsix4, hseven4]

theorem fourthDigit (d3 : UInt8) (h : d4 < 64) : ((d3 &&& 0x03) <<< 6 ||| d4) &&& 0x3f = d4 := by
  obtain ⟨hsix, hseven⟩ := digit_bits h
  apply byte_ext
  intro i hi
  interval_cases i <;> simp [hsix, hseven]

theorem lastOfTwo (d1 : UInt8) (h : d2 < 64) : ((d1 <<< 2 ||| (d2 &&& 0x30) >>> 4) &&& 0x03) <<< 4 = d2 &&& 0x30 := by
  obtain ⟨hsix, hseven⟩ := digit_bits h
  apply byte_ext
  intro i hi
  interval_cases i <;> simp [hsix, hseven]

theorem lastOfThree (d2 : UInt8) (h : d3 < 64) :
    (((d2 &&& 0x0F) <<< 4 ||| (d3 &&& 0x3C) >>> 2) &&& 0x0f) <<< 2 = d3 &&& 0x3c := by
  obtain ⟨hsix, hseven⟩ := digit_bits h
  apply byte_ext
  intro i hi
  interval_cases i <;> simp [hsix, hseven]

/-! ### Texts -/

theorem length_bfEncode (bs : Bytes) : (bfEncode bs).length = (4 * bs.length + 2) / 3 := by
  induction bs using bfEncode.induct with
  | case1 => rfl
  | case2 c1 => simp [bfEncode]
  | case3 c1 c2 => simp [bfEncode]
  | case4 c1 c2 c3 rest ih =>
      rw [bfEncode, List.length_append, ih]
      simp only [List.length_cons, List.length_nil]
      omega

/-- **What is written** is read back, whatever stands behind it. -/
theorem bfDecode_bfEncode (bs rest : Bytes) : bfDecode bs.length (bfEncode bs ++ rest) = some bs := by
  induction bs using bfEncode.induct with
  | case1 => rfl
  | case2 c1 =>
      obtain ⟨hfirst, hsecond, -, -⟩ := digits_lt c1 0 0
      have hbyte := firstByte c1 0
      simp only [UInt8.zero_shiftRight, UInt8.or_zero] at hsecond hbyte
      simp [bfEncode, bfDecode, bfSafeAtoi64_bfItoa64 hfirst, bfSafeAtoi64_bfItoa64 hsecond, hbyte]
  | case3 c1 c2 =>
      obtain ⟨hfirst, hsecond, hthird, -⟩ := digits_lt c1 c2 0
      have hbyte := secondByte c1 c2 0
      simp only [UInt8.zero_shiftRight, UInt8.or_zero] at hthird hbyte
      simp [bfEncode, bfDecode, bfSafeAtoi64_bfItoa64 hfirst, bfSafeAtoi64_bfItoa64 hsecond,
        bfSafeAtoi64_bfItoa64 hthird, firstByte, hbyte]
  | case4 c1 c2 c3 tail ih =>
      obtain ⟨hfirst, hsecond, hthird, hfourth⟩ := digits_lt c1 c2 c3
      simp [bfEncode, bfDecode, bfSafeAtoi64_bfItoa64 hfirst, bfSafeAtoi64_bfItoa64 hsecond,
        bfSafeAtoi64_bfItoa64 hthird, bfSafeAtoi64_bfItoa64 hfourth, firstByte, secondByte, thirdByte, ih]

theorem bfEncode_inj {bs' : Bytes} (hlength : bs.length = bs'.length) (h : bfEncode bs = bfEncode bs') : bs = bs' := by
  have hread := bfDecode_bfEncode bs []
  rw [h, hlength, bfDecode_bfEncode] at hread
  exact (Option.some.inj hread).symm

/-- The bits of the last digit that belong to a byte. -/
def lastBits (n : Nat) : UInt8 := if n % 3 = 1 then 0x30 else if n % 3 = 2 then 0x3c else 0x3f

theorem lastBits_add_three (n : Nat) : lastBits (n + 3) = lastBits n := by
  rw [lastBits, lastBits, Nat.add_mod_right]

/-- The last digit of a text of `size` bytes. -/
def lastDigit (size : Nat) (src : Bytes) : UInt8 :=
  bfItoa64 (bfAtoi64 (src.getD ((4 * size + 2) / 3 - 1) 0 - 0x20) &&& lastBits size)

theorem not_digit_nul : bfSafeAtoi64 0 = none := by decide

/-- **What is read** are digits, and they are those that the bytes are written with, but for the bits of the last one
that belong to no byte. -/
theorem bfEncode_of_bfDecode (hn : n ≠ 0) (h : bfDecode n src = some bs) :
    bs.length = n ∧ (4 * n + 2) / 3 ≤ src.length ∧
      bfEncode bs = src.take ((4 * n + 2) / 3 - 1) ++ [lastDigit n src] := by
  induction n, src using bfDecode.induct generalizing bs with
  | case1 => exact absurd rfl hn
  | case2 src =>
      match src with
      | [] => simp [bfDecode, not_digit_nul] at h
      | [c1] => simp [bfDecode, not_digit_nul] at h
      | c1 :: c2 :: rest =>
        simp only [bfDecode, List.getD_cons_zero, List.getD_cons_succ, Option.bind_eq_bind, Option.bind_eq_some_iff,
          Option.pure_def, Option.some.injEq] at h
        obtain ⟨d1, hd1, d2, hd2, rfl⟩ := h
        obtain ⟨hlt1, hchar1, -⟩ := bfSafeAtoi64_some hd1
        obtain ⟨hlt2, -, hdigit2⟩ := bfSafeAtoi64_some hd2
        refine ⟨rfl, by simp, ?_⟩
        simp [bfEncode, lastDigit, lastBits, firstDigit hlt1, lastOfTwo d1 hlt2, hchar1, hdigit2]
  | case3 src =>
      match src with
      | [] => simp [bfDecode, not_digit_nul] at h
      | [c1] => simp [bfDecode, not_digit_nul] at h
      | [c1, c2] => simp [bfDecode, not_digit_nul] at h
      | c1 :: c2 :: c3 :: rest =>
        simp only [bfDecode, List.getD_cons_zero, List.getD_cons_succ, Option.bind_eq_bind, Option.bind_eq_some_iff,
          Option.pure_def, Option.some.injEq] at h
        obtain ⟨d1, hd1, d2, hd2, d3, hd3, rfl⟩ := h
        obtain ⟨hlt1, hchar1, -⟩ := bfSafeAtoi64_some hd1
        obtain ⟨hlt2, hchar2, -⟩ := bfSafeAtoi64_some hd2
        obtain ⟨hlt3, -, hdigit3⟩ := bfSafeAtoi64_some hd3
        refine ⟨rfl, by simp, ?_⟩
        simp [bfEncode, lastDigit, lastBits, firstDigit hlt1, secondDigit hlt2, lastOfThree d2 hlt3, hchar1, hchar2,
          hdigit3]
  | case4 size src ih =>
      match src with
      | [] => simp [bfDecode, not_digit_nul] at h
      | [c1] => simp [bfDecode, not_digit_nul] at h
      | [c1, c2] => simp [bfDecode, not_digit_nul] at h
      | [c1, c2, c3] => simp [bfDecode, not_digit_nul] at h
      | c1 :: c2 :: c3 :: c4 :: rest =>
        simp only [bfDecode, List.getD_cons_zero, List.getD_cons_succ, Option.bind_eq_bind, Option.bind_eq_some_iff,
          Option.pure_def, Option.some.injEq] at h
        obtain ⟨d1, hd1, d2, hd2, d3, hd3, d4, hd4, tail, htail, rfl⟩ := h
        obtain ⟨hlt1, hchar1, -⟩ := bfSafeAtoi64_some hd1
        obtain ⟨hlt2, hchar2, -⟩ := bfSafeAtoi64_some hd2
        obtain ⟨hlt3, hchar3, -⟩ := bfSafeAtoi64_some hd3
        obtain ⟨hlt4, hchar4, hdigit4⟩ := bfSafeAtoi64_some hd4
        have hgroup : bfEncode ([d1 <<< 2 ||| (d2 &&& 0x30) >>> 4, (d2 &&& 0x0F) <<< 4 ||| (d3 &&& 0x3C) >>> 2,
            (d3 &&& 0x03) <<< 6 ||| d4] ++ tail) = [c1, c2, c3, c4] ++ bfEncode tail := by
          simp [bfEncode, firstDigit hlt1, secondDigit hlt2, thirdDigit hlt3 hlt4, fourthDigit d3 hlt4, hchar1, hchar2,
            hchar3, hchar4]
        rw [hgroup]
        cases size with
        | zero =>
            obtain rfl := Option.some.inj htail
            refine ⟨rfl, by simp, ?_⟩
            have hlast : d4 &&& 0x3f = d4 := by
              have hfour := fourthDigit 0 hlt4
              simpa using hfour
            simp [bfEncode, lastDigit, lastBits, hdigit4, hlast, hchar4]
        | succ size =>
            obtain ⟨hlength, hle, hencode⟩ := ih (Nat.succ_ne_zero size) htail
            have hdigits : (4 * (size + 1 + 3) + 2) / 3 - 1 = (4 * (size + 1) + 2) / 3 - 1 + 4 := by omega
            refine ⟨by simp [hlength], ?_, ?_⟩
            · simp only [List.length_cons, List.drop_succ_cons, List.drop_zero] at hle ⊢
              omega
            · rw [hencode, lastDigit, lastDigit, hdigits, lastBits_add_three]
              rfl

/-- **The digits of a hash** are read back whatever stands behind them, and a text that is read to the same bytes is the
same text, but for the bits of its last digit that belong to no byte. -/
theorem digits_round_trip (bs rest : Bytes) : bfDecode bs.length (bfEncode bs ++ rest) = some bs ∧
    ∀ src, bs ≠ [] → bfDecode bs.length src = some bs →
      bfEncode bs = src.take ((bfEncode bs).length - 1) ++ [lastDigit bs.length src] := by
  refine ⟨bfDecode_bfEncode bs rest, fun src hne hread => ?_⟩
  have hlength : bs.length ≠ 0 := fun hzero => hne (List.length_eq_zero_iff.mp hzero)
  obtain ⟨-, -, hencode⟩ := bfEncode_of_bfDecode hlength hread
  rw [length_bfEncode]
  exact hencode

-- the setting of the self-test is such a text: its last digit could have been any of "uvwx...89"
example : bfDecode 16 (ascii "abcdefghijklmnopqrstu9") = bfDecode 16 (ascii "abcdefghijklmnopqrstuu") := by decide +kernel

end OttQuic.Auth
