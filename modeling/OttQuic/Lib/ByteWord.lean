import Mathlib.Data.BitVec

/-!
# Words put together from bytes

A word of 32 bits that four characters are shifted into, one after the other. An unsigned character becomes a byte of
the word (`shiftIn_unsigned`). A signed one is extended first, and when it is negative its copies of the top bit cover
every byte before it (`shiftIn_signed`): the bytes that are read in this way do not tell what they were before.
`unsigned_of_signed` and `bytes_of_signed` say what a word that can be read in both ways tells.
-/

namespace ByteWord

variable {a b c d a' b' c' d' x y z w : UInt8}

/-- The word with these bytes, the first one on top. -/
def ofBytes (a b c d : UInt8) : UInt32 := ⟨a.toBitVec ++ b.toBitVec ++ c.toBitVec ++ d.toBitVec⟩

/-- Four characters, shifted in one after the other. -/
def shiftIn (extend : UInt8 → UInt32) (a b c d : UInt8) : UInt32 :=
  ((extend a <<< 8 ||| extend b) <<< 8 ||| extend c) <<< 8 ||| extend d

/-- A signed character as a word. -/
def signExtend (c : UInt8) : UInt32 := c.toInt8.toInt32.toUInt32

/-- Eight copies of the top bit. -/
def fill (c : UInt8) : UInt8 := if c.toBitVec.msb then 0xff else 0

/-! ### Bytes -/

theorem fill_eq_zero : fill c = 0 ↔ c < 0x80 := by
  unfold fill
  rw [UInt8.lt_iff_toNat_lt, BitVec.msb_eq_decide]
  split_ifs with htop
  · simp only [decide_eq_true_eq] at htop
    exact ⟨fun h => absurd h (by decide), fun h => absurd h (Nat.not_lt.mpr htop)⟩
  · simp only [decide_eq_true_eq] at htop
    exact ⟨fun _ => Nat.lt_of_not_le htop, fun _ => rfl⟩

theorem or_fill_of_not_lt (h : ¬ c < 0x80) (a : UInt8) : a ||| fill c = 0xff := by
  have hfill : fill c = -1 := by
    rcases Bool.eq_false_or_eq_true c.toBitVec.msb with htop | htop
    · rw [fill, if_pos htop]
      rfl
    · exact absurd (fill_eq_zero.mp (by simp [fill, htop])) h
  rw [hfill, UInt8.or_neg_one]
  rfl

theorem fill_or (a b : UInt8) : fill (a ||| b) = fill a ||| fill b := by
  unfold fill
  rw [UInt8.toBitVec_or, BitVec.msb_or]
  cases a.toBitVec.msb <;> cases b.toBitVec.msb <;> rfl

theorem fill_fill (c : UInt8) : fill (fill c) = fill c := by
  unfold fill
  cases c.toBitVec.msb <;> rfl

/-! ### Words -/

theorem ofBytes_shiftLeft_or :
    ofBytes a b c d <<< 8 ||| ofBytes x y z w = ofBytes (b ||| x) (c ||| y) (d ||| z) w := by
  apply UInt32.toBitVec_inj.mp
  apply BitVec.eq_of_getLsbD_eq
  intro i hi
  have hshift : ∀ v : UInt32, (v <<< 8).toBitVec = v.toBitVec <<< 8 := fun _ => rfl
  simp only [UInt32.toBitVec_or, hshift, ofBytes, UInt8.toBitVec_or, BitVec.getLsbD_or, BitVec.getLsbD_shiftLeft,
    BitVec.getLsbD_append, hi, decide_true, Bool.true_and]
  by_cases hlast : i < 8
  · simp [hlast]
  by_cases hthird : i - 8 < 8
  · simp [hlast, hthird]
  by_cases hsecond : i - 8 - 8 < 8
  · simp [hlast, hthird, hsecond]
  · have hfirst : i - 8 - 8 - 8 < 8 := by omega
    simp [hlast, hthird, hsecond, hfirst]

theorem ofBytes_inj : ofBytes a b c d = ofBytes a' b' c' d' ↔ a = a' ∧ b = b' ∧ c = c' ∧ d = d' := by
  constructor
  · intro h
    have hbits (i : Nat) := congrArg (fun word : UInt32 => word.toBitVec.getLsbD i) h
    simp only [ofBytes, BitVec.getLsbD_append] at hbits
    have hbyte {s t : UInt8} (heq : ∀ i < 8, s.toBitVec.getLsbD i = t.toBitVec.getLsbD i) : s = t :=
      UInt8.toBitVec_inj.mp (BitVec.eq_of_getLsbD_eq heq)
    have hbehind (i : Nat) : decide (i + 8 < 8) = false := decide_eq_false (by omega)
    refine ⟨hbyte fun i hi => ?_, hbyte fun i hi => ?_, hbyte fun i hi => ?_, hbyte fun i hi => ?_⟩
    · simpa [hbehind] using hbits (i + 8 + 8 + 8)
    · simpa [hi, hbehind] using hbits (i + 8 + 8)
    · simpa [hi, hbehind] using hbits (i + 8)
    · simpa [hi] using hbits i
  · rintro ⟨rfl, rfl, rfl, rfl⟩
    rfl

theorem toUInt32_eq (c : UInt8) : c.toUInt32 = ofBytes 0 0 0 c := by
  apply UInt32.toBitVec_inj.mp
  apply BitVec.eq_of_getLsbD_eq
  intro i hi
  simp only [ofBytes, UInt8.toBitVec_toUInt32, BitVec.getLsbD_setWidth, BitVec.getLsbD_append]
  by_cases hlast : i < 8
  · simp [hlast, hi]
  · simp [hlast, hi, BitVec.getLsbD_of_ge _ _ (Nat.not_lt.mp hlast)]

theorem signExtend_eq (c : UInt8) : signExtend c = ofBytes (fill c) (fill c) (fill c) c := by
  have hall : ∀ n : Fin 256, signExtend (UInt8.ofNat n) =
      ofBytes (fill (UInt8.ofNat n)) (fill (UInt8.ofNat n)) (fill (UInt8.ofNat n)) (UInt8.ofNat n) := by
    decide +kernel
  have hc := hall ⟨c.toNat, c.toNat_lt⟩
  rwa [UInt8.ofNat_toNat] at hc

theorem shiftLeft_or_signExtend_and (v : UInt32) (c : UInt8) :
    (v <<< 8 ||| signExtend c) &&& 0x80 = if c < 0x80 then 0 else 0x80 := by
  have hall : ∀ n : Fin 256, signExtend (UInt8.ofNat n) &&& 0x80 =
      if UInt8.ofNat n < 0x80 then 0 else 0x80 := by
    decide +kernel
  have hc := hall ⟨c.toNat, c.toNat_lt⟩
  rw [UInt8.ofNat_toNat] at hc
  have hv : (v <<< 8 ||| signExtend c) &&& 0x80 = signExtend c &&& 0x80 := by
    apply UInt32.toBitVec_inj.mp
    apply BitVec.eq_of_getLsbD_eq
    intro i hi
    have hshift : (v <<< 8).toBitVec = v.toBitVec <<< 8 := rfl
    simp only [UInt32.toBitVec_and, UInt32.toBitVec_or, hshift, BitVec.getLsbD_and, BitVec.getLsbD_or,
      BitVec.getLsbD_shiftLeft, hi, decide_true, Bool.true_and]
    by_cases hlast : i < 8
    · simp [hlast]
    · have hmask : (0x80 : UInt32).toBitVec.getLsbD i = false := by
        have hpow : 2 ^ 8 ≤ 2 ^ i := Nat.pow_le_pow_right (by decide) (Nat.not_lt.mp hlast)
        exact Nat.testBit_lt_two_pow (Nat.lt_of_lt_of_le (by decide) hpow)
      rw [hmask, Bool.and_false, Bool.and_false]
  rw [hv, hc]

/-! ### Characters shifted in -/

theorem shiftIn_unsigned (a b c d : UInt8) : shiftIn UInt8.toUInt32 a b c d = ofBytes a b c d := by
  simp [shiftIn, toUInt32_eq, ofBytes_shiftLeft_or]

theorem shiftIn_signed (a b c d : UInt8) :
    shiftIn signExtend a b c d =
      ofBytes (a ||| fill b ||| fill c ||| fill d) (b ||| fill c ||| fill d) (c ||| fill d) d := by
  simp [shiftIn, signExtend_eq, ofBytes_shiftLeft_or]

theorem signed_of_nonneg (a : UInt8) (hb : b < 0x80) (hc : c < 0x80) (hd : d < 0x80) :
    shiftIn signExtend a b c d = ofBytes a b c d := by
  rw [shiftIn_signed, fill_eq_zero.mpr hb, fill_eq_zero.mpr hc, fill_eq_zero.mpr hd]
  simp

theorem unsigned_of_signed (h : ofBytes a b c d = shiftIn signExtend a' b' c' d') :
    shiftIn signExtend a b c d = ofBytes a b c d := by
  rw [shiftIn_signed, ofBytes_inj] at h
  obtain ⟨rfl, rfl, rfl, rfl⟩ := h
  rw [shiftIn_signed, ofBytes_inj]
  simp only [fill_or, fill_fill]
  generalize fill b' = x
  generalize fill c' = y
  generalize fill d = z
  grind

theorem bytes_of_signed (h : ofBytes a b c d = shiftIn signExtend a' b' c' d') (hb : b < 0x80) (hc : c < 0x80)
    (hd : d < 0x80) : a = a' ∧ b = b' ∧ c = c' ∧ d = d' := by
  rw [shiftIn_signed, ofBytes_inj] at h
  obtain ⟨ha, hb', hc', rfl⟩ := h
  have hzd : fill d = 0 := fill_eq_zero.mpr hd
  rw [hzd, UInt8.or_zero] at hc'
  subst hc'
  have hzc : fill c = 0 := fill_eq_zero.mpr hc
  rw [hzd, hzc, UInt8.or_zero, UInt8.or_zero] at hb'
  subst hb'
  rw [hzd, hzc, fill_eq_zero.mpr hb, UInt8.or_zero, UInt8.or_zero, UInt8.or_zero] at ha
  exact ⟨ha, rfl, rfl, rfl⟩

/-- A word with a negative character behind its first one is left as it is only where that character has nothing but
ones to cover. -/
theorem full_of_signed (h : shiftIn signExtend a b c d = ofBytes a b c d)
    (hneg : ¬ (b < 0x80 ∧ c < 0x80 ∧ d < 0x80)) : a = 0xff ∨ b = 0xff ∨ c = 0xff := by
  rw [shiftIn_signed, ofBytes_inj] at h
  obtain ⟨ha, hb, hc, -⟩ := h
  by_cases hd : d < 0x80
  · rw [fill_eq_zero.mpr hd, UInt8.or_zero] at ha hb
    by_cases hc' : c < 0x80
    · have hb' : ¬ b < 0x80 := fun hb' => hneg ⟨hb', hc', hd⟩
      rw [fill_eq_zero.mpr hc', UInt8.or_zero, or_fill_of_not_lt hb'] at ha
      exact .inl ha.symm
    · rw [or_fill_of_not_lt hc'] at hb
      exact .inr (.inl hb.symm)
  · rw [or_fill_of_not_lt hd] at hc
    exact .inr (.inr hc.symm)

end ByteWord
