import OttQuic.Auth.Blowfish

/-!
# The key schedule of a password (`BF_set_key`)

`BF_set_key` reads 72 characters, going back to the beginning of the password behind its NUL. `bfSetKey_eq_iff` says
what the correct algorithm makes of that: the first 72 characters of the password, and nothing else, are in the key.

Subtype `x` keeps an old error: a character above 127 is sign extended and covers those before it in its word, so that
many passwords have one key. A password of subtype `a` must not get such a key, so its own is changed when it is one
that sign extension leaves as it is. `safety_measure` says that this does what it is for.
-/

namespace OttQuic.Auth

open ByteWord

/-- The `i`-th character that `BF_set_key` reads. -/
def keyChar (key : Bytes) (i : Nat) : UInt8 := Looped.get 0 key i

/-- `tmp[0]` of pass `i`. -/
def correctWord (key : Bytes) (i : Nat) : UInt32 :=
  shiftIn UInt8.toUInt32 (keyChar key (4 * i)) (keyChar key (4 * i + 1)) (keyChar key (4 * i + 2))
    (keyChar key (4 * i + 3))

/-- `tmp[1]`. -/
def buggyWord (key : Bytes) (i : Nat) : UInt32 :=
  shiftIn signExtend (keyChar key (4 * i)) (keyChar key (4 * i + 1)) (keyChar key (4 * i + 2))
    (keyChar key (4 * i + 3))

def keyWordOf (bug : Bool) (key : Bytes) (i : Nat) : UInt32 := if bug then buggyWord key i else correctWord key i

/-- No character of the word is above 127, but for the first one, before which there is nothing to cover. -/
def Unsigned (key : Bytes) (i : Nat) : Prop :=
  keyChar key (4 * i + 1) < 0x80 ∧ keyChar key (4 * i + 2) < 0x80 ∧ keyChar key (4 * i + 3) < 0x80

variable {key p q : Bytes} {bug : Bool} {flags : UInt8} {i n : Nat}

/-! ### The loops -/

/-- The bit that a character adds to `sign`. -/
def signBit (c : UInt8) : UInt32 := if c < 0x80 then 0 else 0x80

theorem keyWord_walk (key : Bytes) (i : Nat) (sign : UInt32) :
    keyWord key (Looped.walk key (4 * i)) sign =
      { ptr := Looped.walk key (4 * (i + 1))
        correct := correctWord key i
        bug := buggyWord key i
        sign := sign ||| signBit (keyChar key (4 * i + 1)) ||| signBit (keyChar key (4 * i + 2)) |||
          signBit (keyChar key (4 * i + 3)) } := by
  have hchar (k : Nat) : (Looped.walk key k).headD 0 = keyChar key k := Looped.headD_walk 0 key k
  have hnext (k : Nat) : Looped.next key (Looped.walk key k) = Looped.walk key (k + 1) := rfl
  simp only [keyWord, KeyWord.pass, hchar, hnext, shiftLeft_or_signExtend_and]
  simp [correctWord, buggyWord, shiftIn, signBit, Nat.mul_add]

/-- What the passes so far have found out. -/
structure Passed (key : Bytes) (bug : Bool) (n : Nat) (s : SetKey) : Prop where
  ptr : s.ptr = Looped.walk key (4 * n)
  expanded : ∀ i (h : i < 18), i < n → s.expanded[i] = keyWordOf bug key i
  initial : ∀ i (h : i < 18), i < n → s.initial[i] = bfInitSubkeys[i] ^^^ keyWordOf bug key i
  sign : s.sign = 0 ∨ s.sign = 0x80
  unsigned : s.sign = 0 ↔ ∀ i < n, Unsigned key i
  diff : s.diff = 0 ↔ ∀ i < n, correctWord key i = buggyWord key i

theorem signBit_cases (c : UInt8) : c < 0x80 ∧ signBit c = 0 ∨ ¬ c < 0x80 ∧ signBit c = 0x80 := by
  unfold signBit
  split_ifs with h
  · exact .inl ⟨h, rfl⟩
  · exact .inr ⟨h, rfl⟩

theorem sign_step {sign : UInt32} (h : sign = 0 ∨ sign = 0x80) (b c d : UInt8) :
    let sign' := sign ||| signBit b ||| signBit c ||| signBit d
    (sign' = 0 ∨ sign' = 0x80) ∧ (sign' = 0 ↔ sign = 0 ∧ b < 0x80 ∧ c < 0x80 ∧ d < 0x80) := by
  rcases h with rfl | rfl <;>
    rcases signBit_cases b with ⟨hb, hb'⟩ | ⟨hb, hb'⟩ <;>
    rcases signBit_cases c with ⟨hc, hc'⟩ | ⟨hc, hc'⟩ <;>
    rcases signBit_cases d with ⟨hd, hd'⟩ | ⟨hd, hd'⟩ <;>
    simp [hb, hb', hc, hc', hd, hd']

theorem passed (key : Bytes) (bug : Bool) (hn : n ≤ 18) : Passed key bug n (setKeyPasses key bug n) := by
  induction n with
  | zero =>
      refine ⟨rfl, fun i _ hi => absurd hi (Nat.not_lt_zero i), fun i _ hi => absurd hi (Nat.not_lt_zero i),
        .inl rfl, ?_, ?_⟩
      · simp [setKeyPasses]
      · simp [setKeyPasses]
  | succ n ih =>
      have hbefore := ih (by omega)
      have hsign := sign_step hbefore.sign (keyChar key (4 * n + 1)) (keyChar key (4 * n + 2)) (keyChar key (4 * n + 3))
      have hforall (P : Nat → Prop) : (∀ i < n + 1, P i) ↔ (∀ i < n, P i) ∧ P n := Nat.forall_lt_succ_right
      rw [setKeyPasses, SetKey.pass, hbefore.ptr, keyWord_walk]
      refine ⟨rfl, fun i h hi => ?_, fun i h hi => ?_, hsign.1, ?_, ?_⟩
      · show ((setKeyPasses key bug n).expanded.setIfInBounds n (keyWordOf bug key n))[i] = _
        rw [Vector.getElem_setIfInBounds]
        split_ifs with heq
        · rw [heq]
        · exact hbefore.expanded i h (by omega)
      · show ((setKeyPasses key bug n).initial.setIfInBounds n
          (bfInitSubkeys[n]?.getD 0 ^^^ keyWordOf bug key n))[i] = _
        rw [Vector.getElem_setIfInBounds]
        split_ifs with heq
        · subst heq
          rw [Vector.getElem?_eq_getElem h, Option.getD_some]
        · exact hbefore.initial i h (by omega)
      · rw [hforall, ← hbefore.unsigned]
        exact hsign.2
      · show _ ||| (_ ^^^ _) = 0 ↔ _
        rw [hforall, ← hbefore.diff, UInt32.or_eq_zero_iff, UInt32.xor_eq_zero_iff]

theorem setKeyPasses_congr (bug : Bool) (h : ∀ k < 72, keyChar p k = keyChar q k) (hn : n ≤ 18) :
    { setKeyPasses p bug n with ptr := [] } = { setKeyPasses q bug n with ptr := [] } := by
  induction n with
  | zero => rfl
  | succ n ih =>
      have hbefore := ih (by omega)
      simp only [SetKey.mk.injEq, true_and] at hbefore
      obtain ⟨hsign, hdiff, hexpanded, hinitial⟩ := hbefore
      have hp := (passed p bug (n := n) (by omega)).ptr
      have hq := (passed q bug (n := n) (by omega)).ptr
      simp only [setKeyPasses, SetKey.pass, hp, hq, keyWord_walk, hsign, hdiff, hexpanded, hinitial, correctWord,
        buggyWord, h (4 * n) (by omega), h (4 * n + 1) (by omega), h (4 * n + 2) (by omega),
        h (4 * n + 3) (by omega)]

/-! ### The safety measure -/

theorem setKeySign_unsigned (safety diff : UInt32) : setKeySign safety 0 diff = 0 := UInt32.zero_and

theorem setKeySign_unsafe (sign diff : UInt32) : setKeySign 0 sign diff = 0 := by simp [setKeySign]

theorem setKeySign_equal : setKeySign 0x10000 0x80 0 = 0x10000 := by decide

theorem halves_eq_zero {diff : UInt32} (h : (diff ||| diff >>> 16) &&& 0xffff = 0) : diff = 0 := by
  have hshift : (diff >>> 16).toBitVec = diff.toBitVec >>> 16 := rfl
  have hbits (i : Nat) (hi : i < 16) : diff.toBitVec.getLsbD i = false ∧ diff.toBitVec.getLsbD (16 + i) = false := by
    have hbit := congrArg (fun word : UInt32 => word.toBitVec.getLsbD i) h
    have hmask : (0xffff : UInt32).toBitVec.getLsbD i = true := by
      show Nat.testBit (2 ^ 16 - 1) i = true
      rw [Nat.testBit_two_pow_sub_one]
      exact decide_eq_true hi
    have hzero : (0 : UInt32).toBitVec.getLsbD i = false := Nat.zero_testBit i
    simpa only [UInt32.toBitVec_and, UInt32.toBitVec_or, hshift, BitVec.getLsbD_and, BitVec.getLsbD_or,
      BitVec.getLsbD_ushiftRight, hmask, hzero, Bool.and_true, Bool.or_eq_false_iff] using hbit
  apply UInt32.toBitVec_inj.mp
  apply BitVec.eq_of_getLsbD_eq
  intro i hi
  have hzero : (0 : UInt32).toBitVec.getLsbD i = false := Nat.zero_testBit i
  rw [hzero]
  by_cases hlow : i < 16
  · exact (hbits i hlow).1
  · have hhigh := (hbits (i - 16) (by omega)).2
    rwa [show 16 + (i - 16) = i by omega] at hhigh

theorem setKeySign_differ {sign diff : UInt32} (h : diff ≠ 0) : setKeySign 0x10000 sign diff = 0 := by
  have hne : (diff ||| diff >>> 16) &&& 0xffff ≠ 0 := mt halves_eq_zero h
  have hle : ((diff ||| diff >>> 16) &&& 0xffff).toNat ≤ 0xffff := by
    rw [UInt32.toNat_and]
    exact Nat.and_le_right
  unfold setKeySign
  simp only
  generalize (diff ||| diff >>> 16) &&& 0xffff = low at hne hle
  have hpos : 0 < low.toNat := Nat.pos_of_ne_zero fun hzero => hne (UInt32.toNat_inj.mp hzero)
  have hcarry : (low + 0xffff).toBitVec.getLsbD 16 = true := by
    show (low + 0xffff).toNat.testBit 16 = true
    have hsum : (low + 0xffff).toNat = 2 ^ 16 + (low.toNat - 1) := by
      rw [UInt32.toNat_add]
      have hmask : (0xffff : UInt32).toNat = 0xffff := rfl
      omega
    rw [hsum, Nat.testBit_two_pow_add_eq, Nat.testBit_lt_two_pow (by omega)]
    rfl
  have hmasked : ~~~(low + 0xffff) &&& 0x10000 = 0 := by
    apply UInt32.toBitVec_inj.mp
    apply BitVec.eq_of_getLsbD_eq
    intro i hi
    have hmask : (0x10000 : UInt32).toBitVec.getLsbD i = decide (16 = i) := by
      show Nat.testBit (2 ^ 16) i = _
      exact Nat.testBit_two_pow
    have hzero : (0 : UInt32).toBitVec.getLsbD i = false := Nat.zero_testBit i
    rw [UInt32.toBitVec_and, UInt32.toBitVec_not, BitVec.getLsbD_and, BitVec.getLsbD_not, hmask, hzero]
    by_cases hbit : 16 = i
    · subst hbit
      rw [hcarry]
      rfl
    · rw [decide_eq_false hbit, Bool.and_false]
  rw [hmasked, UInt32.and_zero]

/-! ### The schedule -/

/-- The bit that is flipped in the first word of `initial`. -/
def safetyBit (key : Bytes) (flags : UInt8) : UInt32 :=
  let s := setKeyPasses key (flags &&& 1 ≠ 0) 18
  setKeySign ((flags.toUInt32 &&& 2) <<< 15) s.sign s.diff

theorem bfSetKey_expanded (key : Bytes) (flags : UInt8) {i : Nat} (h : i < 18) :
    (bfSetKey key flags).1[i] = keyWordOf (flags &&& 1 ≠ 0) key i :=
  (passed key (flags &&& 1 ≠ 0) (Nat.le_refl 18)).expanded i h h

theorem bfSetKey_initial (key : Bytes) (flags : UInt8) {i : Nat} (h : i < 18) :
    (bfSetKey key flags).2[i] = bfInitSubkeys[i] ^^^ keyWordOf (flags &&& 1 ≠ 0) key i ^^^
      if i = 0 then safetyBit key flags else 0 := by
  have hinitial := (passed key (flags &&& 1 ≠ 0) (Nat.le_refl 18)).initial
  rw [bfSetKey]
  simp only [Vector.getElem_set]
  by_cases hi : i = 0
  · subst hi
    simp only [if_true]
    rw [← hinitial 0 h h]
    rfl
  · rw [if_neg (Ne.symm hi), if_neg hi, UInt32.xor_zero, hinitial i h h]

theorem bfSetKey_ext {flags' : UInt8} : bfSetKey p flags = bfSetKey q flags' ↔
    (∀ i < 18, keyWordOf (flags &&& 1 ≠ 0) p i = keyWordOf (flags' &&& 1 ≠ 0) q i) ∧
      safetyBit p flags = safetyBit q flags' := by
  constructor
  · intro h
    have hwords : ∀ i < 18, keyWordOf (flags &&& 1 ≠ 0) p i = keyWordOf (flags' &&& 1 ≠ 0) q i := by
      intro i hi
      have hword := congrArg (fun schedule : BfKey × BfKey => schedule.1[i]) h
      simpa only [bfSetKey_expanded] using hword
    refine ⟨hwords, ?_⟩
    have hfirst := congrArg (fun schedule : BfKey × BfKey => schedule.2[0]) h
    simp only [bfSetKey_initial, if_true, hwords 0 (by decide)] at hfirst
    exact (UInt32.xor_right_inj _).mp hfirst
  · rintro ⟨hwords, hbit⟩
    apply Prod.ext
    · apply Vector.ext
      intro i hi
      rw [bfSetKey_expanded p flags hi, bfSetKey_expanded q flags' hi, hwords i hi]
    · apply Vector.ext
      intro i hi
      rw [bfSetKey_initial p flags hi, bfSetKey_initial q flags' hi, hwords i hi, hbit]

theorem keyChars_iff : (∀ k < 72, keyChar p k = keyChar q k) ↔ ∀ i < 18,
    keyChar p (4 * i) = keyChar q (4 * i) ∧ keyChar p (4 * i + 1) = keyChar q (4 * i + 1) ∧
      keyChar p (4 * i + 2) = keyChar q (4 * i + 2) ∧ keyChar p (4 * i + 3) = keyChar q (4 * i + 3) := by
  constructor
  · intro h i hi
    exact ⟨h _ (by omega), h _ (by omega), h _ (by omega), h _ (by omega)⟩
  · intro h k hk
    obtain ⟨hfirst, hsecond, hthird, hfourth⟩ := h (k / 4) (by omega)
    have hsplit : k = 4 * (k / 4) + k % 4 := by omega
    have hrest : k % 4 < 4 := Nat.mod_lt k (by decide)
    rw [hsplit]
    generalize k % 4 = r at hrest
    match r, hrest with
    | 0, _ => exact hfirst
    | 1, _ => exact hsecond
    | 2, _ => exact hthird
    | 3, _ => exact hfourth

theorem correctWord_eq (key : Bytes) (i : Nat) : correctWord key i = ofBytes (keyChar key (4 * i))
    (keyChar key (4 * i + 1)) (keyChar key (4 * i + 2)) (keyChar key (4 * i + 3)) := shiftIn_unsigned _ _ _ _

theorem correctWords_iff (hp : 0 ∉ p) (hq : 0 ∉ q) :
    (∀ i < 18, correctWord p i = correctWord q i) ↔ p.take 72 = q.take 72 := by
  simp only [correctWord_eq, ofBytes_inj]
  rw [← keyChars_iff]
  exact Looped.agree_iff hp hq

/-- With the correct algorithm the key schedule depends on the first 72 characters of the password. -/
theorem bfSetKey_congr (hflags : flags &&& 1 = 0) (hp : 0 ∉ p) (hq : 0 ∉ q) (htake : p.take 72 = q.take 72) :
    bfSetKey p flags = bfSetKey q flags := by
  have hcorrect : decide (flags &&& 1 ≠ 0) = false := decide_eq_false fun h => h hflags
  have hchars := (Looped.agree_iff hp hq (n := 72)).mpr htake
  have hpasses := setKeyPasses_congr (flags &&& 1 ≠ 0) hchars (Nat.le_refl 18)
  simp only [SetKey.mk.injEq, true_and] at hpasses
  obtain ⟨hsign, hdiff, -, -⟩ := hpasses
  rw [bfSetKey_ext, hcorrect]
  simp only [keyWordOf, Bool.false_eq_true, if_false]
  exact ⟨(correctWords_iff hp hq).mpr htake, by simp only [safetyBit, hsign, hdiff]⟩

/-- **What is in the key.** With the correct algorithm two passwords have the same key schedule exactly when their
first 72 characters are the same. -/
theorem bfSetKey_eq_iff (hflags : flags &&& 1 = 0) (hp : 0 ∉ p) (hq : 0 ∉ q) :
    bfSetKey p flags = bfSetKey q flags ↔ p.take 72 = q.take 72 := by
  refine ⟨fun h => ?_, bfSetKey_congr hflags hp hq⟩
  have hcorrect : decide (flags &&& 1 ≠ 0) = false := decide_eq_false fun h => h hflags
  rw [bfSetKey_ext, hcorrect] at h
  simp only [keyWordOf, Bool.false_eq_true, if_false] at h
  exact (correctWords_iff hp hq).mp h.1

/-- The characters behind the 72nd are not in the key, and every one before is. -/
theorem bfSetKey_eq_long :
    bfSetKey (List.replicate 80 97) 4 = bfSetKey (List.replicate 72 97) 4 ∧
      bfSetKey (List.replicate 71 97 ++ [98]) 4 ≠ bfSetKey (List.replicate 72 97) 4 :=
  ⟨(bfSetKey_eq_iff (by decide) (by decide) (by decide)).mpr (by decide),
    fun h => absurd ((bfSetKey_eq_iff (by decide) (by decide) (by decide)).mp h) (by decide)⟩

/-! ### What the safety measure does -/

/-- With subtype `a` the bit is flipped for a key that sign extension would leave as it is, though it has something to
extend. -/
theorem safetyBit_safe (key : Bytes) : safetyBit key 2 = 0 ↔
    (∀ i < 18, correctWord key i = buggyWord key i) → ∀ i < 18, Unsigned key i := by
  have hpassed := passed key false (Nat.le_refl 18)
  show setKeySign 0x10000 (setKeyPasses key false 18).sign (setKeyPasses key false 18).diff = 0 ↔ _
  rw [← hpassed.unsigned, ← hpassed.diff]
  by_cases hdiff : (setKeyPasses key false 18).diff = 0
  · rcases hpassed.sign with hsign | hsign <;> rw [hsign, hdiff]
    · exact iff_of_true (setKeySign_unsigned _ _) fun _ => rfl
    · rw [setKeySign_equal]
      decide
  · rw [setKeySign_differ hdiff]
    exact iff_of_true rfl fun h => absurd h hdiff

theorem safetyBit_off (key : Bytes) (h : flags &&& 2 = 0) : safetyBit key flags = 0 := by
  have hsafety : flags.toUInt32 &&& 2 = 0 := by
    rw [show (2 : UInt32) = (2 : UInt8).toUInt32 from rfl, ← UInt8.toUInt32_and, h]
    rfl
  unfold safetyBit
  rw [hsafety]
  exact setKeySign_unsafe _ _

/-- **The safety measure.** A password of subtype `a` has the key of a password of subtype `x` only when it is that
password, and has no character above 127 that sign extension could carry over another. A password whose own key is
changed for this contains `0xff`, the byte that is not found in UTF-8. -/
theorem safety_measure (hp : 0 ∉ p) (hq : 0 ∉ q) :
    (bfSetKey p 2 = bfSetKey q 1 ↔ p.take 72 = q.take 72 ∧ ∀ i < 18, Unsigned p i) ∧
      (bfSetKey p 2 ≠ bfSetKey p 4 → 0xff ∈ p.take 72) := by
  refine ⟨?_, fun h => ?_⟩
  · rw [bfSetKey_ext, safetyBit_off q (show (1 : UInt8) &&& 2 = 0 from rfl), safetyBit_safe]
    show (∀ i < 18, correctWord p i = buggyWord q i) ∧ _ ↔ _
    constructor
    · rintro ⟨hwords, hsafe⟩
      have hsigned (i : Nat) (hi : i < 18) := correctWord_eq p i ▸ hwords i hi
      have hunsigned := hsafe fun i hi => by
        rw [correctWord_eq]
        exact (unsigned_of_signed (hsigned i hi)).symm
      refine ⟨?_, hunsigned⟩
      rw [← correctWords_iff hp hq]
      intro i hi
      obtain ⟨hb, hc, hd⟩ := hunsigned i hi
      rw [correctWord_eq, correctWord_eq, ofBytes_inj]
      exact bytes_of_signed (hsigned i hi) hb hc hd
    · rintro ⟨htake, hunsigned⟩
      refine ⟨fun i hi => ?_, fun _ => hunsigned⟩
      obtain ⟨hb, hc, hd⟩ := hunsigned i hi
      have hchars := (Looped.agree_iff hp hq (n := 72)).mpr htake
      obtain ⟨hfirst, hsecond, hthird, hfourth⟩ := keyChars_iff.mp hchars i hi
      rw [correctWord_eq, ← signed_of_nonneg _ hb hc hd, buggyWord, hfirst, hsecond, hthird, hfourth]
  · have hbit : safetyBit p 2 ≠ 0 := by
      intro hbit
      apply h
      rw [bfSetKey_ext, hbit, safetyBit_off p (show (4 : UInt8) &&& 2 = 0 from rfl)]
      exact ⟨fun _ _ => rfl, rfl⟩
    rw [ne_eq, safetyBit_safe, Classical.not_imp] at hbit
    obtain ⟨hequal, hsigned⟩ := hbit
    push Not at hsigned
    obtain ⟨i, hi, hsigned⟩ := hsigned
    have hsame := (hequal i hi).symm
    rw [correctWord_eq] at hsame
    have hmem {k : Nat} (hk : k < 72) (hfull : keyChar p k = 0xff) : (0xff : UInt8) ∈ p.take 72 := by
      rw [← hfull]
      apply Looped.get_mem_take hk
      rw [show Looped.get 0 p k = 0xff from hfull]
      decide
    rcases full_of_signed hsame hsigned with hfull | hfull | hfull
    · exact hmem (by omega) hfull
    · exact hmem (by omega) hfull
    · exact hmem (by omega) hfull

/-- A password that subtype `x` gets wrong, and one that it gets right. -/
theorem safety_measure_signed :
    bfSetKey [97, 0xa3] 2 ≠ bfSetKey [97, 0xa3] 1 ∧ bfSetKey [97, 98] 2 = bfSetKey [97, 98] 1 := by
  refine ⟨fun h => ?_, ?_⟩
  · have hsigned := ((safety_measure (by decide) (by decide)).1.mp h).2 0 (by decide)
    exact absurd hsigned.1 (by decide)
  · have hunsigned : ∀ i < 18, Unsigned [97, 98] i := by
      unfold Unsigned
      decide
    exact (safety_measure (by decide) (by decide)).1.mpr ⟨rfl, hunsigned⟩

end OttQuic.Auth
