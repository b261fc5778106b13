import Mathlib.Algebra.Order.Ring.Nat
import Mathlib.Data.List.FinRange

/-!
# Tables of words in one number

A table of words of 32 bits as one number, word `i` at the bits from `32 * i` on. Reading and replacing a word are a few
operations on numerals, which the kernel computes at once, so that a long computation over large tables can be checked
by evaluating it. For this the operations are named (`Nat.xor`, and not its notation), and `force` computes a number
before what uses it.
-/

namespace PackedWords

/-- `k n`, with `n` computed first. -/
def force {α : Type} (n : Nat) (k : Nat → α) : α := bif Nat.beq n 0 then k n else k n

/-- Word `i`. -/
def field (n i : Nat) : Nat := Nat.land (Nat.shiftRight n (Nat.mul 32 i)) 0xffffffff

/-- The table with `x` as word `i`. -/
def put (n i x : Nat) : Nat := Nat.xor n (Nat.shiftLeft (Nat.xor (field n i) x) (Nat.mul 32 i))

/-- The sum of two words. -/
def sum (x y : Nat) : Nat := Nat.land (Nat.add x y) 0xffffffff

/-- Two words. -/
def pair (x y : Nat) : Nat := Nat.lor x (Nat.shiftLeft y 32)

def pack : List UInt32 → Nat
  | [] => 0
  | x :: xs => pair x.toNat (pack xs)

/-- `foldl`, every state computed before the next one. -/
def foldForced (f : Nat → Nat → Nat) : List Nat → Nat → Nat
  | [], x => x
  | i :: is, x => force (f x i) (foldForced f is)

/-- The table holds these words. -/
def Packs {k : Nat} (xs : Vector UInt32 k) (n : Nat) : Prop := ∀ i (_ : i < k), field n i = xs[i].toNat

variable {k n m i j x y : Nat} {xs : Vector UInt32 k}

@[simp] theorem force_eq {α : Type} (n : Nat) (k : Nat → α) : force n k = k n := Bool.cond_self ..

theorem foldForced_eq (f : Nat → Nat → Nat) (is : List Nat) (x : Nat) : foldForced f is x = is.foldl f x := by
  induction is generalizing x with
  | nil => rfl
  | cons i is ih => rw [foldForced, force_eq, ih, List.foldl_cons]

/-! ### Words -/

theorem field_eq (n i : Nat) : field n i = n >>> (32 * i) % 2 ^ 32 := Nat.and_two_pow_sub_one_eq_mod (n >>> (32 * i)) 32

theorem testBit_field (n i j : Nat) : (field n i).testBit j = (decide (j < 32) && n.testBit (32 * i + j)) := by
  rw [field_eq, Nat.testBit_mod_two_pow, Nat.testBit_shiftRight]

theorem field_lt (n i : Nat) : field n i < 2 ^ 32 := by
  rw [field_eq]
  exact Nat.mod_lt _ (by decide)

theorem field_zero_of_lt (h : x < 2 ^ 32) : field x 0 = x := by
  rw [field_eq, Nat.mul_zero, Nat.shiftRight_zero, Nat.mod_eq_of_lt h]

theorem field_xor (n m i : Nat) : field (Nat.xor n m) i = field n i ^^^ field m i := by
  refine Nat.eq_of_testBit_eq fun j => ?_
  show (field (n ^^^ m) i).testBit j = _
  simp only [testBit_field, Nat.testBit_xor, Bool.and_xor_distrib_left]

theorem field_pair_zero (h : x < 2 ^ 32) : field (pair x y) 0 = x := by
  refine Nat.eq_of_testBit_eq fun j => ?_
  show (field (x ||| y <<< 32) 0).testBit j = _
  rw [testBit_field, Nat.testBit_or, Nat.testBit_shiftLeft]
  by_cases hj : j < 32
  · simp [hj]
  · have hhigh : x.testBit j = false :=
      Nat.testBit_lt_two_pow (Nat.lt_of_lt_of_le h (Nat.pow_le_pow_right (by decide) (Nat.not_lt.mp hj)))
    simp [hj, hhigh]

theorem field_pair_succ (h : x < 2 ^ 32) (i : Nat) : field (pair x y) (i + 1) = field y i := by
  refine Nat.eq_of_testBit_eq fun j => ?_
  show (field (x ||| y <<< 32) (i + 1)).testBit j = _
  have hhigh : x.testBit (32 * (i + 1) + j) = false :=
    Nat.testBit_lt_two_pow (Nat.lt_of_lt_of_le h (Nat.pow_le_pow_right (by decide) (by omega)))
  have hsplit : 32 * (i + 1) + j = 32 + (32 * i + j) := by omega
  rw [testBit_field, testBit_field, Nat.testBit_or, hhigh, hsplit, Nat.testBit_shiftLeft, Bool.false_or,
    Nat.add_sub_cancel_left, decide_eq_true (Nat.le_add_right 32 _), Bool.true_and]

theorem pair_xor {x' y' : Nat} (h : x < 2 ^ 32) (h' : x' < 2 ^ 32) :
    Nat.xor (pair x y) (pair x' y') = pair (x ^^^ x') (y ^^^ y') := by
  refine Nat.eq_of_testBit_eq fun j => ?_
  show ((x ||| y <<< 32) ^^^ (x' ||| y' <<< 32)).testBit j = ((x ^^^ x') ||| (y ^^^ y') <<< 32).testBit j
  simp only [Nat.testBit_or, Nat.testBit_xor, Nat.testBit_shiftLeft]
  by_cases hj : j < 32
  · simp [Nat.not_le.mpr hj]
  · have hpow : 2 ^ 32 ≤ 2 ^ j := Nat.pow_le_pow_right (by decide) (Nat.not_lt.mp hj)
    rw [Nat.testBit_lt_two_pow (Nat.lt_of_lt_of_le h hpow), Nat.testBit_lt_two_pow (Nat.lt_of_lt_of_le h' hpow)]
    simp [Nat.not_lt.mp hj]

theorem field_put_self (n i : Nat) (h : x < 2 ^ 32) : field (put n i x) i = x := by
  refine Nat.eq_of_testBit_eq fun j => ?_
  show (field (n ^^^ (field n i ^^^ x) <<< (32 * i)) i).testBit j = _
  rw [testBit_field, Nat.testBit_xor, Nat.testBit_shiftLeft, Nat.add_sub_cancel_left, Nat.testBit_xor, testBit_field,
    decide_eq_true (Nat.le_add_right (32 * i) j), Bool.true_and]
  by_cases hj : j < 32
  · simp [hj]
  · have hhigh : x.testBit j = false :=
      Nat.testBit_lt_two_pow (Nat.lt_of_lt_of_le h (Nat.pow_le_pow_right (by decide) (Nat.not_lt.mp hj)))
    simp [hj, hhigh]

theorem field_put_ne (n : Nat) (h : x < 2 ^ 32) (hij : i ≠ j) : field (put n i x) j = field n j := by
  refine Nat.eq_of_testBit_eq fun b => ?_
  show (field (n ^^^ (field n i ^^^ x) <<< (32 * i)) j).testBit b = _
  rw [testBit_field, testBit_field, Nat.testBit_xor, Nat.testBit_shiftLeft]
  by_cases hb : b < 32
  · rcases Nat.lt_or_gt_of_ne hij with hlt | hgt
    · -- the bit is above the word that is replaced
      have hhigh : (field n i ^^^ x).testBit (32 * j + b - 32 * i) = false :=
        Nat.testBit_lt_two_pow (Nat.lt_of_lt_of_le (Nat.xor_lt_two_pow (field_lt n i) h)
          (Nat.pow_le_pow_right (by decide) (by omega)))
      rw [hhigh, Bool.and_false, Bool.xor_false]
    · rw [decide_eq_false (show ¬ 32 * j + b ≥ 32 * i by omega), Bool.false_and, Bool.xor_false]
  · rw [decide_eq_false hb, Bool.false_and, Bool.false_and]

theorem sum_toNat (x y : UInt32) : sum x.toNat y.toNat = (x + y).toNat := by
  rw [UInt32.toNat_add]
  exact Nat.and_two_pow_sub_one_eq_mod (x.toNat + y.toNat) 32

theorem field_pack (xs : List UInt32) (i : Nat) : field (pack xs) i = (xs.getD i 0).toNat := by
  induction xs generalizing i with
  | nil =>
      rw [pack, field_eq, Nat.zero_shiftRight]
      rfl
  | cons x xs ih =>
      cases i with
      | zero => exact field_pair_zero x.toNat_lt
      | succ i =>
          rw [pack, field_pair_succ x.toNat_lt, ih]
          rfl

/-! ### Tables -/

theorem Packs.get (h : Packs xs n) (i : Fin k) : field n i.val = (xs.get i).toNat := h i.val i.isLt

theorem Packs.set (h : Packs xs n) (hi : i < k) (w : UInt32) : Packs (xs.set i w hi) (put n i w.toNat) := by
  intro j hj
  rw [Vector.getElem_set]
  split_ifs with hij
  · rw [← hij, field_put_self n i w.toNat_lt]
  · rw [field_put_ne n w.toNat_lt hij, h j hj]

theorem Packs.xor (h : Packs xs n) {f : Fin k → UInt32} (hf : ∀ i : Fin k, field m i.val = (f i).toNat) :
    Packs (.ofFn fun i => xs.get i ^^^ f i) (Nat.xor n m) := by
  intro i hi
  rw [field_xor, h i hi, hf ⟨i, hi⟩, Vector.getElem_ofFn, UInt32.toNat_xor]
  rfl

theorem packs_pack {f : Fin k → UInt32} {words : List UInt32} (h : ∀ i : Fin k, words.getD i.val 0 = f i) :
    Packs (.ofFn f) (pack words) := by
  intro i hi
  rw [field_pack, Vector.getElem_ofFn]
  exact congrArg UInt32.toNat (h ⟨i, hi⟩)

theorem packs_toList (xs : Vector UInt32 k) : Packs xs (pack xs.toList) := by
  intro i hi
  rw [field_pack, List.getD_eq_getElem?_getD]
  simp [hi]

end PackedWords
