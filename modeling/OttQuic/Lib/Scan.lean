import OttQuic.Lib.CString

/-!
# Scans

What a parser reads from the front of a text, and how far that is decided when more text may follow. `Skips` are
the steps that leave out a front; they compose, and where they leave something, nothing that follows changes it.
The second part is `strtol` in base 10: what the digits at the front of a text are read as, with what follows them.
-/

namespace Scan

open CString

/-! ### Fronts -/

section

variable {α : Type*} {stop : α → Prop} {f g : List α → List α}

/-- `f` leaves out a front of the text, and never an element of `stop`. -/
structure Skips (stop : α → Prop) (f : List α → List α) : Prop where
  nil : f [] = []
  /-- What is left stays when text is added. -/
  left : ∀ s t, f s ≠ [] → f (s ++ t) = f s ++ t
  stopped : ∀ s c t, stop c → f (s ++ c :: t) = f s ++ c :: t

theorem Skips.dropWhile {p : α → Bool} (hstop : ∀ c, stop c → p c = false) : Skips stop (List.dropWhile p) where
  nil := rfl
  left s t hs := by rw [List.dropWhile_append, if_neg (by simpa using hs)]
  stopped s c t hc := by
    rw [List.dropWhile_append]
    split_ifs with hs
    · rw [List.dropWhile_cons_of_neg (by simp [hstop c hc]), List.isEmpty_iff.mp hs, List.nil_append]
    · rfl

theorem Skips.either [DecidableEq α] {a b : α} (ha : ¬ stop a) (hb : ¬ stop b) :
    Skips stop fun s => if s.head? = some a ∨ s.head? = some b then s.tail else s where
  nil := rfl
  left s t hs := by
    cases s with
    | nil => exact absurd rfl hs
    | cons c s =>
        by_cases hc : c = a ∨ c = b
        · simp [hc]
        · simp [hc]
  stopped s c t hc := by
    cases s with
    | nil =>
        have hca : c ≠ a := fun heq => ha (heq ▸ hc)
        have hcb : c ≠ b := fun heq => hb (heq ▸ hc)
        simp [hca, hcb]
    | cons d s =>
        by_cases hd : d = a ∨ d = b
        · simp [hd]
        · simp [hd]

theorem Skips.comp (hg : Skips stop g) (hf : Skips stop f) : Skips stop fun s => g (f s) where
  nil := by rw [hf.nil, hg.nil]
  left s t hs := by
    have hfirst : f s ≠ [] := fun hnil => hs (by rw [hnil, hg.nil])
    rw [hf.left s t hfirst, hg.left (f s) t hs]
  stopped s c t hc := by rw [hf.stopped s c t hc, hg.stopped (f s) c t hc]

end

/-! ### Digits -/

section

variable {c : UInt8} {s t : List UInt8} {value n : Nat}

def isDigit (c : UInt8) : Bool := 48 ≤ c ∧ c ≤ 57

theorem digit_ten (c : UInt8) : digit 10 c = if isDigit c then some (c.toNat - 48) else none := by
  by_cases hc : 48 ≤ c ∧ c ≤ 57
  · have hrange : 48 ≤ c.toNat ∧ c.toNat ≤ 57 := by simpa [UInt8.le_iff_toNat_le] using hc
    have hsmall : c.toNat - 48 < 10 := by omega
    simp [digit, isDigit, hc, hsmall]
  · have hlarge : ¬ (if 97 ≤ toLower c ∧ toLower c ≤ 122 then (toLower c).toNat - 87 else 10) < 10 := by
      split_ifs with hletter
      · have hrange : 97 ≤ (toLower c).toNat := by simpa [UInt8.le_iff_toNat_le] using hletter.1
        omega
      · omega
    simp only [digit, isDigit, if_neg hlarge, hc, decide_false, Bool.false_eq_true, if_false]

theorem isDigit_plain (hc : isDigit c = true) : isSpace c = false ∧ c ≠ 43 ∧ c ≠ 45 := by
  simp only [isDigit, isSpace, decide_eq_true_eq, decide_eq_false_iff_not, UInt8.le_iff_toNat_le, ne_eq,
    ← UInt8.toNat_inj] at hc ⊢
  simp at hc ⊢
  omega

theorem readDigits_digit (hc : isDigit c = true) :
    readDigits 10 value (c :: s) = readDigits 10 (value * 10 + (c.toNat - 48)) s := by
  rw [readDigits, digit_ten, if_pos hc]

theorem readDigits_stop (hc : isDigit c = false) : readDigits 10 value (c :: s) = value := by
  rw [readDigits, digit_ten, if_neg (by simp [hc])]

theorem readDigits_append (hs : ∀ c ∈ s, isDigit c = true) :
    readDigits 10 value (s ++ t) = readDigits 10 (readDigits 10 value s) t := by
  induction s generalizing value with
  | nil => rfl
  | cons c s ih =>
      have hc := hs c (by simp)
      rw [List.cons_append, readDigits_digit hc, readDigits_digit hc, ih fun d hd => hs d (by simp [hd])]

theorem readDigits_append_stop (hs : ∃ c ∈ s, isDigit c = false) :
    readDigits 10 value (s ++ t) = readDigits 10 value s := by
  induction s generalizing value with
  | nil => simp at hs
  | cons c s ih =>
      rw [List.cons_append]
      cases hc : isDigit c with
      | false => rw [readDigits_stop hc, readDigits_stop hc]
      | true =>
          have hrest : ∃ c ∈ s, isDigit c = false := by
            obtain ⟨d, hd, hstop⟩ := hs
            refine ⟨d, (List.mem_cons.mp hd).resolve_left ?_, hstop⟩
            rintro rfl
            rw [hc] at hstop
            cases hstop
          rw [readDigits_digit hc, readDigits_digit hc, ih hrest]

theorem le_readDigits : value ≤ readDigits 10 value s := by
  induction s generalizing value with
  | nil => exact le_rfl
  | cons c s ih =>
      cases hc : isDigit c with
      | false => rw [readDigits_stop hc]
      | true =>
          rw [readDigits_digit hc]
          have hle : value * 10 + (c.toNat - 48) ≤ readDigits 10 (value * 10 + (c.toNat - 48)) s := ih
          omega

end

/-! ### `strtol` -/

section

variable {s : List UInt8}

/-- The text behind the blanks and the sign. -/
def afterSign (s : List UInt8) : List UInt8 :=
  let s := s.dropWhile isSpace
  if s.head? = some 45 ∨ s.head? = some 43 then s.tail else s

theorem afterSign_skips : Skips (fun c => isDigit c = true) afterSign :=
  (Skips.either (by decide) (by decide)).comp (Skips.dropWhile fun _ hc => (isDigit_plain hc).1)

theorem readNumber_ten (s : List UInt8) :
    readNumber 10 s =
      if ((afterSign s).head?.any isDigit) then
        some (decide ((s.dropWhile isSpace).head? = some 45), readDigits 10 0 (afterSign s))
      else none := by
  have hhead : ((afterSign s).head?.bind (digit 10)).isSome = (afterSign s).head?.any isDigit := by
    cases (afterSign s).head? with
    | none => rfl
    | some c =>
        rw [Option.bind_some, digit_ten, Option.any_some]
        cases isDigit c with
        | false => rfl
        | true => rfl
  rw [← hhead]
  rfl

/-- The number as a `long`. -/
def clamp (negative : Bool) (n : Nat) : Int :=
  if negative then max (-(2 ^ 63)) (-(n : Int)) else min (2 ^ 63 - 1) (n : Int)

theorem strtol_eq (base : Nat) (s : List UInt8) :
    strtol base s = (readNumber base s).map fun (negative, n) => clamp negative n := rfl

/-! ### Integers -/

/-- The integer at the front of the text, of any size. -/
def integerAt (s : List UInt8) : Option Int :=
  (readNumber 10 s).map fun (negative, n) => if negative then -(n : Int) else n

/-- An integer that does not fit a `long` is replaced by the nearest one that does. -/
def toLong (v : Int) : Int := max (-(2 ^ 63)) (min (2 ^ 63 - 1) v)

/-- An integer as an `unsigned long long`: it wraps, or is replaced by the largest one. -/
def toUnsigned (v : Int) : UInt64 := if 2 ^ 64 ≤ v.natAbs then UInt64.ofNat (2 ^ 64 - 1) else UInt64.ofInt v

theorem toInt_toLong {v : Int} : toInt (toLong v) = v ↔ -(2 ^ 31) ≤ v ∧ v < 2 ^ 31 := by
  constructor
  · intro h
    have hkept := toInt_toInt (toLong v)
    rw [h] at hkept
    exact toInt_eq_iff.mp hkept
  · intro hrange
    have hlong : toLong v = v := by
      rw [toLong]
      omega
    rw [hlong]
    exact toInt_eq_iff.mpr hrange

theorem strtol_ten (s : List UInt8) : strtol 10 s = (integerAt s).map toLong := by
  rw [strtol_eq, integerAt, Option.map_map]
  refine congrArg (fun f => (readNumber 10 s).map f) (funext fun ⟨negative, n⟩ => ?_)
  cases negative with
  | false =>
      simp only [clamp, toLong, Function.comp, Bool.false_eq_true, if_false]
      omega
  | true =>
      simp only [clamp, toLong, Function.comp, if_true]
      omega

theorem ofInt_natCast (n : Nat) : UInt64.ofInt n = UInt64.ofNat n := by
  refine UInt64.toNat_inj.mp ?_
  rw [UInt64.ofInt, UInt64.toNat_ofNat', UInt64.toNat_ofNat']
  omega

theorem strtoull_ten (s : List UInt8) : strtoull 10 s = (integerAt s).map toUnsigned := by
  rw [strtoull, integerAt, Option.map_map]
  refine congrArg (fun f => (readNumber 10 s).map f) (funext fun ⟨negative, n⟩ => ?_)
  cases negative with
  | false =>
      simp only [toUnsigned, Function.comp, Bool.false_eq_true, if_false, Int.natAbs_natCast, ge_iff_le]
      rw [ofInt_natCast]
  | true =>
      simp only [toUnsigned, Function.comp, if_true, Int.natAbs_neg, Int.natAbs_natCast, ge_iff_le]
      rw [UInt64.ofInt_neg, ofInt_natCast]

theorem readDigits_end {value : Nat} {c : UInt8} {t : List UInt8} (hc : isDigit c = false) :
    readDigits 10 value (s ++ c :: t) = readDigits 10 value s := by
  by_cases hs : ∀ d ∈ s, isDigit d = true
  · rw [readDigits_append hs, readDigits_stop hc]
  · push Not at hs
    obtain ⟨d, hd, hstop⟩ := hs
    exact readDigits_append_stop ⟨d, hd, by simpa using hstop⟩

theorem integerAt_append {c : UInt8} {t : List UInt8} (hdigit : isDigit c = false) (hspace : isSpace c = false)
    (hplus : c ≠ 43) (hminus : c ≠ 45) : integerAt (s ++ c :: t) = integerAt s := by
  have hblank : Skips (fun d => d = c) (List.dropWhile isSpace) := Skips.dropWhile fun _ hd => hd ▸ hspace
  have hsign : Skips (fun d => d = c) afterSign :=
    (Skips.either (a := 45) (b := 43) (fun h => hminus (Eq.symm h)) fun h => hplus (Eq.symm h)).comp hblank
  have hhead : (afterSign s ++ c :: t).head?.any isDigit = (afterSign s).head?.any isDigit := by
    cases afterSign s with
    | nil => exact hdigit
    | cons d u => rfl
  have hnegative : ((s.dropWhile isSpace ++ c :: t).head? = some 45) ↔ (s.dropWhile isSpace).head? = some 45 := by
    cases s.dropWhile isSpace with
    | nil => simp [hminus]
    | cons d u => rfl
  rw [integerAt, integerAt, readNumber_ten, readNumber_ten, hsign.stopped s c t rfl, hblank.stopped s c t rfl, hhead,
    readDigits_end hdigit]
  simp only [hnegative]

theorem integerAt_blank {b : List UInt8} (hb : ∀ c ∈ b, isSpace c = true) : integerAt (b ++ s) = integerAt s := by
  have hskip : (b ++ s).dropWhile isSpace = s.dropWhile isSpace := List.dropWhile_append_of_pos hb
  rw [integerAt, integerAt, readNumber, readNumber, hskip]

theorem integerAt_dropWhile : integerAt (s.dropWhile isSpace) = integerAt s := by
  have hsplit := integerAt_blank (s := s.dropWhile isSpace) (List.all_eq_true.mp (List.all_takeWhile (l := s)))
  rw [List.takeWhile_append_dropWhile] at hsplit
  exact hsplit.symm

theorem integerAt_digits {negative : Bool} {c : UInt8} {t : List UInt8} (hs : ∀ d ∈ s, isDigit d = true) (hne : s ≠ [])
    (hc : isDigit c = false) :
    integerAt ((if negative then [45] else []) ++ (s ++ c :: t)) =
      some (if negative then -(readDigits 10 0 s : Int) else readDigits 10 0 s) := by
  obtain ⟨d, u, rfl⟩ := List.exists_cons_of_ne_nil hne
  obtain ⟨hspace, hplus, hminus⟩ := isDigit_plain (hs d (by simp))
  have hsign : afterSign ((if negative then [45] else []) ++ (d :: u ++ c :: t)) = d :: u ++ c :: t := by
    cases negative with
    | false => simp [afterSign, hspace, hplus, hminus]
    | true => simp [afterSign, isSpace]
  have hnegative : (((if negative then [45] else []) ++ (d :: u ++ c :: t)).dropWhile isSpace).head? = some 45 ↔
      negative = true := by
    cases negative with
    | false => simp [hspace, hminus]
    | true => simp [isSpace]
  have hhead : (d :: u ++ c :: t).head?.any isDigit = true := hs d List.mem_cons_self
  rw [integerAt, readNumber_ten, hsign, readDigits_end hc, if_pos hhead, Option.map_some]
  simp only [hnegative, decide_eq_true_eq]

end

end Scan
