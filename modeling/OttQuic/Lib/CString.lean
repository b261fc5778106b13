import Mathlib.Algebra.Order.Ring.Int
import Mathlib.Data.List.Basic

/-!
# C strings

Strings as byte lists and the functions of `string.h`, `strings.h`, `stdlib.h` and `stdio.h` that parsers
are written with, in the C locale. A pointer into a string is the suffix it points to, and the suffix of a
string without its NUL is the string; `ofMemory` reads one from memory.
-/

namespace CString

/-- The bytes of an ASCII literal. -/
def ascii (s : String) : List UInt8 := s.toList.map fun c => UInt8.ofNat c.toNat

/-- The string at the start of `memory`: what stands before its NUL. -/
def ofMemory (memory : List UInt8) : List UInt8 := memory.takeWhile fun c => c ≠ 0

def isSpace (c : UInt8) : Bool := c = 32 ∨ (9 ≤ c ∧ c ≤ 13)

def toLower (c : UInt8) : UInt8 := if 65 ≤ c ∧ c ≤ 90 then c + 32 else c

/-- `strcasecmp(a, b) == 0`. -/
def eqIgnoreCase (a b : List UInt8) : Bool := a.map toLower = b.map toLower

/-- `strncasecmp(s, word, strlen(word)) == 0`. -/
def startsIgnoreCase (s word : List UInt8) : Bool := eqIgnoreCase (s.take word.length) word

/-- `strstr`: from the first occurrence of `word` on. -/
def strstr (word : List UInt8) : List UInt8 → Option (List UInt8)
  | [] => if word = [] then some [] else none
  | c :: s => if word.isPrefixOf (c :: s) then some (c :: s) else strstr word s

/-- `strchr`: from the first `c` on. -/
def strchr (c : UInt8) : List UInt8 → Option (List UInt8)
  | [] => none
  | d :: s => if d = c then some (d :: s) else strchr c s

/-- `strrchr`: from the last `c` on. -/
def strrchr (c : UInt8) : List UInt8 → Option (List UInt8)
  | [] => none
  | d :: s => (strrchr c s).or (if d = c then some (d :: s) else none)

theorem forall_mem_of_all {p : UInt8 → Prop} [DecidablePred p] {s : List UInt8}
    (h : (s.all fun c => decide (p c)) = true) : ∀ c ∈ s, p c :=
  fun c hc => of_decide_eq_true (List.all_eq_true.mp h c hc)

/-! ### Searches -/

theorem takeWhile_append_cons {q : UInt8} {s t : List UInt8} (hs : q ∉ s) :
    (s ++ q :: t).takeWhile (fun c => c ≠ q) = s := by
  have hall : ∀ c ∈ s, decide (c ≠ q) = true := fun c hc => decide_eq_true (ne_of_mem_of_not_mem hc hs)
  rw [List.takeWhile_append_of_pos hall, List.takeWhile_cons_of_neg (by simp), List.append_nil]

theorem takeWhile_append_of_mem {q : UInt8} {s t : List UInt8} (hs : q ∈ s) :
    (s ++ t).takeWhile (fun c => c ≠ q) = s.takeWhile fun c => c ≠ q := by
  obtain ⟨front, rest, rfl, hfront⟩ := List.eq_append_cons_of_mem hs
  rw [List.append_assoc, List.cons_append, takeWhile_append_cons hfront, takeWhile_append_cons hfront]

theorem ofMemory_append {s memory : List UInt8} (hs : 0 ∉ s) : ofMemory (s ++ memory) = s ++ ofMemory memory :=
  List.takeWhile_append_of_pos fun _ hc => decide_eq_true (ne_of_mem_of_not_mem hc hs)

theorem ofMemory_eq {s : List UInt8} (hs : 0 ∉ s) : ofMemory s = s := by
  have happend : ofMemory (s ++ []) = s ++ ofMemory [] := ofMemory_append hs
  rwa [List.append_nil, show ofMemory [] = [] from rfl, List.append_nil] at happend

theorem not_mem_ofMemory (memory : List UInt8) : 0 ∉ ofMemory memory := by
  intro hmem
  have hall := List.all_eq_true.mp List.all_takeWhile 0 hmem
  exact absurd rfl (of_decide_eq_true hall)

theorem ofMemory_append_of_nul {s memory : List UInt8} (hs : 0 ∈ s) : ofMemory (s ++ memory) = ofMemory s :=
  takeWhile_append_of_mem hs

theorem strchr_append_cons {q : UInt8} {s t : List UInt8} (hs : q ∉ s) : strchr q (s ++ q :: t) = some (q :: t) := by
  induction s with
  | nil => exact if_pos rfl
  | cons c s ih =>
      obtain ⟨hc, hrest⟩ := not_or.mp (mt List.mem_cons.mpr hs)
      rw [List.cons_append, strchr, if_neg (Ne.symm hc), ih hrest]

theorem strchr_eq_none {q : UInt8} {s : List UInt8} : strchr q s = none ↔ q ∉ s := by
  induction s with
  | nil => simp [strchr]
  | cons c s ih =>
      rw [strchr]
      split_ifs with hc
      · simp [hc]
      · simp [ih, Ne.symm hc]

theorem strchr_append {q : UInt8} {s t : List UInt8} :
    strchr q (s ++ t) = ((strchr q s).map fun rest => rest ++ t).or (strchr q t) := by
  induction s with
  | nil => rfl
  | cons c s ih =>
      rw [List.cons_append, strchr, strchr]
      split_ifs
      · rfl
      · exact ih

theorem strchr_some {q : UInt8} {s rest : List UInt8} (h : strchr q s = some rest) :
    s = s.takeWhile (fun c => c ≠ q) ++ rest := by
  induction s with
  | nil => cases h
  | cons c s ih =>
      rw [strchr] at h
      split_ifs at h with hc
      · obtain rfl := Option.some.inj h
        rw [List.takeWhile_cons_of_neg (by simpa using hc), List.nil_append]
      · rw [List.takeWhile_cons_of_pos (by simpa using hc), List.cons_append, ← ih h]

theorem take_front (front rest : List UInt8) :
    (front ++ rest).take ((front ++ rest).length - rest.length) = front := by
  rw [List.length_append, Nat.add_sub_cancel, List.take_left']
  rfl

theorem take_strchr {q : UInt8} {s rest : List UInt8} (h : strchr q s = some rest) :
    s.take (s.length - rest.length) = s.takeWhile fun c => c ≠ q := by
  have hfront := take_front (s.takeWhile fun c => c ≠ q) rest
  rwa [← strchr_some h] at hfront

theorem strstr_nil {word : List UInt8} (hword : word ≠ []) : strstr word [] = none := if_neg hword

theorem strstr_append {word before rest : List UInt8} (hword : word <+: rest)
    (hfirst : ∀ mid, mid ≠ [] → mid <:+ before → ¬ word <+: mid ++ rest) :
    strstr word (before ++ rest) = some rest := by
  induction before with
  | nil =>
      cases rest with
      | nil => rw [List.nil_append, strstr, if_pos (List.prefix_nil.mp hword)]
      | cons c rest => rw [List.nil_append, strstr, if_pos (List.isPrefixOf_iff_prefix.mpr hword)]
  | cons c before ih =>
      have hhere : ¬ word <+: c :: (before ++ rest) :=
        hfirst (c :: before) (List.cons_ne_nil c before) (List.suffix_refl _)
      rw [List.cons_append, strstr, if_neg (fun h => hhere (List.isPrefixOf_iff_prefix.mp h))]
      exact ih fun mid hmid hsuffix => hfirst mid hmid (hsuffix.trans (List.suffix_cons c before))

theorem strstr_prefix {word s : List UInt8} (h : word <+: s) : strstr word s = some s :=
  strstr_append h fun _ hmid hsuffix => absurd (List.suffix_nil.mp hsuffix) hmid

theorem strstr_some {word s t : List UInt8} (h : strstr word s = some t) : t <:+ s ∧ word <+: t := by
  induction s with
  | nil =>
      rw [strstr] at h
      split_ifs at h with hword
      · obtain rfl := Option.some.inj h
        exact ⟨List.suffix_refl _, hword ▸ List.prefix_refl _⟩
  | cons c s ih =>
      rw [strstr] at h
      split_ifs at h with hhere
      · obtain rfl := Option.some.inj h
        exact ⟨List.suffix_refl _, List.isPrefixOf_iff_prefix.mp hhere⟩
      · exact ⟨(ih h).1.trans (List.suffix_cons c s), (ih h).2⟩

theorem strstr_isSome {word s : List UInt8} : (strstr word s).isSome ↔ word <:+: s := by
  constructor
  · intro h
    obtain ⟨t, ht⟩ := Option.isSome_iff_exists.mp h
    exact (strstr_some ht).2.isInfix.trans (strstr_some ht).1.isInfix
  · intro h
    induction s with
    | nil => rw [strstr, if_pos (List.infix_nil.mp h)]; rfl
    | cons c s ih =>
        rw [strstr]
        split_ifs with hhere
        · rfl
        · refine ih ((List.infix_cons_iff.mp h).resolve_left fun hprefix => hhere ?_)
          exact List.isPrefixOf_iff_prefix.mpr hprefix

theorem strstr_append_right {word s t found : List UInt8} (h : strstr word s = some found) :
    strstr word (s ++ t) = some (found ++ t) := by
  induction s with
  | nil =>
      have hword := List.prefix_nil.mp ((List.suffix_nil.mp (strstr_some h).1) ▸ (strstr_some h).2)
      have hfound := List.suffix_nil.mp (strstr_some h).1
      rw [hfound, hword]
      exact strstr_prefix List.nil_prefix
  | cons c s ih =>
      rw [List.cons_append, strstr]
      rw [strstr] at h
      split_ifs at h with hhere
      · obtain rfl := Option.some.inj h
        exact if_pos (List.isPrefixOf_iff_prefix.mpr
          ((List.isPrefixOf_iff_prefix.mp hhere).trans (List.prefix_append (c :: s) t)))
      · rw [if_neg, ih h]
        intro hlonger
        have hlength : word.length ≤ (c :: s).length :=
          (strstr_some h).2.length_le.trans ((strstr_some h).1.length_le.trans (Nat.le_succ _))
        exact hhere (List.isPrefixOf_iff_prefix.mpr (List.prefix_of_prefix_length_le
          (List.isPrefixOf_iff_prefix.mp hlonger) (List.prefix_append (c :: s) t) hlength))

theorem strstr_past {q : UInt8} {word s t : List UInt8} (hq : q ∉ word) (hs : ¬ word <:+: s) :
    strstr word (s ++ q :: t) = strstr word t := by
  have hnot : ∀ mid, mid <:+ s → ¬ word.isPrefixOf (mid ++ q :: t) := by
    intro mid hsuffix hprefix
    rw [List.isPrefixOf_iff_prefix] at hprefix
    by_cases hlength : word.length ≤ mid.length
    · have hmid := List.prefix_of_prefix_length_le hprefix (List.prefix_append mid (q :: t)) hlength
      exact hs (hmid.isInfix.trans hsuffix.isInfix)
    · have hpast : mid ++ [q] <+: word :=
        List.prefix_of_prefix_length_le ⟨t, by simp⟩ hprefix (by simp; omega)
      exact hq (hpast.subset (by simp))
  induction s with
  | nil =>
      have hhere : ¬ word.isPrefixOf (q :: t) := hnot [] (List.suffix_refl _)
      rw [List.nil_append, strstr, if_neg hhere]
  | cons c s ih =>
      have hhere : ¬ word.isPrefixOf (c :: (s ++ q :: t)) := hnot (c :: s) (List.suffix_refl _)
      rw [List.cons_append, strstr, if_neg hhere]
      exact ih (fun h => hs (h.trans (List.suffix_cons c s).isInfix))
        fun mid hmid => hnot mid (hmid.trans (List.suffix_cons c s))

theorem strstr_skip_front {q : UInt8} {word s t : List UInt8} (hs : q ∉ s) :
    strstr (q :: word) (s ++ t) = strstr (q :: word) t := by
  induction s with
  | nil => rfl
  | cons c s ih =>
      obtain ⟨hc, hrest⟩ := not_or.mp (mt List.mem_cons.mpr hs)
      have hhere : ¬ (q :: word).isPrefixOf (c :: (s ++ t)) := by
        rw [List.isPrefixOf_iff_prefix, List.cons_prefix_cons]
        exact fun h => hc h.1
      rw [List.cons_append, strstr, if_neg hhere, ih hrest]

theorem strstr_skip {q : UInt8} {word s t : List UInt8} (hs : q ∉ s) :
    strstr (q :: word) (s ++ q :: t) = strstr (q :: word) (q :: t) := strstr_skip_front hs

theorem strstr_quoted {q : UInt8} {word s t : List UInt8} (hs : q ∉ s) (hword : q ∉ word) :
    strstr (q :: (word ++ [q])) (q :: (s ++ q :: t)) =
      if s = word then some (q :: (s ++ q :: t)) else strstr (q :: (word ++ [q])) (q :: t) := by
  split_ifs with heq
  · rw [heq]
    exact strstr_prefix ⟨t, by simp⟩
  · have hhere : ¬ (q :: (word ++ [q])).isPrefixOf (q :: (s ++ q :: t)) := by
      rw [List.isPrefixOf_iff_prefix, List.cons_prefix_cons]
      rintro ⟨-, rest, hrest⟩
      rw [List.append_assoc, List.singleton_append] at hrest
      have htakes := congrArg (List.takeWhile fun c => c ≠ q) hrest
      rw [takeWhile_append_cons hword, takeWhile_append_cons hs] at htakes
      exact heq htakes.symm
    rw [strstr, if_neg hhere, strstr_skip hs]

/-! ### Numbers -/

/-- The value of a digit in `base`. -/
def digit (base : Nat) (c : UInt8) : Option Nat :=
  let value :=
    if 48 ≤ c ∧ c ≤ 57 then c.toNat - 48
    else if 97 ≤ toLower c ∧ toLower c ≤ 122 then (toLower c).toNat - 87
    else base
  if value < base then some value else none

/-- The digits at the start of the string, added to `value`. -/
def readDigits (base : Nat) (value : Nat) : List UInt8 → Nat
  | [] => value
  | c :: s =>
    match digit base c with
    | some d => readDigits base (value * base + d) s
    | none => value

/-- What `strtol` and `strtoull` read, before it is fitted to the result type: whether there is a minus
sign, and the digits' value; nothing when there is no digit. -/
def readNumber (base : Nat) (s : List UInt8) : Option (Bool × Nat) :=
  let s := s.dropWhile isSpace
  let negative := s.head? = some 45
  let s := if s.head? = some 45 ∨ s.head? = some 43 then s.tail else s
  -- a "0x" is skipped in base 16 when a digit follows
  let s := if base = 16 ∧ startsIgnoreCase s (ascii "0x") ∧ ((s.drop 2).head?.bind (digit base)).isSome
    then s.drop 2 else s
  if (s.head?.bind (digit base)).isSome then some (negative, readDigits base 0 s) else none

/-- `strtol` of a 64-bit `long`, out of range values clamped; nothing when `endptr == nptr`. -/
def strtol (base : Nat) (s : List UInt8) : Option Int :=
  (readNumber base s).map fun (negative, n) =>
    if negative then max (-(2 ^ 63)) (-(n : Int)) else min (2 ^ 63 - 1) (n : Int)

/-- `strtoull`: an out of range value gives the largest one, a minus sign negates. -/
def strtoull (base : Nat) (s : List UInt8) : Option UInt64 :=
  (readNumber base s).map fun (negative, n) =>
    if n ≥ 2 ^ 64 then UInt64.ofNat (2 ^ 64 - 1)
    else if negative then - UInt64.ofNat n else UInt64.ofNat n

/-- The conversion of a `long` to a 32-bit `int`. -/
def toInt (n : Int) : Int := n.bmod (2 ^ 32)

theorem toInt_eq_iff {n : Int} : toInt n = n ↔ -2 ^ 31 ≤ n ∧ n < 2 ^ 31 := by
  rw [toInt, Int.bmod_def]
  omega

theorem toInt_toInt (n : Int) : toInt (toInt n) = toInt n := Int.bmod_bmod

/-! ### Formats -/

/-- `%d`, `%u` and `%llu`. -/
def decimal (n : Int) : List UInt8 := ascii (toString n)

theorem decimal_length {n : Int} (hlow : -2 ^ 63 ≤ n) (hhigh : n < 2 ^ 63) : (decimal n).length ≤ 20 := by
  rw [decimal, ascii, List.length_map, String.length_toList]
  cases n with
  | ofNat m =>
      rw [Int.ofNat_eq_natCast] at hhigh
      have hdigits : m.repr.length ≤ 19 := (Nat.length_repr_le_iff (by decide)).mpr (by omega)
      rw [show toString (Int.ofNat m) = m.repr from rfl]
      omega
  | negSucc m =>
      have hdigits : (m + 1).repr.length ≤ 19 := (Nat.length_repr_le_iff (by decide)).mpr (by omega)
      rw [show toString (Int.negSucc m) = "-" ++ (m + 1).repr from rfl, String.length_append,
        show "-".length = 1 from rfl]
      omega

/-- `snprintf` into a buffer of `size` bytes: the string it leaves there. -/
def snprintf (size : Nat) (text : List UInt8) : List UInt8 := text.take (size - 1)

end CString
