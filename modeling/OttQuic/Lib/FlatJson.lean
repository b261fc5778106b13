import OttQuic.Lib.Scan
import Mathlib.Data.Option.Basic

/-!
# Flat JSON objects

The texts of JSON objects whose members are integers and strings without escapes, in any order and with any white
space between the tokens. A reader that does not parse such a text but searches it sees its strings one after the
other: a word in quotes is found at the first key or string that equals it, and a bare word in the first one that
contains it. `Found` and `Mention` are the places where these two searches arrive.
-/

namespace FlatJson

open CString Scan

/-- White space between tokens. -/
def isBlank (c : UInt8) : Bool := c = 32 ∨ c = 9 ∨ c = 10 ∨ c = 13

/-- A character of a string that has no escapes. -/
def isPlain (c : UInt8) : Bool := 32 ≤ c ∧ c ≠ 34 ∧ c ≠ 92

abbrev Space := { s : List UInt8 // ∀ c ∈ s, isBlank c = true }

abbrev Text := { s : List UInt8 // ∀ c ∈ s, isPlain c = true }

/-- An integer as it is written. -/
structure Integer where
  negative : Bool
  digits : List UInt8
  digits_ne_nil : digits ≠ []
  digits_isDigit : ∀ c ∈ digits, isDigit c = true
  noLeadingZero : digits.head? = some 48 → digits = [48]
  deriving DecidableEq

inductive Scalar where
  | text (s : Text)
  | integer (i : Integer)
  deriving DecidableEq

/-- A member with the white space around its tokens. -/
structure Member where
  before : Space
  key : Text
  beforeColon : Space
  afterColon : Space
  value : Scalar
  after : Space

structure Object where
  before : Space
  inner : Space
  members : List Member
  after : Space
  distinct : (members.map Member.key).Nodup

/-- The value of the integer. -/
def Integer.value (i : Integer) : Int :=
  if i.negative then -(readDigits 10 0 i.digits : Int) else readDigits 10 0 i.digits

def Integer.print (i : Integer) : List UInt8 := (if i.negative then [45] else []) ++ i.digits

def Scalar.print : Scalar → List UInt8
  | .text s => 34 :: (s.val ++ [34])
  | .integer i => i.print

/-- What stands behind a member's key. -/
def Member.behindKey (m : Member) (rest : List UInt8) : List UInt8 :=
  m.beforeColon.val ++ 58 :: (m.afterColon.val ++ (m.value.print ++ (m.after.val ++ rest)))

def Member.print (m : Member) (rest : List UInt8) : List UInt8 :=
  m.before.val ++ 34 :: (m.key.val ++ 34 :: m.behindKey rest)

/-- The members, each with the separator in front, and the closing brace. -/
def printMembers (after : Space) (separator : List UInt8) : List Member → List UInt8
  | [] => 125 :: after.val
  | m :: ms => separator ++ m.print (printMembers after [44] ms)

/-- The text of the object. -/
def Object.print (o : Object) : List UInt8 := o.before.val ++ 123 :: (o.inner.val ++ printMembers o.after [] o.members)

/-- The value of the member with this key. -/
def Object.lookup (o : Object) (key : List UInt8) : Option Scalar :=
  (o.members.find? fun m => m.key.val = key).map Member.value

def noSpace : Space := ⟨[], fun _ hc => nomatch hc⟩

/-- A member without white space. -/
def Member.tight (key : Text) (value : Scalar) : Member := ⟨noSpace, key, noSpace, noSpace, value, noSpace⟩

def Text.ofAscii (s : String) (hs : (ascii s).all isPlain = true) : Text := ⟨ascii s, List.all_eq_true.mp hs⟩

/-- The integer with these digits, of which the first is not zero. -/
def Integer.ofAscii (digits : String) (hdigits : (ascii digits).all isDigit = true)
    (hstart : ((ascii digits).head?.any fun c => c != 48) = true) : Integer where
  negative := false
  digits := ascii digits
  digits_ne_nil hnil := by
    rw [hnil] at hstart
    cases hstart
  digits_isDigit := List.all_eq_true.mp hdigits
  noLeadingZero hzero := by
    rw [hzero] at hstart
    cases hstart

/-! ### Characters -/

section

variable {c q : UInt8} {word : List UInt8}

theorem Space.not_mem (s : Space) (hc : isBlank c = false) : c ∉ s.val := fun hmem => by
  rw [s.property c hmem] at hc
  cases hc

theorem Text.not_mem (s : Text) (hc : isPlain c = false) : c ∉ s.val := fun hmem => by
  rw [s.property c hmem] at hc
  cases hc

theorem Space.isSpace (s : Space) : ∀ c ∈ s.val, isSpace c = true := fun c hc => by
  have hblank := s.property c hc
  simp only [isBlank, decide_eq_true_eq] at hblank
  rcases hblank with rfl | rfl | rfl | rfl
  all_goals decide

theorem Integer.not_mem (i : Integer) (hc : isDigit c = false) (hminus : c ≠ 45) : c ∉ i.print := fun hmem => by
  rcases List.mem_append.mp hmem with hsign | hdigit
  · split_ifs at hsign
    · exact hminus (List.mem_singleton.mp hsign)
    · cases hsign
  · rw [i.digits_isDigit c hdigit] at hc
    cases hc

end

theorem Object.not_mem_print {c : UInt8} (o : Object) (hblank : isBlank c = false) (hplain : isPlain c = false)
    (hdigit : isDigit c = false) (hmark : c ∉ [34, 44, 45, 58, 123, 125]) : c ∉ o.print := by
  have hspace (s : Space) : c ∉ s.val := s.not_mem hblank
  have htext (s : Text) : c ∉ s.val := s.not_mem hplain
  have hinteger (i : Integer) : c ∉ i.print := i.not_mem hdigit fun heq => hmark (by simp [heq])
  have hmember (m : Member) (rest : List UInt8) (hrest : c ∉ rest) : c ∉ m.print rest := by
    simp only [List.mem_cons, List.not_mem_nil, or_false, not_or] at hmark
    cases hvalue : m.value with
    | text s => simp [Member.print, Member.behindKey, Scalar.print, hvalue, hspace, htext, hmark, hrest]
    | integer i => simp [Member.print, Member.behindKey, Scalar.print, hvalue, hspace, htext, hinteger, hmark, hrest]
  have hmembers (separator : List UInt8) (hseparator : c ∉ separator) :
      c ∉ printMembers o.after separator o.members := by
    induction o.members generalizing separator with
    | nil =>
        simp only [List.mem_cons, List.not_mem_nil, or_false, not_or] at hmark
        simp [printMembers, hspace, hmark]
    | cons m ms ih =>
        have hcomma : c ∉ [44] := fun h => hmark (by simp [List.mem_singleton.mp h])
        rw [printMembers, List.mem_append, not_or]
        exact ⟨hseparator, hmember m _ (ih [44] hcomma)⟩
  have hbrace : c ≠ 123 := fun heq => hmark (by simp [heq])
  simp [Object.print, hspace, hbrace, hmembers [] List.not_mem_nil]

/-! ### Quoted words -/

/-- Where the search for a word in quotes and the next colon arrives. -/
inductive Found where
  | value (v : Scalar)
  /-- In a key, behind its first colon. -/
  | inKey (s : List UInt8)
  deriving DecidableEq

/-- What the next colon leads to, behind a member. -/
def nextFound : List Member → Option Found
  | [] => none
  | m :: _ =>
    match strchr 58 m.key.val with
    | some s => some (.inKey s.tail)
    | none => some (.value m.value)

/-- The first key or string that is the word, and the next colon. -/
def foundIn (word : List UInt8) : List Member → Option Found
  | [] => none
  | m :: ms =>
    if m.key.val = word then some (.value m.value)
    else
      match m.value with
      | .text s => if s.val = word then nextFound ms else foundIn word ms
      | .integer _ => foundIn word ms

def Object.found (o : Object) (word : List UInt8) : Option Found := foundIn word o.members

/-- The text goes on with what is found there. -/
inductive Found.At : Found → List UInt8 → Prop
  | value (before : Space) (v : Scalar) (after : Space) (c : UInt8) (rest : List UInt8) (hc : c = 44 ∨ c = 125) :
    Found.At (.value v) (before.val ++ (v.print ++ (after.val ++ c :: rest)))
  | inKey (s : List UInt8) (hs : ∀ c ∈ s, isPlain c = true) (before : Space) (rest : List UInt8) :
    Found.At (.inKey s) (s ++ 34 :: (before.val ++ 58 :: rest))

/-- The search, in any text. -/
def behindColon (word text : List UInt8) : Option (List UInt8) :=
  ((strstr (34 :: (word ++ [34])) text).bind fun p => strchr 58 (p.drop (word.length + 2))).map List.tail

section

variable {word : List UInt8} {after : Space} {m : Member} {ms : List Member}

theorem behindColon_congr {text text' : List UInt8}
    (h : strstr (34 :: (word ++ [34])) text = strstr (34 :: (word ++ [34])) text') :
    behindColon word text = behindColon word text' := by
  rw [behindColon, behindColon, h]

theorem behindColon_found (word rest : List UInt8) :
    behindColon word (34 :: (word ++ 34 :: rest)) = (strchr 58 rest).map List.tail := by
  have hfound : strstr (34 :: (word ++ [34])) (34 :: (word ++ 34 :: rest)) = some (34 :: (word ++ 34 :: rest)) :=
    strstr_prefix ⟨rest, by simp⟩
  have hdrop : (34 :: (word ++ 34 :: rest)).drop (word.length + 2) = rest := by
    have hsplit : 34 :: (word ++ 34 :: rest) = (34 :: (word ++ [34])) ++ rest := by simp
    rw [hsplit]
    exact List.drop_left' (by simp)
  rw [behindColon, hfound, Option.bind_some, hdrop]

theorem behindColon_few {text : List UInt8} (hfew : text.count 34 < 2) : behindColon word text = none := by
  have hnone : strstr (34 :: (word ++ [34])) text = none := by
    cases hfound : strstr (34 :: (word ++ [34])) text with
    | none => rfl
    | some p =>
        have hinfix : 34 :: (word ++ [34]) <:+: text := strstr_isSome.mp (by rw [hfound]; rfl)
        have hcount : (34 :: (word ++ [34])).count 34 ≤ text.count 34 := hinfix.sublist.count_le 34
        simp only [List.count_cons_self, List.count_append, List.count_nil] at hcount
        omega
  rw [behindColon, hnone]
  rfl

theorem strchr_behindKey (m : Member) (rest : List UInt8) :
    strchr 58 (m.behindKey rest) = some (58 :: (m.afterColon.val ++ (m.value.print ++ (m.after.val ++ rest)))) :=
  strchr_append_cons (m.beforeColon.not_mem (by decide))

theorem printMembers_head (after : Space) (ms : List Member) :
    ∃ c rest, printMembers after [44] ms = c :: rest ∧ (c = 44 ∨ c = 125) := by
  cases ms with
  | nil => exact ⟨125, _, rfl, .inr rfl⟩
  | cons m ms => exact ⟨44, _, rfl, .inl rfl⟩

theorem Found.At.ofMember (m : Member) (after : Space) (ms : List Member) :
    Found.At (.value m.value) (m.afterColon.val ++ (m.value.print ++ (m.after.val ++ printMembers after [44] ms))) := by
  obtain ⟨c, rest, hrest, hc⟩ := printMembers_head after ms
  rw [hrest]
  exact .value m.afterColon m.value m.after c rest hc

theorem nextFound_at (s after : Space) (ms : List Member) :
    Option.Rel Found.At (nextFound ms) ((strchr 58 (s.val ++ printMembers after [44] ms)).map List.tail) := by
  have hs : strchr 58 s.val = none := strchr_eq_none.mpr (s.not_mem (by decide))
  rw [strchr_append, hs, Option.map_none, Option.none_or]
  cases ms with
  | nil =>
      have hblank : 58 ∉ after.val := after.not_mem (by decide)
      have hend : strchr 58 (printMembers after [44] []) = none := strchr_eq_none.mpr (by simp [printMembers, hblank])
      rw [hend]
      exact .none
  | cons m ms =>
      have hbefore : strchr 58 (44 :: (m.before.val ++ [34])) = none := by
        refine strchr_eq_none.mpr ?_
        have hblank : 58 ∉ m.before.val := m.before.not_mem (by decide)
        simp [hblank]
      have htext : printMembers after [44] (m :: ms) =
          (44 :: (m.before.val ++ [34])) ++ (m.key.val ++ 34 :: m.behindKey (printMembers after [44] ms)) := by
        simp [printMembers, Member.print]
      rw [htext, strchr_append, hbefore, Option.map_none, Option.none_or, strchr_append, nextFound]
      by_cases hcolon : 58 ∈ m.key.val
      · obtain ⟨front, tail, hkey, hfront⟩ := List.eq_append_cons_of_mem hcolon
        have hplain : ∀ c ∈ tail, isPlain c = true := fun c hc => m.key.property c (by simp [hkey, hc])
        rw [hkey, strchr_append_cons hfront]
        exact .some (.inKey tail hplain m.beforeColon _)
      · rw [strchr_eq_none.mpr hcolon, Option.map_none, Option.none_or, strchr, if_neg (by decide), strchr_behindKey]
        exact .some (Found.At.ofMember m after ms)

/-- The word is neither empty nor could it stand between two strings. -/
structure IsWord (word : List UInt8) : Prop where
  quote : 34 ∉ word
  colon : 58 ∉ word
  comma : 44 ∉ word

theorem foundIn_at (hword : IsWord word) (m : Member) (after : Space) (ms : List Member)
    (ih : ∀ s : List UInt8, 34 ∉ s →
      Option.Rel Found.At (foundIn word ms) (behindColon word (34 :: (s ++ printMembers after [44] ms)))) :
    Option.Rel Found.At (foundIn word (m :: ms))
      (behindColon word (34 :: (m.key.val ++ 34 :: m.behindKey (printMembers after [44] ms)))) := by
  have hkeyQuote : 34 ∉ m.key.val := m.key.not_mem (by decide)
  rw [foundIn]
  split_ifs with hkey
  · rw [hkey, behindColon_found, strchr_behindKey]
    exact .some (Found.At.ofMember m after ms)
  · rw [behindColon_congr (strstr_quoted hkeyQuote hword.quote |>.trans (if_neg hkey))]
    have hseparator : 34 ∉ m.beforeColon.val ++ 58 :: m.afterColon.val := by
      have hbefore : 34 ∉ m.beforeColon.val := m.beforeColon.not_mem (by decide)
      have hafter : 34 ∉ m.afterColon.val := m.afterColon.not_mem (by decide)
      simp [hbefore, hafter]
    have hafter : 34 ∉ m.after.val := m.after.not_mem (by decide)
    cases hvalue : m.value with
    | integer i =>
        have hinteger : 34 ∉ i.print := i.not_mem (by decide) (by decide)
        have hrest := ih (m.beforeColon.val ++ 58 :: m.afterColon.val ++ (i.print ++ m.after.val))
          (by simp only [List.mem_append, not_or] at hseparator ⊢; exact ⟨hseparator, hinteger, hafter⟩)
        have htext : m.behindKey (printMembers after [44] ms) =
            m.beforeColon.val ++ 58 :: m.afterColon.val ++ (i.print ++ m.after.val) ++ printMembers after [44] ms := by
          simp [Member.behindKey, Scalar.print, hvalue]
        rw [htext]
        exact hrest
    | text s =>
        have hs : 34 ∉ s.val := s.not_mem (by decide)
        have htext : 34 :: m.behindKey (printMembers after [44] ms) =
            34 :: (m.beforeColon.val ++ 58 :: m.afterColon.val ++ 34 ::
              (s.val ++ 34 :: (m.after.val ++ printMembers after [44] ms))) := by
          simp [Member.behindKey, Scalar.print, hvalue]
        have hne : m.beforeColon.val ++ 58 :: m.afterColon.val ≠ word := fun heq => hword.colon (by simp [← heq])
        rw [htext, behindColon_congr (strstr_quoted hseparator hword.quote |>.trans (if_neg hne))]
        dsimp only
        split_ifs with hword'
        · rw [hword', behindColon_found]
          exact nextFound_at m.after after ms
        · rw [behindColon_congr (strstr_quoted hs hword.quote |>.trans (if_neg hword'))]
          exact ih m.after.val hafter

theorem foundIn_members (hword : IsWord word) (after : Space) (ms : List Member) :
    ∀ s : List UInt8, 34 ∉ s →
      Option.Rel Found.At (foundIn word ms) (behindColon word (34 :: (s ++ printMembers after [44] ms))) := by
  induction ms with
  | nil =>
      intro s hs
      have hafter : 34 ∉ after.val := after.not_mem (by decide)
      have hfew : (34 :: (s ++ printMembers after [44] [])).count 34 < 2 := by
        simp [printMembers, List.count_eq_zero_of_not_mem hs, List.count_eq_zero_of_not_mem hafter]
      rw [behindColon_few hfew]
      exact .none
  | cons m ms ih =>
      intro s hs
      have hbefore : 34 ∉ m.before.val := m.before.not_mem (by decide)
      have htext : s ++ printMembers after [44] (m :: ms) = (s ++ 44 :: m.before.val) ++ 34 ::
          (m.key.val ++ 34 :: m.behindKey (printMembers after [44] ms)) := by
        simp [printMembers, Member.print]
      have hquote : 34 ∉ s ++ 44 :: m.before.val := by simp [hs, hbefore]
      have hne : s ++ 44 :: m.before.val ≠ word := fun heq => hword.comma (by simp [← heq])
      rw [htext, behindColon_congr (strstr_quoted hquote hword.quote |>.trans (if_neg hne))]
      exact foundIn_at hword m after ms ih

/-- **Where a word in quotes is found** in the text of an object. -/
theorem found_print (hword : IsWord word) (o : Object) :
    Option.Rel Found.At (o.found word) (behindColon word o.print) := by
  have hbefore : 34 ∉ o.before.val := o.before.not_mem (by decide)
  have hinner : 34 ∉ o.inner.val := o.inner.not_mem (by decide)
  rw [Object.found, Object.print]
  cases o.members with
  | nil =>
      have hafter : 34 ∉ o.after.val := o.after.not_mem (by decide)
      have hfew : (o.before.val ++ 123 :: (o.inner.val ++ printMembers o.after [] [])).count 34 < 2 := by
        simp [printMembers, List.count_eq_zero_of_not_mem hbefore, List.count_eq_zero_of_not_mem hinner,
          List.count_eq_zero_of_not_mem hafter]
      rw [behindColon_few hfew]
      exact .none
  | cons m ms =>
      have hmember : 34 ∉ m.before.val := m.before.not_mem (by decide)
      have htext : o.before.val ++ 123 :: (o.inner.val ++ printMembers o.after [] (m :: ms)) =
          (o.before.val ++ 123 :: (o.inner.val ++ m.before.val)) ++ 34 ::
            (m.key.val ++ 34 :: m.behindKey (printMembers o.after [44] ms)) := by
        simp [printMembers, Member.print]
      have hquote : 34 ∉ o.before.val ++ 123 :: (o.inner.val ++ m.before.val) := by simp [hbefore, hinner, hmember]
      rw [htext, behindColon_congr (strstr_skip hquote)]
      exact foundIn_at hword m o.after ms (foundIn_members hword o.after ms)

end

/-! ### What is read there -/

/-- The number that is found. -/
def Found.number : Found → Option Int
  | .value (.integer i) => some i.value
  | .value (.text _) => none
  | .inKey s => integerAt s

def Found.string : Found → Option (List UInt8)
  | .value (.text s) => some s.val
  | .value (.integer _) | .inKey _ => none

section

variable {found : Found} {t : List UInt8}

theorem integerAt_quote (s rest : List UInt8) : integerAt (s ++ 34 :: rest) = integerAt s :=
  integerAt_append (by decide) (by decide) (by decide) (by decide)

theorem Integer.print_head (i : Integer) : ∃ d u, i.print = d :: u ∧ CString.isSpace d = false ∧ d ≠ 34 := by
  obtain ⟨d, u, hdigits⟩ := List.exists_cons_of_ne_nil i.digits_ne_nil
  have hd : Scan.isDigit d = true := i.digits_isDigit d (by simp [hdigits])
  rw [Integer.print, hdigits]
  split_ifs
  · exact ⟨45, d :: u, rfl, by decide, by decide⟩
  · refine ⟨d, u, rfl, (isDigit_plain hd).1, ?_⟩
    rintro rfl
    cases hd

theorem integerAt_print (i : Integer) (after : Space) {c : UInt8} (rest : List UInt8) (hc : c = 44 ∨ c = 125) :
    integerAt (i.print ++ (after.val ++ c :: rest)) = some i.value := by
  obtain ⟨d, u, htext, hd⟩ : ∃ d u, after.val ++ c :: rest = d :: u ∧ isDigit d = false := by
    cases hafter : after.val with
    | nil =>
        refine ⟨c, rest, rfl, ?_⟩
        rcases hc with rfl | rfl
        all_goals decide
    | cons d u =>
        refine ⟨d, u ++ c :: rest, rfl, ?_⟩
        have hspace := after.isSpace d (by simp [hafter])
        cases hdigit : isDigit d with
        | false => rfl
        | true => cases hspace.symm.trans (isDigit_plain hdigit).1
  rw [htext, Integer.print, List.append_assoc, integerAt_digits i.digits_isDigit i.digits_ne_nil hd]
  rfl

/-- **The number at a place** is the member's, or what stands in the key. -/
theorem Found.At.number (h : found.At t) : integerAt t = found.number := by
  cases h with
  | value before v after c rest hc =>
      rw [integerAt_blank before.isSpace]
      cases v with
      | integer i => exact integerAt_print i after rest hc
      | text s => exact integerAt_quote [] _
  | inKey s hs before rest => exact integerAt_quote s _

/-- **The string at a place** is the member's; in a key, a string would reach over a colon. -/
theorem Found.At.string {s rest : List UInt8} (h : found.At t)
    (hs : t.dropWhile CString.isSpace = 34 :: (s ++ 34 :: rest)) (hquote : 34 ∉ s) :
    found.string = some s ∨ found.string = none ∧ 58 ∈ s := by
  have hsame {u rest' : List UInt8} (hu : u ++ 34 :: rest' = s ++ 34 :: rest) (hquote' : 34 ∉ u) : u = s := by
    have hfront := congrArg (List.takeWhile fun c => c ≠ 34) hu
    rwa [takeWhile_append_cons hquote', takeWhile_append_cons hquote] at hfront
  cases h with
  | value before v after c rest' hc =>
      rw [List.dropWhile_append_of_pos before.isSpace] at hs
      cases v with
      | integer i =>
          obtain ⟨d, u, hprint, hspace, hd⟩ := i.print_head
          rw [Scalar.print, hprint, List.cons_append, List.dropWhile_cons_of_neg (by simp [hspace])] at hs
          exact absurd (List.cons.inj hs).1 hd
      | text u =>
          left
          have hu : 34 ∉ u.val := u.not_mem (by decide)
          have hstart : (Scalar.text u).print ++ (after.val ++ c :: rest') =
              34 :: (u.val ++ 34 :: (after.val ++ c :: rest')) := by simp [Scalar.print]
          rw [hstart, List.dropWhile_cons_of_neg (by decide)] at hs
          exact congrArg some (hsame (List.cons.inj hs).2 hu)
  | inKey k hk before rest' =>
      right
      refine ⟨rfl, ?_⟩
      rw [List.dropWhile_append] at hs
      split_ifs at hs with hblank
      · rw [List.dropWhile_cons_of_neg (by decide)] at hs
        have hbefore : 34 ∉ before.val := before.not_mem (by decide)
        have hfront := congrArg (List.takeWhile fun c => c ≠ 34) (List.cons.inj hs).2
        rw [takeWhile_append_cons hquote, List.takeWhile_append_of_pos fun c hc =>
          decide_eq_true (ne_of_mem_of_not_mem hc hbefore), List.takeWhile_cons_of_pos (by decide)] at hfront
        rw [← hfront]
        simp
      · cases hrest : k.dropWhile CString.isSpace with
        | nil => simp [hrest] at hblank
        | cons d u =>
            have hmem : d ∈ k := (List.dropWhile_suffix CString.isSpace).subset (by simp [hrest])
            rw [hrest] at hs
            have hquote' := hk d hmem
            rw [(List.cons.inj hs).1] at hquote'
            cases hquote'

theorem Found.At.text_some {s : List UInt8} (h : found.At t) (hs : found.string = some s) :
    34 ∉ s ∧ ∃ rest, t.dropWhile CString.isSpace = 34 :: (s ++ 34 :: rest) := by
  cases h with
  | value before v after c rest hc =>
      cases v with
      | integer i => cases hs
      | text u =>
          obtain rfl := Option.some.inj hs
          refine ⟨u.not_mem (by decide), after.val ++ c :: rest, ?_⟩
          rw [List.dropWhile_append_of_pos before.isSpace]
          simp [Scalar.print, CString.isSpace]
  | inKey s hs before rest => cases hs

end

/-! ### Bare words -/

/-- Where the search for a word without quotes arrives, with what the string has behind the word. -/
inductive Mention where
  | inKey (m : Member) (tail : List UInt8)
  | inText (tail : List UInt8)

/-- The first key or string that has the word. -/
def mentionIn (word : List UInt8) : List Member → Option Mention
  | [] => none
  | m :: ms =>
    match strstr word m.key.val with
    | some p => some (.inKey m (p.drop word.length))
    | none =>
      match m.value with
      | .integer _ => mentionIn word ms
      | .text s =>
        match strstr word s.val with
        | some p => some (.inText (p.drop word.length))
        | none => mentionIn word ms

def Object.mention (o : Object) (word : List UInt8) : Option Mention := mentionIn word o.members

/-- The text behind the word. -/
inductive Mention.At : Mention → List UInt8 → Prop
  | inKey (m : Member) (tail : List UInt8) (htail : ∀ c ∈ tail, isPlain c = true) (c : UInt8) (rest : List UInt8)
      (hc : c = 44 ∨ c = 125) : Mention.At (.inKey m tail) (tail ++ 34 :: m.behindKey (c :: rest))
  | inText (tail : List UInt8) (htail : ∀ c ∈ tail, isPlain c = true) (after : Space) (c : UInt8) (rest : List UInt8)
      (hc : c = 44 ∨ c = 125) : Mention.At (.inText tail) (tail ++ 34 :: (after.val ++ c :: rest))

/-- The search, in any text. -/
def behindWord (word text : List UInt8) : Option (List UInt8) := (strstr word text).map (List.drop word.length)

/-- The word begins with a character that stands in strings only, and has no quote. -/
structure IsBareWord (word : List UInt8) : Prop where
  quote : 34 ∉ word
  head : ∃ q w, word = q :: w ∧ isBlank q = false ∧ isDigit q = false ∧ q ∉ [34, 44, 45, 58, 123, 125]

section

variable {word s t : List UInt8} {after : Space} {m : Member} {ms : List Member}

theorem behindWord_append_right {p : List UInt8} (h : strstr word s = some p) (t : List UInt8) :
    behindWord word (s ++ t) = some (p.drop word.length ++ t) := by
  rw [behindWord, strstr_append_right h, Option.map_some, List.drop_append_of_le_length (strstr_some h).2.length_le]

theorem behindWord_string (hword : IsBareWord word) (s t : List UInt8) :
    behindWord word (s ++ 34 :: t) =
      match strstr word s with
      | some p => some (p.drop word.length ++ 34 :: t)
      | none => behindWord word t := by
  cases hs : strstr word s with
  | some p => exact behindWord_append_right hs (34 :: t)
  | none =>
      have habsent : ¬ word <:+: s := fun hinfix => by
        rw [← strstr_isSome, hs] at hinfix
        cases hinfix
      rw [behindWord, strstr_past hword.quote habsent, behindWord]

theorem behindWord_skip (hword : IsBareWord word)
    (hs : ∀ c ∈ s, isBlank c = true ∨ isDigit c = true ∨ c ∈ [34, 44, 45, 58, 123, 125]) :
    behindWord word (s ++ t) = behindWord word t := by
  obtain ⟨q, w, rfl, hblank, hdigit, hmem⟩ := hword.head
  have hq : q ∉ s := fun hq => by
    rcases hs q hq with h | h | h
    · rw [hblank] at h
      cases h
    · rw [hdigit] at h
      cases h
    · exact hmem h
  rw [behindWord, behindWord, strstr_skip_front hq]

theorem behindWord_space (hword : IsBareWord word) (space : Space) :
    behindWord word (space.val ++ t) = behindWord word t :=
  behindWord_skip hword fun c hc => .inl (space.property c hc)

theorem behindWord_mark (hword : IsBareWord word) {c : UInt8} (hc : c ∈ [34, 44, 45, 58, 123, 125]) :
    behindWord word (c :: t) = behindWord word t := by
  refine behindWord_skip (s := [c]) hword fun d hd => ?_
  rw [List.mem_singleton.mp hd]
  exact .inr (.inr hc)

theorem behindWord_integer (hword : IsBareWord word) (i : Integer) :
    behindWord word (i.print ++ t) = behindWord word t := by
  refine behindWord_skip hword fun c hc => ?_
  rcases List.mem_append.mp hc with hsign | hdigit
  · split_ifs at hsign
    · rw [List.mem_singleton.mp hsign]
      exact .inr (.inr (by decide))
    · cases hsign
  · exact .inr (.inl (i.digits_isDigit c hdigit))

theorem Text.drop_plain {s : Text} {p : List UInt8} (h : strstr word s.val = some p) :
    ∀ c ∈ p.drop word.length, isPlain c = true := fun c hc =>
  s.property c ((strstr_some h).1.subset (List.mem_of_mem_drop hc))

theorem mentionIn_cons_at (hword : IsBareWord word) (m : Member) (after : Space) (ms : List Member)
    (ih : Option.Rel Mention.At (mentionIn word ms) (behindWord word (printMembers after [44] ms))) :
    Option.Rel Mention.At (mentionIn word (m :: ms))
      (behindWord word (m.key.val ++ 34 :: m.behindKey (printMembers after [44] ms))) := by
  obtain ⟨c, rest, hrest, hc⟩ := printMembers_head after ms
  rw [behindWord_string hword, mentionIn]
  cases hkey : strstr word m.key.val with
  | some p =>
      rw [hrest]
      exact .some (.inKey m _ (Text.drop_plain hkey) c rest hc)
  | none =>
      dsimp only
      rw [Member.behindKey, behindWord_space hword, behindWord_mark hword (by decide), behindWord_space hword]
      cases hvalue : m.value with
      | integer i =>
          rw [Scalar.print, behindWord_integer hword, behindWord_space hword]
          exact ih
      | text s =>
          rw [Scalar.print, List.cons_append, List.append_assoc, List.singleton_append,
            behindWord_mark hword (by decide), behindWord_string hword]
          dsimp only
          cases htext : strstr word s.val with
          | some p =>
              dsimp only
              rw [hrest]
              exact .some (.inText _ (Text.drop_plain htext) m.after c rest hc)
          | none =>
              dsimp only
              rw [behindWord_space hword]
              exact ih

theorem behindWord_nil (hword : IsBareWord word) : behindWord word [] = none := by
  obtain ⟨q, w, rfl, -⟩ := hword.head
  rfl

theorem behindWord_end (hword : IsBareWord word) (after : Space) (separator : List UInt8) :
    behindWord word (printMembers after separator []) = none := by
  have hspace : behindWord word (after.val ++ []) = behindWord word [] := behindWord_space hword after
  rw [printMembers, behindWord_mark hword (by decide), ← List.append_nil after.val, hspace, behindWord_nil hword]

theorem mentionIn_at (hword : IsBareWord word) (after : Space) (ms : List Member) :
    Option.Rel Mention.At (mentionIn word ms) (behindWord word (printMembers after [44] ms)) := by
  induction ms with
  | nil =>
      rw [behindWord_end hword]
      exact .none
  | cons m ms ih =>
      rw [printMembers, List.singleton_append, behindWord_mark hword (by decide), Member.print, behindWord_space hword,
        behindWord_mark hword (by decide)]
      exact mentionIn_cons_at hword m after ms ih

/-- **Where a bare word is found** in the text of an object. -/
theorem mention_print (hword : IsBareWord word) (o : Object) :
    Option.Rel Mention.At (o.mention word) (behindWord word o.print) := by
  rw [Object.mention, Object.print, behindWord_space hword, behindWord_mark hword (by decide), behindWord_space hword]
  cases o.members with
  | nil =>
      rw [behindWord_end hword]
      exact .none
  | cons m ms =>
      rw [printMembers, List.nil_append, Member.print, behindWord_space hword, behindWord_mark hword (by decide)]
      exact mentionIn_cons_at hword m o.after ms (mentionIn_at hword o.after ms)

theorem mentionIn_mem {tail : List UInt8} (h : mentionIn word ms = some (.inKey m tail)) :
    m ∈ ms ∧ ∃ front, m.key.val = front ++ word ++ tail := by
  induction ms with
  | nil => cases h
  | cons m' ms ih =>
      have hlater (h : mentionIn word ms = some (.inKey m tail)) :
          m ∈ m' :: ms ∧ ∃ front, m.key.val = front ++ word ++ tail :=
        ⟨List.mem_cons_of_mem m' (ih h).1, (ih h).2⟩
      rw [mentionIn] at h
      split at h
      · rename_i p hfound
        obtain ⟨rfl, rfl⟩ := Mention.inKey.inj (Option.some.inj h)
        obtain ⟨⟨front, hfront⟩, rest, rfl⟩ := strstr_some hfound
        exact ⟨List.mem_cons_self, front, by rw [← hfront, List.drop_left, List.append_assoc]⟩
      · split at h
        · exact hlater h
        · split at h
          · cases h
          · exact hlater h

end

theorem find?_key {ms : List Member} {m : Member} (hdistinct : (ms.map Member.key).Nodup) (hm : m ∈ ms) :
    (ms.find? fun m' => m'.key.val = m.key.val) = some m := by
  induction ms with
  | nil => cases hm
  | cons m' ms ih =>
      rw [List.map_cons, List.nodup_cons] at hdistinct
      by_cases hkey : m'.key.val = m.key.val
      · rcases List.mem_cons.mp hm with rfl | hlater
        · exact List.find?_cons_of_pos (by simp)
        · exact absurd (Subtype.ext hkey ▸ List.mem_map_of_mem hlater) hdistinct.1
      · have hlater : m ∈ ms := (List.mem_cons.mp hm).resolve_left fun heq => hkey (by rw [heq])
        rw [List.find?_cons_of_neg (by simpa using hkey)]
        exact ih hdistinct.2 hlater

theorem Object.lookup_of_mem {o : Object} {m : Member} (hm : m ∈ o.members) : o.lookup m.key.val = some m.value := by
  rw [Object.lookup, find?_key o.distinct hm, Option.map_some]

end FlatJson
