import Mathlib.Data.Rat.Cast.Defs
import OttQuic.Lib.Json

/-!
# Texts of JSON values

`JSON.parse` reads what `JSON.stringify` writes. A value is read up to a separator or a closing bracket,
so that the lemmas carry the rest of the text along; the fuel is twice the length of the text.
-/

namespace Json

/-! ### Strings -/

theorem hexDigit_hexChar {d : Nat} (h : d < 16) : hexDigit (hexChar d) = some d := by
  revert d
  decide

theorem letter_unit {c : Char} {letter : Char × Nat}
    (h : (letters.find? fun letter => letter.2 = c.toNat) = some letter) :
    letter.1 ≠ 'u' ∧ (letters.find? fun other => other.1 = letter.1) = some letter ∧ letter.2 = c.toNat := by
  have hmem := List.mem_of_find?_eq_some h
  have hunit : letter.2 = c.toNat := by simpa using List.find?_some h
  have htable : ∀ letter ∈ letters,
      letter.1 ≠ 'u' ∧ (letters.find? fun other => other.1 = letter.1) = some letter := by
    decide
  exact ⟨(htable letter hmem).1, (htable letter hmem).2, hunit⟩

theorem control_of_no_letter {c : Char} (hplain : ¬ isPlain c = true)
    (hletter : (letters.find? fun letter => letter.2 = c.toNat) = none) : c.toNat < 32 := by
  by_contra hlarge
  have hspecial : c = '"' ∨ c = '\\' := by
    by_contra hneither
    rw [not_or] at hneither
    exact hplain (by simp [isPlain, hneither.1, hneither.2]; omega)
  obtain rfl | rfl := hspecial <;> exact absurd hletter (by decide)

theorem parseUnits_hex {c : Char} {d : Nat} (h : hexDigit c = some d) (left unit : Nat) (t : List Char) :
    parseUnits (.hex left unit) (c :: t) =
      if left = 1 then push (unit * 16 + d) (parseUnits .plain t)
      else parseUnits (.hex (left - 1) (unit * 16 + d)) t := by
  rw [parseUnits, h]

theorem parseUnits_escape (c : Char) (t : List Char) :
    parseUnits .plain (escape c ++ t) = push c.toNat (parseUnits .plain t) := by
  rw [escape]
  split_ifs with hplain
  · obtain ⟨hquote, hslash, hcontrol⟩ : c ≠ '"' ∧ c ≠ '\\' ∧ 32 ≤ c.toNat := by
      simpa [isPlain] using hplain
    rw [List.singleton_append, parseUnits, if_neg hquote, if_neg hslash, if_neg (by omega)]
  · split
    · rename_i letter hletter
      obtain ⟨hu, hfind, hunit⟩ := letter_unit hletter
      rw [List.cons_append, List.singleton_append, parseUnits, if_neg (by decide), if_pos rfl, parseUnits,
        if_neg hu, hfind, ← hunit]
    · rename_i hletter
      have hsmall := control_of_no_letter hplain hletter
      have hhigh : hexDigit (hexChar (c.toNat / 16)) = some (c.toNat / 16) := hexDigit_hexChar (by omega)
      have hlow : hexDigit (hexChar (c.toNat % 16)) = some (c.toNat % 16) := hexDigit_hexChar (by omega)
      have hzero : hexDigit '0' = some 0 := by decide
      have hunit : (((0 * 16 + 0) * 16 + 0) * 16 + c.toNat / 16) * 16 + c.toNat % 16 = c.toNat := by omega
      have hdigits (t : List Char) : parseUnits (.hex 4 0)
          ('0' :: '0' :: hexChar (c.toNat / 16) :: hexChar (c.toNat % 16) :: t) =
            push c.toNat (parseUnits .plain t) := by
        rw [parseUnits_hex hzero, if_neg (by decide), parseUnits_hex hzero, if_neg (by decide),
          parseUnits_hex hhigh, if_neg (by decide), parseUnits_hex hlow, if_pos rfl, hunit]
      exact hdigits t

theorem parseUnits_print (s t : List Char) :
    parseUnits .plain (s.flatMap escape ++ '"' :: t) = some (s.map Char.toNat, t) := by
  induction s with
  | nil => rw [List.flatMap_nil, List.nil_append, parseUnits, if_pos rfl, List.map_nil]
  | cons c s ih =>
      rw [List.flatMap_cons, List.append_assoc, parseUnits_escape, ih, push, Option.map_some, List.map_cons]

theorem flatMap_escape {s : List Char} (h : ∀ c ∈ s, isPlain c = true) : s.flatMap escape = s := by
  induction s with
  | nil => rfl
  | cons c s ih =>
      obtain ⟨hc, hs⟩ := List.forall_mem_cons.mp h
      rw [List.flatMap_cons, ih hs, escape, if_pos hc, List.singleton_append]

theorem char_not_surrogate (c : Char) : isHigh c.toNat = false ∧ isLow c.toNat = false := by
  have hvalid : c.toNat < 0xD800 ∨ 0xDFFF < c.toNat ∧ c.toNat < 0x110000 := c.valid
  constructor
  · rw [isHigh, decide_eq_false_iff_not]
    omega
  · rw [isLow, decide_eq_false_iff_not]
    omega

theorem single_toNat (c : Char) : single c.toNat = c := by
  rw [single, (char_not_surrogate c).1, (char_not_surrogate c).2, if_neg (by simp), Char.ofNat_toNat]

theorem join_cons {u : Nat} (h : isHigh u = false) (us : List Nat) :
    join (u :: us) = single u :: join us := by
  cases us with
  | nil => rfl
  | cons w us => rw [join, if_neg (by simp [h])]

theorem join_toNat (s : List Char) : join (s.map Char.toNat) = s := by
  induction s with
  | nil => rfl
  | cons c s ih => rw [List.map_cons, join_cons (char_not_surrogate c).1, single_toNat, ih]

theorem parseString_print (s t : List Char) :
    parseString (s.flatMap escape ++ '"' :: t) = some (s, t) := by
  rw [parseString, parseUnits_print, Option.map_some]
  dsimp only
  rw [join_toNat]

/-! ### Numbers -/

/-- What comes after a value. -/
def Ends (t : List Char) : Prop := ∀ c, t.head? = some c → c = ',' ∨ c = ']' ∨ c = '}'

theorem Ends.not_digit {t : List Char} (h : Ends t) : t.takeWhile Char.isDigit = [] ∧ t.dropWhile Char.isDigit = t := by
  cases t with
  | nil => exact ⟨rfl, rfl⟩
  | cons c t =>
      have hdigit : c.isDigit = false := by
        obtain rfl | rfl | rfl := h c rfl <;> rfl
      exact ⟨List.takeWhile_cons_of_neg (by simp [hdigit]), List.dropWhile_cons_of_neg (by simp [hdigit])⟩

theorem Ends.parseFraction {t : List Char} (h : Ends t) : parseFraction t = some (0, t) := by
  rw [Json.parseFraction, if_neg]
  intro hdot
  exact absurd (h '.' hdot) (by decide)

theorem Ends.parseExponent {t : List Char} (h : Ends t) : parseExponent t = some (1, t) := by
  rw [Json.parseExponent, if_neg]
  rintro (he | he)
  · exact absurd (h 'e' he) (by decide)
  · exact absurd (h 'E' he) (by decide)

theorem toDigits_head {n : ℕ} (h : (Nat.toDigits 10 n).head? = some '0') : n = 0 := by
  induction n using Nat.strong_induction_on with
  | _ n ih =>
      by_contra hn
      by_cases hsmall : n < 10
      · rw [Nat.toDigits_of_lt_base hsmall, List.head?_cons, Option.some.injEq] at h
        have hdigit : ∀ d < 10, d.digitChar = '0' → d = 0 := by decide
        exact hn (hdigit n hsmall h)
      · rw [Nat.toDigits_of_base_le (by decide) (by omega), List.head?_append_of_ne_nil _ Nat.toDigits_ne_nil] at h
        have := ih (n / 10) (by omega) h
        omega

theorem takeWhile_toDigits (n : ℕ) {t : List Char} (h : Ends t) :
    (Nat.toDigits 10 n ++ t).takeWhile Char.isDigit = Nat.toDigits 10 n ∧
      (Nat.toDigits 10 n ++ t).dropWhile Char.isDigit = t := by
  have hdigits : ∀ c ∈ Nat.toDigits 10 n, c.isDigit = true := fun c hc =>
    Nat.isDigit_of_mem_toDigits (by decide) (by decide) hc
  rw [List.takeWhile_append_of_pos hdigits, List.dropWhile_append_of_pos hdigits, h.not_digit.1, h.not_digit.2,
    List.append_nil]
  exact ⟨rfl, rfl⟩

theorem parseUnsigned_print (n : ℕ) {t : List Char} (h : Ends t) :
    parseUnsigned (Nat.toDigits 10 n ++ t) = some ((n : ℚ), t) := by
  obtain ⟨hwhole, hrest⟩ := takeWhile_toDigits n h
  have hdigits : ¬ (Nat.toDigits 10 n = [] ∨
      (Nat.toDigits 10 n).head? = some '0' ∧ (Nat.toDigits 10 n).length > 1) := by
    rintro (hnone | ⟨hhead, hlong⟩)
    · exact Nat.toDigits_ne_nil hnone
    · rw [toDigits_head hhead] at hlong
      exact absurd hlong (by decide)
  rw [parseUnsigned]
  dsimp only
  rw [hwhole, hrest, if_neg hdigits, h.parseFraction]
  dsimp only
  rw [h.parseExponent, Nat.ofDigitChars_ten_toDigits, Option.map_some, add_zero, mul_one]

theorem parseNumber_print (n : ℤ) {t : List Char} (h : Ends t) :
    parseNumber ((toString n).toList ++ t) = some ((n : ℚ), t) := by
  cases n with
  | ofNat n =>
      have hsign : (Nat.toDigits 10 n ++ t).head? ≠ some '-' := by
        rw [List.head?_append_of_ne_nil _ Nat.toDigits_ne_nil]
        intro hminus
        have hdigit := Nat.isDigit_of_mem_toDigits (by decide) (by decide) (List.mem_of_head? hminus)
        exact absurd hdigit (by decide)
      rw [show toString (Int.ofNat n) = n.repr from rfl, Nat.toList_repr, parseNumber, if_neg hsign,
        parseUnsigned_print n h]
      rfl
  | negSucc n =>
      have htext : (toString (Int.negSucc n)).toList ++ t = '-' :: (Nat.toDigits 10 (n + 1) ++ t) := by
        rw [show toString (Int.negSucc n) = "-" ++ (n + 1).repr from rfl, String.toList_append,
          Nat.toList_repr]
        rfl
      rw [htext, parseNumber, if_pos List.head?_cons, List.tail_cons, parseUnsigned_print (n + 1) h]
      rfl

/-! ### Values -/

/-- All numbers in the value are whole. -/
inductive Whole : Json → Prop
  | null : Whole .null
  | bool (b : Bool) : Whole (.bool b)
  | num (n : ℤ) : Whole (.num n)
  | str (s : List Char) : Whole (.str s)
  | arr {vs : List Json} (h : ∀ v ∈ vs, Whole v) : Whole (.arr vs)
  | obj {ms : List (List Char × Json)} (h : ∀ m ∈ ms, Whole m.2) : Whole (.obj ms)

theorem skipSpace_cons {c : Char} (h : c ≠ ' ' ∧ c ≠ '\t' ∧ c ≠ '\n' ∧ c ≠ '\r') (t : List Char) :
    skipSpace (c :: t) = c :: t :=
  List.dropWhile_cons_of_neg (by simpa [not_or] using h)

theorem skipSpace_head {c d : Char} (h : c ≠ ' ' ∧ c ≠ '\t' ∧ c ≠ '\n' ∧ c ≠ '\r') (hd : c ≠ d) (t : List Char) :
    (skipSpace (c :: t)).head? ≠ some d := by
  rw [skipSpace_cons h, List.head?_cons]
  exact fun heq => hd (Option.some.inj heq)

/-- The value is read off its text, whatever comes after it. -/
def Reads (v : Json) : Prop :=
  ∀ fuel t, Ends t → 2 * (stringify v ++ t).length ≤ fuel → parseValue fuel (stringify v ++ t) = some (v, t)

theorem ends_cons {c : Char} (h : c = ',' ∨ c = ']' ∨ c = '}') (t : List Char) : Ends (c :: t) := by
  intro d hd
  rwa [← Option.some.inj hd]

theorem parseItems_print {v : Json} {vs : List Json} (h : ∀ w ∈ v :: vs, Reads w) (fuel : ℕ) (t : List Char)
    (hfuel : 2 * (printItems escape [] (v :: vs) ++ t).length < fuel) :
    parseItems fuel (printItems escape [] (v :: vs) ++ t) = some (v :: vs, t) := by
  induction vs generalizing v fuel with
  | nil =>
      obtain ⟨fuel, rfl⟩ : ∃ n, fuel = n + 1 := ⟨fuel - 1, by omega⟩
      have hsplit : printItems escape [] [v] ++ t = stringify v ++ ']' :: t := by
        simp [printItems, stringify]
      rw [hsplit] at hfuel ⊢
      rw [parseItems, h v List.mem_cons_self fuel _ (ends_cons (by decide) t) (by omega)]
      dsimp only
      rw [skipSpace_cons (by decide), if_neg (by simp), if_pos List.head?_cons, List.tail_cons]
  | cons w ws ih =>
      obtain ⟨fuel, rfl⟩ : ∃ n, fuel = n + 1 := ⟨fuel - 1, by omega⟩
      have hsplit : printItems escape [] (v :: w :: ws) ++ t =
          stringify v ++ ',' :: (printItems escape [] (w :: ws) ++ t) := by
        simp [printItems, stringify]
      rw [hsplit] at hfuel ⊢
      have hrest : parseItems fuel (printItems escape [] (w :: ws) ++ t) = some (w :: ws, t) := by
        refine ih (fun u hu => h u (List.mem_cons_of_mem v hu)) fuel ?_
        rw [List.length_append, List.length_cons] at hfuel
        omega
      rw [parseItems, h v List.mem_cons_self fuel _ (ends_cons (by decide) _) (by omega)]
      dsimp only
      rw [skipSpace_cons (by decide), if_pos List.head?_cons, List.tail_cons, hrest, Option.map_some]

theorem parseMembers_print {m : List Char × Json} {ms : List (List Char × Json)}
    (h : ∀ n ∈ m :: ms, Reads n.2) (fuel : ℕ) (t : List Char)
    (hfuel : 2 * (printMembers escape [] (m :: ms) ++ t).length < fuel) :
    parseMembers fuel (printMembers escape [] (m :: ms) ++ t) = some (m :: ms, t) := by
  induction ms generalizing m fuel with
  | nil =>
      obtain ⟨k, v⟩ := m
      obtain ⟨fuel, rfl⟩ : ∃ n, fuel = n + 1 := ⟨fuel - 1, by omega⟩
      have hsplit : printMembers escape [] [(k, v)] ++ t =
          '"' :: (k.flatMap escape ++ '"' :: ':' :: (stringify v ++ '}' :: t)) := by
        simp [printMembers, stringify, quote]
      rw [hsplit] at hfuel ⊢
      have hvalue : parseValue fuel (stringify v ++ '}' :: t) = some (v, '}' :: t) := by
        refine h _ List.mem_cons_self fuel _ (ends_cons (by decide) t) ?_
        simp only [List.length_cons, List.length_append] at hfuel ⊢
        omega
      rw [parseMembers, skipSpace_cons (by decide), if_pos List.head?_cons, List.tail_cons, parseString_print]
      dsimp only
      rw [skipSpace_cons (by decide), if_pos List.head?_cons, List.tail_cons, hvalue]
      dsimp only
      rw [skipSpace_cons (by decide), if_neg (by simp), if_pos List.head?_cons, List.tail_cons]
  | cons n ns ih =>
      obtain ⟨k, v⟩ := m
      obtain ⟨fuel, rfl⟩ : ∃ n, fuel = n + 1 := ⟨fuel - 1, by omega⟩
      have hsplit : printMembers escape [] ((k, v) :: n :: ns) ++ t =
          '"' :: (k.flatMap escape ++ '"' :: ':' ::
            (stringify v ++ ',' :: (printMembers escape [] (n :: ns) ++ t))) := by
        simp [printMembers, stringify, quote]
      rw [hsplit] at hfuel ⊢
      have hvalue : parseValue fuel (stringify v ++ ',' :: (printMembers escape [] (n :: ns) ++ t)) =
          some (v, ',' :: (printMembers escape [] (n :: ns) ++ t)) := by
        refine h _ List.mem_cons_self fuel _ (ends_cons (by decide) _) ?_
        simp only [List.length_cons, List.length_append] at hfuel ⊢
        omega
      have hrest : parseMembers fuel (printMembers escape [] (n :: ns) ++ t) = some (n :: ns, t) := by
        refine ih (fun u hu => h u (List.mem_cons_of_mem _ hu)) fuel ?_
        simp only [List.length_cons, List.length_append] at hfuel ⊢
        omega
      rw [parseMembers, skipSpace_cons (by decide), if_pos List.head?_cons, List.tail_cons, parseString_print]
      dsimp only
      rw [skipSpace_cons (by decide), if_pos List.head?_cons, List.tail_cons, hvalue]
      dsimp only
      rw [skipSpace_cons (by decide), if_pos List.head?_cons, List.tail_cons, hrest, Option.map_some]

theorem number_chars {n : ℤ} {c : Char} (h : c ∈ (toString n).toList) : c = '-' ∨ c.isDigit = true := by
  have hdigits : ∀ m : ℕ, c ∈ Nat.toDigits 10 m → c.isDigit = true := fun m hm =>
    Nat.isDigit_of_mem_toDigits (by decide) (by decide) hm
  cases n with
  | ofNat m =>
      rw [show toString (Int.ofNat m) = m.repr from rfl, Nat.toList_repr] at h
      exact .inr (hdigits m h)
  | negSucc m =>
      rw [show toString (Int.negSucc m) = "-" ++ (m + 1).repr from rfl, String.toList_append,
        Nat.toList_repr, List.mem_append] at h
      obtain hminus | hdigit := h
      · exact .inl (by simpa using hminus)
      · exact .inr (hdigits (m + 1) hdigit)

theorem number_head (n : ℤ) : ∃ c s, (toString n).toList = c :: s ∧ (c = '-' ∨ c.isDigit = true) := by
  have hne : (toString n).toList ≠ [] := by
    cases n with
    | ofNat m =>
        rw [show toString (Int.ofNat m) = m.repr from rfl, Nat.toList_repr]
        exact Nat.toDigits_ne_nil
    | negSucc m =>
        rw [show toString (Int.negSucc m) = "-" ++ (m + 1).repr from rfl, String.toList_append]
        exact List.cons_ne_nil _ _
  obtain ⟨c, s, hs⟩ := List.exists_cons_of_ne_nil hne
  exact ⟨c, s, hs, number_chars (hs ▸ List.mem_cons_self)⟩

theorem parseValue_atom {c : Char} {t : List Char} (h : c = '-' ∨ c.isDigit = true ∨ c.isLower = true) (fuel : ℕ) :
    parseValue (fuel + 1) (c :: t) = parseAtom (c :: t) := by
  have hother : c ≠ ' ' ∧ c ≠ '\t' ∧ c ≠ '\n' ∧ c ≠ '\r' ∧ c ≠ '"' ∧ c ≠ '[' ∧ c ≠ '\x7b' := by
    refine ⟨?_, ?_, ?_, ?_, ?_, ?_, ?_⟩ <;> rintro rfl <;> exact absurd h (by decide)
  obtain ⟨hspace, htab, hline, hreturn, hquote, hbracket, hbrace⟩ := hother
  rw [parseValue, skipSpace_cons ⟨hspace, htab, hline, hreturn⟩]
  dsimp only
  rw [if_neg hquote, if_neg hbracket, if_neg hbrace]

theorem parseAtom_number (n : ℤ) {t : List Char} (h : Ends t) :
    parseAtom ((toString n).toList ++ t) = some (.num n, t) := by
  obtain ⟨c, s, hs, hc⟩ := number_head n
  have hword : ∀ word : List Char, word.head?.any Char.isLower = true → ¬ word <+: (toString n).toList ++ t := by
    intro word hlower hprefix
    cases word with
    | nil => exact absurd hlower (by decide)
    | cons d word =>
        rw [hs, List.cons_append, List.cons_prefix_cons] at hprefix
        obtain ⟨rfl, -⟩ := hprefix
        obtain rfl | hdigit := hc
        · exact absurd (show Char.isLower '-' = true from hlower) (by decide)
        · simp only [List.head?_cons, Option.any_some, Char.isLower, Char.isDigit, Bool.and_eq_true,
            decide_eq_true_eq, ge_iff_le, UInt32.le_iff_toNat_le] at hlower hdigit
          have hletter : ('a' : Char).val.toNat = 97 := rfl
          have hnine : ('9' : Char).val.toNat = 57 := rfl
          omega
  rw [parseAtom, if_neg (hword _ (by decide)), if_neg (hword _ (by decide)),
    if_neg (hword _ (by decide)), parseNumber_print n h, Option.map_some]

theorem skipSpace_stringify (v : Json) (t : List Char) : (skipSpace (stringify v ++ t)).head? ≠ some ']' := by
  cases v with
  | null => exact skipSpace_head (by decide) (by decide) _
  | bool b =>
      cases b with
      | false => exact skipSpace_head (by decide) (by decide) _
      | true => exact skipSpace_head (by decide) (by decide) _
  | num q =>
      obtain ⟨c, s, hs, hc⟩ := number_head q.num
      have hstart : c ≠ ' ' ∧ c ≠ '\t' ∧ c ≠ '\n' ∧ c ≠ '\r' ∧ c ≠ ']' := by
        refine ⟨?_, ?_, ?_, ?_, ?_⟩ <;> rintro rfl <;> exact absurd hc (by decide)
      rw [stringify, print, hs]
      exact skipSpace_head ⟨hstart.1, hstart.2.1, hstart.2.2.1, hstart.2.2.2.1⟩ hstart.2.2.2.2 _
  | str s => exact skipSpace_head (by decide) (by decide) _
  | arr vs => exact skipSpace_head (by decide) (by decide) _
  | obj ms => exact skipSpace_head (by decide) (by decide) _

theorem Whole.reads {v : Json} (h : Whole v) : Reads v := by
  induction h with
  | null =>
      intro fuel t _ hfuel
      obtain ⟨fuel, rfl⟩ : ∃ n, fuel = n + 1 := ⟨fuel - 1, by simp [stringify, print] at hfuel; omega⟩
      exact parseValue_atom (.inr (.inr rfl)) fuel
  | bool b =>
      intro fuel t _ hfuel
      obtain ⟨fuel, rfl⟩ : ∃ n, fuel = n + 1 := ⟨fuel - 1, by cases b <;> simp [stringify, print] at hfuel <;> omega⟩
      cases b with
      | false => exact parseValue_atom (.inr (.inr rfl)) fuel
      | true => exact parseValue_atom (.inr (.inr rfl)) fuel
  | num n =>
      intro fuel t ht hfuel
      obtain ⟨c, s, hs, hc⟩ := number_head n
      have htext : stringify (.num n) = c :: s := hs
      rw [htext, List.cons_append] at hfuel ⊢
      obtain ⟨fuel, rfl⟩ : ∃ n, fuel = n + 1 := ⟨fuel - 1, by simp at hfuel; omega⟩
      rw [parseValue_atom (hc.imp_right .inl), ← List.cons_append, ← hs, parseAtom_number n ht]
  | str s =>
      intro fuel t _ hfuel
      have htext : stringify (.str s) ++ t = '"' :: (s.flatMap escape ++ '"' :: t) := by
        simp [stringify, print, quote]
      rw [htext] at hfuel ⊢
      obtain ⟨fuel, rfl⟩ : ∃ n, fuel = n + 1 := ⟨fuel - 1, by simp at hfuel; omega⟩
      rw [parseValue, skipSpace_cons (by decide)]
      dsimp only
      rw [if_pos rfl, parseString_print, Option.map_some]
  | @arr vs _ ih =>
      intro fuel t _ hfuel
      have htext : stringify (.arr vs) ++ t = '[' :: (printItems escape [] vs ++ t) := rfl
      rw [htext] at hfuel ⊢
      obtain ⟨fuel, rfl⟩ : ∃ n, fuel = n + 1 := ⟨fuel - 1, by simp at hfuel; omega⟩
      rw [parseValue, skipSpace_cons (by decide)]
      dsimp only
      rw [if_neg (by decide), if_pos rfl]
      cases vs with
      | nil => exact if_pos rfl
      | cons v vs =>
          have hopen : (skipSpace (printItems escape [] (v :: vs) ++ t)).head? ≠ some ']' := by
            rw [printItems, List.nil_append, List.append_assoc]
            exact skipSpace_stringify v _
          rw [if_neg hopen, parseItems_print ih fuel t (by rw [List.length_cons] at hfuel; omega), Option.map_some]
  | @obj ms _ ih =>
      intro fuel t _ hfuel
      have htext : stringify (.obj ms) ++ t = '\x7b' :: (printMembers escape [] ms ++ t) := rfl
      rw [htext] at hfuel ⊢
      obtain ⟨fuel, rfl⟩ : ∃ n, fuel = n + 1 := ⟨fuel - 1, by simp at hfuel; omega⟩
      rw [parseValue, skipSpace_cons (by decide)]
      dsimp only
      rw [if_neg (by decide), if_neg (by decide), if_pos rfl]
      cases ms with
      | nil => exact if_pos rfl
      | cons m ms =>
          have hopen : (skipSpace (printMembers escape [] (m :: ms) ++ t)).head? ≠ some '\x7d' := by
            rw [printMembers, quote, List.nil_append]
            exact skipSpace_head (by decide) (by decide) _
          rw [if_neg hopen, parseMembers_print ih fuel t (by rw [List.length_cons] at hfuel; omega), Option.map_some]

theorem parse_stringify {v : Json} (h : Whole v) : parse (stringify v) = some v := by
  have hend : Ends [] := fun c hc => absurd hc (by simp)
  have hread := h.reads (2 * (stringify v).length) [] hend (by rw [List.append_nil])
  rw [List.append_nil] at hread
  rw [parse, hread]
  exact if_pos rfl

end Json
