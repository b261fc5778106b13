import OttQuic.Lib.JsonText

/-!
# How much text a JSON value needs

The characters of a text count, except digits and minus signs. `cost` is what the text of a value counts
for at least: a character that must be escaped costs one more than it counts for. A text whose strings
are written as they are counts for less than the cost of its value when one of them needs an escape, so
`JSON.parse` does not find this value in it.
-/

namespace Json

/-- The characters that are not digits or minus signs. -/
def weight (t : List Char) : ℕ := t.countP fun c => ¬ (c.isDigit ∨ c = '-')

/-- What a string is written with at least, its quotes apart. -/
def stringCost (s : List Char) : ℕ := weight s + s.countP fun c => ¬ isPlain c

mutual

def cost : Json → ℕ
  | .null => 4
  | .bool b => if b then 4 else 5
  | .num _ => 0
  | .str s => 2 + stringCost s
  | .arr vs => 1 + max 1 (itemsCost vs)
  | .obj ms => 1 + max 1 (membersCost ms)

def itemsCost : List Json → ℕ
  | [] => 0
  | v :: vs => cost v + 1 + itemsCost vs

def membersCost : List (List Char × Json) → ℕ
  | [] => 0
  | (k, v) :: ms => 3 + stringCost k + cost v + 1 + membersCost ms

end

theorem weight_append (s t : List Char) : weight (s ++ t) = weight s + weight t := List.countP_append

theorem weight_suffix {s t : List Char} (h : s <:+ t) : weight s ≤ weight t := h.sublist.countP_le

theorem weight_cons (c : Char) (t : List Char) : weight (c :: t) = weight [c] + weight t :=
  weight_append [c] t

theorem stringCost_append (s t : List Char) : stringCost (s ++ t) = stringCost s + stringCost t := by
  simp only [stringCost, weight_append, List.countP_append]
  omega

theorem stringCost_cons (c : Char) (s : List Char) : stringCost (c :: s) = stringCost [c] + stringCost s :=
  stringCost_append [c] s

theorem stringCost_single (c : Char) : stringCost [c] ≤ 2 := by
  rw [stringCost, weight]
  have hweight := List.countP_le_length (p := fun c : Char => decide (¬ (c.isDigit ∨ c = '-'))) (l := [c])
  have hescape := List.countP_le_length (p := fun c : Char => decide (¬ isPlain c)) (l := [c])
  rw [List.length_singleton] at hweight hescape
  omega

theorem stringCost_plain {c : Char} (h : isPlain c = true) : stringCost [c] = weight [c] := by
  rw [stringCost, List.countP_singleton, if_neg (by simp [h]), Nat.add_zero]

/-! ### Reading -/

def unitsCost (us : List ℕ) : ℕ := (us.map fun u => stringCost [single u]).sum

theorem unitsCost_cons (u : ℕ) (us : List ℕ) : unitsCost (u :: us) = stringCost [single u] + unitsCost us :=
  List.sum_cons

theorem stringCost_join (us : List ℕ) : stringCost (join us) ≤ unitsCost us := by
  induction us using join.induct with
  | case1 => rfl
  | case2 u => rw [join, unitsCost_cons]; exact Nat.le_add_right _ _
  | case3 u w us hpair ih =>
      have hhigh : stringCost [single u] = 1 := by
        rw [single, if_pos (.inl hpair.1)]; rfl
      have hlow : stringCost [single w] = 1 := by
        rw [single, if_pos (.inr hpair.2)]; rfl
      have hchar := stringCost_single (Char.ofNat (0x10000 + (u - 0xD800) * 1024 + (w - 0xDC00)))
      rw [join, if_pos hpair, stringCost_cons, unitsCost_cons, unitsCost_cons]
      omega
  | case4 u w us hpair ih =>
      rw [join, if_neg hpair, stringCost_cons, unitsCost_cons]
      omega

/-- What an escape has counted for so far. -/
def Mode.slack : Mode → ℕ
  | .plain => 0
  | .escaped => 1
  | .hex _ _ => 2

theorem push_some {u : ℕ} {result : Option (List ℕ × List Char)} {us : List ℕ} {rest : List Char}
    (h : push u result = some (us, rest)) : ∃ vs, us = u :: vs ∧ result = some (vs, rest) := by
  cases result with
  | none => exact absurd h (by simp [push])
  | some found =>
      obtain ⟨rfl, rfl⟩ := Prod.mk.inj (Option.some.inj h)
      exact ⟨found.1, rfl, rfl⟩

theorem weight_one {c : Char} (h : c.isDigit = false) (hc : c ≠ '-') : weight [c] = 1 := by
  rw [weight, List.countP_singleton, if_pos (by simp [h, hc])]

theorem parseUnits_cost {mode : Mode} {t : List Char} {us : List ℕ} {rest : List Char}
    (h : parseUnits mode t = some (us, rest)) : unitsCost us + weight rest + 1 ≤ weight t + mode.slack := by
  induction t generalizing mode us with
  | nil => exact absurd h (by cases mode <;> simp [parseUnits])
  | cons c t ih =>
      rw [weight_cons]
      cases mode with
      | plain =>
          rw [parseUnits] at h
          split_ifs at h with hquote hslash hcontrol
          · obtain ⟨rfl, rfl⟩ := Prod.mk.inj (Option.some.inj h)
            subst hquote
            have hnil : unitsCost [] = 0 := rfl
            have hone : weight ['"'] = 1 := weight_one (by decide) (by decide)
            omega
          · subst hslash
            have hone : weight ['\\'] = 1 := weight_one (by decide) (by decide)
            have hrest := ih h
            simp only [Mode.slack] at hrest ⊢
            omega
          · obtain ⟨vs, rfl, hvs⟩ := push_some h
            have hplain : isPlain c = true := by
              simp [isPlain, hquote, hslash]
              omega
            have hrest := ih hvs
            rw [unitsCost_cons, single_toNat, stringCost_plain hplain]
            simp only [Mode.slack] at hrest ⊢
            omega
      | escaped =>
          rw [parseUnits] at h
          split_ifs at h with hu
          · subst hu
            have hone : weight ['u'] = 1 := weight_one (by decide) (by decide)
            have hrest := ih h
            simp only [Mode.slack] at hrest ⊢
            omega
          · split at h
            · rename_i letter hletter
              obtain ⟨vs, rfl, hvs⟩ := push_some h
              have hcost := stringCost_single (single letter.2)
              have hrest := ih hvs
              rw [unitsCost_cons]
              have hone : weight [c] = 1 := by
                have hmem := List.mem_of_find?_eq_some hletter
                have hname : letter.1 = c := by simpa using List.find?_some hletter
                have hall : ∀ letter ∈ letters, weight [letter.1] = 1 := by decide
                rw [← hname]
                exact hall letter hmem
              simp only [Mode.slack] at hrest ⊢
              omega
            · exact absurd h (by simp)
      | hex left unit =>
          rw [parseUnits] at h
          split at h
          · exact absurd h (by simp)
          · split_ifs at h with hlast
            · obtain ⟨vs, rfl, hvs⟩ := push_some h
              have hcost := stringCost_single (single (unit * 16 + ‹ℕ›))
              have hrest := ih hvs
              rw [unitsCost_cons]
              simp only [Mode.slack] at hrest ⊢
              omega
            · have hrest := ih h
              simp only [Mode.slack] at hrest ⊢
              omega

theorem parseString_cost {t s rest : List Char} (h : parseString t = some (s, rest)) :
    stringCost s + weight rest + 1 ≤ weight t := by
  rw [parseString, Option.map_eq_some_iff] at h
  obtain ⟨⟨us, tail⟩, hunits, heq⟩ := h
  obtain ⟨rfl, rfl⟩ := Prod.mk.inj heq
  have hcost := parseUnits_cost hunits
  have hjoin := stringCost_join us
  simp only [Mode.slack] at hcost
  omega

/-! A number is read off the front of the text. -/

theorem parseFraction_suffix {t rest : List Char} {q : ℚ} (h : parseFraction t = some (q, rest)) : rest <:+ t := by
  rw [parseFraction] at h
  dsimp only at h
  split_ifs at h
  · rw [← (Prod.mk.inj (Option.some.inj h)).2]
    exact (List.dropWhile_suffix _).trans (List.tail_suffix t)
  · obtain rfl := (Prod.mk.inj (Option.some.inj h)).2
    exact List.suffix_refl t

theorem parseExponent_suffix {t rest : List Char} {q : ℚ} (h : parseExponent t = some (q, rest)) : rest <:+ t := by
  rw [parseExponent] at h
  dsimp only at h
  split_ifs at h
  all_goals obtain rfl := (Prod.mk.inj (Option.some.inj h)).2
  · exact ((List.dropWhile_suffix _).trans (List.tail_suffix _)).trans (List.tail_suffix t)
  · exact ((List.dropWhile_suffix _).trans (List.tail_suffix _)).trans (List.tail_suffix t)
  · exact (List.dropWhile_suffix _).trans (List.tail_suffix t)
  · exact (List.dropWhile_suffix _).trans (List.tail_suffix t)
  · exact List.suffix_refl t

theorem parseUnsigned_suffix {t rest : List Char} {q : ℚ} (h : parseUnsigned t = some (q, rest)) : rest <:+ t := by
  rw [parseUnsigned] at h
  dsimp only at h
  split_ifs at h
  split at h
  · exact absurd h (by simp)
  · rename_i fraction tail hfraction
    rw [Option.map_eq_some_iff] at h
    obtain ⟨⟨power, last⟩, hexponent, heq⟩ := h
    rw [← (Prod.mk.inj heq).2]
    exact ((parseExponent_suffix hexponent).trans (parseFraction_suffix hfraction)).trans (List.dropWhile_suffix _)

theorem parseNumber_suffix {t rest : List Char} {q : ℚ} (h : parseNumber t = some (q, rest)) : rest <:+ t := by
  rw [parseNumber] at h
  split_ifs at h
  · rw [Option.map_eq_some_iff] at h
    obtain ⟨⟨p, last⟩, hunsigned, heq⟩ := h
    rw [← (Prod.mk.inj heq).2]
    exact (parseUnsigned_suffix hunsigned).trans (List.tail_suffix t)
  · exact parseUnsigned_suffix h

theorem weight_skipSpace (t : List Char) : weight (skipSpace t) ≤ weight t :=
  weight_suffix (List.dropWhile_suffix _)

theorem weight_head {t : List Char} {c : Char} (h : (skipSpace t).head? = some c) :
    weight [c] + weight (skipSpace t).tail ≤ weight t := by
  have hspace := weight_skipSpace t
  rw [← List.cons_head?_tail h, weight_cons] at hspace
  exact hspace

theorem parseAtom_cost {t rest : List Char} {v : Json} (h : parseAtom t = some (v, rest)) :
    cost v + weight rest ≤ weight t := by
  have hword : ∀ word, word <+: t → weight word + weight (t.drop word.length) = weight t := by
    rintro word ⟨tail, rfl⟩
    rw [List.drop_left, weight_append]
  rw [parseAtom] at h
  split_ifs at h with hnull htrue hfalse
  · obtain ⟨rfl, rfl⟩ := Prod.mk.inj (Option.some.inj h)
    exact (hword _ hnull).le
  · obtain ⟨rfl, rfl⟩ := Prod.mk.inj (Option.some.inj h)
    exact (hword _ htrue).le
  · obtain ⟨rfl, rfl⟩ := Prod.mk.inj (Option.some.inj h)
    exact (hword _ hfalse).le
  · rw [Option.map_eq_some_iff] at h
    obtain ⟨⟨q, tail⟩, hnumber, heq⟩ := h
    obtain ⟨rfl, rfl⟩ := Prod.mk.inj heq
    rw [cost, Nat.zero_add]
    exact weight_suffix (parseNumber_suffix hnumber)

/-- Reading a value, the items of an array and the members of an object takes their cost off the text; the
items and the members take a separator or the bracket with each. -/
structure Costs (fuel : ℕ) : Prop where
  value : ∀ {t v rest}, parseValue fuel t = some (v, rest) → cost v + weight rest ≤ weight t
  items : ∀ {t vs rest}, parseItems fuel t = some (vs, rest) →
    1 ≤ itemsCost vs ∧ itemsCost vs + weight rest ≤ weight t
  members : ∀ {t ms rest}, parseMembers fuel t = some (ms, rest) →
    1 ≤ membersCost ms ∧ membersCost ms + weight rest ≤ weight t

theorem Costs.parseValue {fuel : ℕ} (ih : Costs fuel) {t rest : List Char} {v : Json}
    (h : parseValue (fuel + 1) t = some (v, rest)) : cost v + weight rest ≤ weight t := by
  have hspace := weight_skipSpace t
  rw [Json.parseValue] at h
  split at h
  · exact absurd h (by simp)
  · rename_i c tail htext
    rw [htext, weight_cons] at hspace
    split_ifs at h with hquote hbracket hempty hbrace hnone
    · rw [Option.map_eq_some_iff] at h
      obtain ⟨⟨s, last⟩, hstring, heq⟩ := h
      obtain ⟨rfl, rfl⟩ := Prod.mk.inj heq
      have hcost := parseString_cost hstring
      have hone : weight [c] = 1 := by rw [hquote]; rfl
      rw [cost]
      omega
    · obtain ⟨rfl, rfl⟩ := Prod.mk.inj (Option.some.inj h)
      have hclose := weight_head hempty
      have hone : weight [c] = 1 := by rw [hbracket]; rfl
      have hlast : weight [']'] = 1 := rfl
      rw [cost, itemsCost]
      omega
    · rw [Option.map_eq_some_iff] at h
      obtain ⟨⟨vs, last⟩, hitems, heq⟩ := h
      obtain ⟨rfl, rfl⟩ := Prod.mk.inj heq
      have hcost := ih.items hitems
      have hone : weight [c] = 1 := by rw [hbracket]; rfl
      rw [cost]
      omega
    · obtain ⟨rfl, rfl⟩ := Prod.mk.inj (Option.some.inj h)
      have hclose := weight_head hnone
      have hone : weight [c] = 1 := by rw [hbrace]; rfl
      have hlast : weight ['\x7d'] = 1 := rfl
      rw [cost, membersCost]
      omega
    · rw [Option.map_eq_some_iff] at h
      obtain ⟨⟨ms, last⟩, hmembers, heq⟩ := h
      obtain ⟨rfl, rfl⟩ := Prod.mk.inj heq
      have hcost := ih.members hmembers
      have hone : weight [c] = 1 := by rw [hbrace]; rfl
      rw [cost]
      omega
    · have hcost := parseAtom_cost h
      rw [weight_cons] at hcost
      omega

theorem Costs.parseItems {fuel : ℕ} (ih : Costs fuel) {t rest : List Char} {vs : List Json}
    (h : parseItems (fuel + 1) t = some (vs, rest)) :
    1 ≤ itemsCost vs ∧ itemsCost vs + weight rest ≤ weight t := by
  rw [Json.parseItems] at h
  split at h
  · exact absurd h (by simp)
  · rename_i v tail hvalue
    have hcost := ih.value hvalue
    split_ifs at h with hcomma hclose
    · rw [Option.map_eq_some_iff] at h
      obtain ⟨⟨ws, last⟩, hitems, heq⟩ := h
      obtain ⟨rfl, rfl⟩ := Prod.mk.inj heq
      have hrest := ih.items hitems
      have hhead := weight_head hcomma
      have hone : weight [','] = 1 := rfl
      rw [itemsCost]
      omega
    · obtain ⟨rfl, rfl⟩ := Prod.mk.inj (Option.some.inj h)
      have hhead := weight_head hclose
      have hone : weight [']'] = 1 := rfl
      rw [itemsCost, itemsCost]
      omega

theorem Costs.parseMembers {fuel : ℕ} (ih : Costs fuel) {t rest : List Char} {ms : List (List Char × Json)}
    (h : parseMembers (fuel + 1) t = some (ms, rest)) :
    1 ≤ membersCost ms ∧ membersCost ms + weight rest ≤ weight t := by
  rw [Json.parseMembers] at h
  split_ifs at h with hquote
  have hopen := weight_head hquote
  have hquoteWeight : weight ['"'] = 1 := rfl
  split at h
  · exact absurd h (by simp)
  · rename_i k tail hkey
    have hkeyCost := parseString_cost hkey
    split_ifs at h with hcolon
    have hcolonHead := weight_head hcolon
    have hcolonWeight : weight [':'] = 1 := rfl
    split at h
    · exact absurd h (by simp)
    · rename_i v last hvalue
      have hcost := ih.value hvalue
      split_ifs at h with hcomma hclose
      · rw [Option.map_eq_some_iff] at h
        obtain ⟨⟨ns, final⟩, hmembers, heq⟩ := h
        obtain ⟨rfl, rfl⟩ := Prod.mk.inj heq
        have hrest := ih.members hmembers
        have hhead := weight_head hcomma
        have hone : weight [','] = 1 := rfl
        rw [membersCost]
        omega
      · obtain ⟨rfl, rfl⟩ := Prod.mk.inj (Option.some.inj h)
        have hhead := weight_head hclose
        have hone : weight ['\x7d'] = 1 := rfl
        rw [membersCost, membersCost]
        omega

theorem costs (fuel : ℕ) : Costs fuel := by
  induction fuel with
  | zero => exact ⟨fun h => absurd h (by simp [parseValue]), fun h => absurd h (by simp [parseItems]),
      fun h => absurd h (by simp [parseMembers])⟩
  | succ fuel ih => exact ⟨ih.parseValue, ih.parseItems, ih.parseMembers⟩

theorem cost_le_weight {t : List Char} {v : Json} (h : parse t = some v) : cost v ≤ weight t := by
  rw [parse] at h
  split at h
  · exact absurd h (by simp)
  · rename_i w rest hvalue
    split_ifs at h
    obtain rfl := Option.some.inj h
    exact (Nat.le_add_right _ _).trans ((costs _).value hvalue)

/-! ### Writing -/

/-- No string in the value needs an escape. -/
inductive Plain : Json → Prop
  | null : Plain .null
  | bool (b : Bool) : Plain (.bool b)
  | num (q : ℚ) : Plain (.num q)
  | str {s : List Char} (h : ∀ c ∈ s, isPlain c = true) : Plain (.str s)
  | arr {vs : List Json} (h : ∀ v ∈ vs, Plain v) : Plain (.arr vs)
  | obj {ms : List (List Char × Json)} (hk : ∀ m ∈ ms, ∀ c ∈ m.1, isPlain c = true)
      (h : ∀ m ∈ ms, Plain m.2) : Plain (.obj ms)

theorem flatMap_verbatim (s : List Char) : s.flatMap verbatim = s := List.flatMap_singleton' s

theorem quote_plain {s : List Char} (h : ∀ c ∈ s, isPlain c = true) : quote verbatim s = quote escape s := by
  rw [quote, quote, flatMap_verbatim, flatMap_escape h]

theorem printItems_congr {f g : Char → List Char} {vs : List Json} (h : ∀ v ∈ vs, print f v = print g v)
    (separator : List Char) : printItems f separator vs = printItems g separator vs := by
  induction vs generalizing separator with
  | nil => rfl
  | cons v vs ih =>
      obtain ⟨hv, hvs⟩ := List.forall_mem_cons.mp h
      rw [printItems, printItems, hv, ih hvs]

theorem printMembers_congr {f g : Char → List Char} {ms : List (List Char × Json)}
    (hk : ∀ m ∈ ms, quote f m.1 = quote g m.1) (h : ∀ m ∈ ms, print f m.2 = print g m.2)
    (separator : List Char) : printMembers f separator ms = printMembers g separator ms := by
  induction ms generalizing separator with
  | nil => rfl
  | cons m ms ih =>
      obtain ⟨hm, hms⟩ := List.forall_mem_cons.mp h
      obtain ⟨hkm, hkms⟩ := List.forall_mem_cons.mp hk
      rw [printMembers, printMembers, hm, hkm, ih hkms hms]

theorem Plain.print_verbatim {v : Json} (h : Plain v) : print verbatim v = stringify v := by
  induction h with
  | null => rfl
  | bool b => rfl
  | num q => rfl
  | str hs => exact quote_plain hs
  | arr _ ih => rw [print, stringify, print, printItems_congr ih]
  | obj hk _ ih => rw [print, stringify, print, printMembers_congr (fun m hm => quote_plain (hk m hm)) ih]

theorem weight_number (n : ℤ) : weight (toString n).toList = 0 := by
  rw [weight, List.countP_eq_zero]
  intro c hc
  obtain rfl | hdigit := number_chars hc
  · simp
  · simp [hdigit]

theorem weight_quote (s : List Char) : weight (quote verbatim s) ≤ 2 + stringCost s ∧
    (2 + stringCost s ≤ weight (quote verbatim s) → ∀ c ∈ s, isPlain c = true) := by
  have hweight : weight (quote verbatim s) = 2 + weight s := by
    rw [quote, flatMap_verbatim, List.cons_append, weight_cons, weight_append]
    have hone : weight ['"'] = 1 := rfl
    omega
  constructor
  · rw [hweight, stringCost]
    omega
  · intro hle
    rw [hweight, stringCost] at hle
    have hnone : (s.countP fun c => ¬ isPlain c) = 0 := by omega
    rw [List.countP_eq_zero] at hnone
    intro c hc
    simpa using hnone c hc

/-- Written as they are, the strings of a value make its text too short for it if one needs an escape. -/
def Tight (v : Json) : Prop :=
  weight (print verbatim v) ≤ cost v ∧ (cost v ≤ weight (print verbatim v) → Plain v)

theorem weight_printItems {v : Json} {vs : List Json} (h : ∀ w ∈ v :: vs, Tight w) :
    weight (printItems verbatim [] (v :: vs)) ≤ itemsCost (v :: vs) ∧
      (itemsCost (v :: vs) ≤ weight (printItems verbatim [] (v :: vs)) → ∀ w ∈ v :: vs, Plain w) := by
  induction vs generalizing v with
  | nil =>
      obtain ⟨hle, hplain⟩ := h v List.mem_cons_self
      have hweight : weight (printItems verbatim [] [v]) = weight (print verbatim v) + 1 := by
        rw [printItems, printItems, List.nil_append, weight_append]
        rfl
      rw [hweight, itemsCost, itemsCost]
      refine ⟨by omega, fun hge w hw => ?_⟩
      rw [List.mem_singleton.mp hw]
      exact hplain (by omega)
  | cons u vs ih =>
      obtain ⟨hle, hplain⟩ := h v List.mem_cons_self
      obtain ⟨hleRest, hplainRest⟩ := ih fun w hw => h w (List.mem_cons_of_mem v hw)
      have hweight : weight (printItems verbatim [] (v :: u :: vs)) =
          weight (print verbatim v) + 1 + weight (printItems verbatim [] (u :: vs)) := by
        have htext : printItems verbatim [] (v :: u :: vs) =
            print verbatim v ++ ',' :: printItems verbatim [] (u :: vs) := by
          simp [printItems]
        rw [htext, weight_append, weight_cons]
        have hone : weight [','] = 1 := rfl
        omega
      rw [hweight, itemsCost]
      refine ⟨by omega, fun hge w hw => ?_⟩
      obtain rfl | hrest := List.mem_cons.mp hw
      · exact hplain (by omega)
      · exact hplainRest (by omega) w hrest

theorem weight_printMembers {m : List Char × Json} {ms : List (List Char × Json)}
    (h : ∀ n ∈ m :: ms, Tight n.2) :
    weight (printMembers verbatim [] (m :: ms)) ≤ membersCost (m :: ms) ∧
      (membersCost (m :: ms) ≤ weight (printMembers verbatim [] (m :: ms)) →
        ∀ n ∈ m :: ms, (∀ c ∈ n.1, isPlain c = true) ∧ Plain n.2) := by
  have hcolon : weight [':'] = 1 := rfl
  induction ms generalizing m with
  | nil =>
      obtain ⟨k, v⟩ := m
      have htight : Tight v := h (k, v) List.mem_cons_self
      obtain ⟨hle, hplain⟩ := htight
      obtain ⟨hleKey, hplainKey⟩ := weight_quote k
      have hweight : weight (printMembers verbatim [] [(k, v)]) =
          weight (quote verbatim k) + 1 + weight (print verbatim v) + 1 := by
        rw [printMembers, printMembers, List.nil_append, List.append_assoc, weight_append, List.cons_append,
          weight_cons, weight_append]
        have hone : weight ['\x7d'] = 1 := rfl
        omega
      rw [hweight, membersCost, membersCost]
      refine ⟨by omega, fun hge n hn => ?_⟩
      rw [List.mem_singleton.mp hn]
      exact ⟨hplainKey (by omega), hplain (by omega)⟩
  | cons l ms ih =>
      obtain ⟨k, v⟩ := m
      have htight : Tight v := h (k, v) List.mem_cons_self
      obtain ⟨hle, hplain⟩ := htight
      obtain ⟨hleKey, hplainKey⟩ := weight_quote k
      obtain ⟨hleRest, hplainRest⟩ := ih fun n hn => h n (List.mem_cons_of_mem _ hn)
      have hweight : weight (printMembers verbatim [] ((k, v) :: l :: ms)) =
          weight (quote verbatim k) + 1 + weight (print verbatim v) + 1 +
            weight (printMembers verbatim [] (l :: ms)) := by
        have htext : printMembers verbatim [] ((k, v) :: l :: ms) =
            quote verbatim k ++ ':' :: (print verbatim v ++ ',' :: printMembers verbatim [] (l :: ms)) := by
          simp [printMembers]
        rw [htext, weight_append, weight_cons ':', weight_append, weight_cons ',']
        have hone : weight [','] = 1 := rfl
        omega
      rw [hweight, membersCost]
      refine ⟨by omega, fun hge n hn => ?_⟩
      obtain rfl | hrest := List.mem_cons.mp hn
      · exact ⟨hplainKey (by omega), hplain (by omega)⟩
      · exact hplainRest (by omega) n hrest

theorem tight (v : Json) : Tight v := by
  induction v using induct with
  | null => exact ⟨le_rfl, fun _ => .null⟩
  | bool b => cases b <;> exact ⟨le_rfl, fun _ => .bool _⟩
  | num q => exact ⟨(weight_number q.num).le, fun _ => .num q⟩
  | str s => exact ⟨(weight_quote s).1, fun hge => .str ((weight_quote s).2 hge)⟩
  | arr vs ih =>
      have hone : weight ['['] = 1 := rfl
      cases vs with
      | nil => exact ⟨le_rfl, fun _ => .arr (List.forall_mem_nil _)⟩
      | cons v vs =>
          obtain ⟨hle, hplain⟩ := weight_printItems ih
          rw [Tight, print, weight_cons, cost]
          exact ⟨by omega, fun hge => .arr (hplain (by omega))⟩
  | obj ms ih =>
      have hone : weight ['\x7b'] = 1 := rfl
      cases ms with
      | nil => exact ⟨le_rfl, fun _ => .obj (List.forall_mem_nil _) (List.forall_mem_nil _)⟩
      | cons m ms =>
          obtain ⟨hle, hplain⟩ := weight_printMembers ih
          rw [Tight, print, weight_cons, cost]
          refine ⟨by omega, fun hge => ?_⟩
          have hmembers := hplain (by omega)
          exact .obj (fun n hn => (hmembers n hn).1) fun n hn => (hmembers n hn).2

/-! ### Values with more members -/

/-- The last member with the key. -/
def lookup (k : List Char) (ms : List (List Char × Json)) : Option Json :=
  ((ms.filter fun m => m.1 = k).getLast?).map Prod.snd

/-- The second value is the first one, but its objects may have more members. -/
inductive Carries : Json → Json → Prop
  | null : Carries .null .null
  | bool (b : Bool) : Carries (.bool b) (.bool b)
  | num (q : ℚ) : Carries (.num q) (.num q)
  | str (s : List Char) : Carries (.str s) (.str s)
  | arr {vs ws : List Json} (hlength : vs.length = ws.length) (h : ∀ p ∈ vs.zip ws, Carries p.1 p.2) :
      Carries (.arr vs) (.arr ws)
  | obj {ms ns : List (List Char × Json)} (found : List Char × Json → Json)
      (hfound : ∀ m ∈ ms, lookup m.1 ns = some (found m)) (h : ∀ m ∈ ms, Carries m.2 (found m)) :
      Carries (.obj ms) (.obj ns)

/-- No object has a key twice. -/
inductive Distinct : Json → Prop
  | null : Distinct .null
  | bool (b : Bool) : Distinct (.bool b)
  | num (q : ℚ) : Distinct (.num q)
  | str (s : List Char) : Distinct (.str s)
  | arr {vs : List Json} (h : ∀ v ∈ vs, Distinct v) : Distinct (.arr vs)
  | obj {ms : List (List Char × Json)} (hk : (ms.map Prod.fst).Nodup) (h : ∀ m ∈ ms, Distinct m.2) :
      Distinct (.obj ms)

theorem carries_obj {ms ns : List (List Char × Json)}
    (h : ∀ m ∈ ms, ∃ w, lookup m.1 ns = some w ∧ Carries m.2 w) : Carries (.obj ms) (.obj ns) := by
  refine .obj (fun m => (lookup m.1 ns).getD .null) (fun m hm => ?_) fun m hm => ?_
  · obtain ⟨w, hw, -⟩ := h m hm
    rw [hw, Option.getD_some]
  · obtain ⟨w, hw, hcarries⟩ := h m hm
    rwa [hw, Option.getD_some]

theorem membersCost_filter (p : List Char × Json → Bool) (ms : List (List Char × Json)) :
    membersCost (ms.filter p) + membersCost (ms.filter fun m => ¬ p m) = membersCost ms := by
  induction ms with
  | nil => rfl
  | cons m ms ih =>
      by_cases hp : p m = true
      · rw [List.filter_cons_of_pos hp, List.filter_cons_of_neg (by simp [hp]), membersCost, membersCost]
        omega
      · rw [List.filter_cons_of_neg hp, List.filter_cons_of_pos (by simp [hp]), membersCost, membersCost]
        omega

theorem membersCost_mem {m : List Char × Json} {ms : List (List Char × Json)} (h : m ∈ ms) :
    3 + stringCost m.1 + cost m.2 + 1 ≤ membersCost ms := by
  induction ms with
  | nil => exact absurd h List.not_mem_nil
  | cons n ms ih =>
      rw [membersCost]
      obtain rfl | hrest := List.mem_cons.mp h
      · exact Nat.le_add_right _ _
      · exact (ih hrest).trans (Nat.le_add_left _ _)

theorem lookup_filter {k l : List Char} (h : l ≠ k) (ms : List (List Char × Json)) :
    lookup l (ms.filter fun m => ¬ m.1 = k) = lookup l ms := by
  rw [lookup, lookup, List.filter_filter]
  congr 3
  funext m
  by_cases hm : m.1 = l
  · simp [hm, h]
  · simp [hm]

theorem lookup_mem {k : List Char} {v : Json} {ms : List (List Char × Json)} (h : lookup k ms = some v) :
    (k, v) ∈ ms.filter fun m => m.1 = k := by
  rw [lookup, Option.map_eq_some_iff] at h
  obtain ⟨⟨l, w⟩, hlast, rfl⟩ := h
  have hmem := List.mem_of_getLast? hlast
  have hkey : l = k := by simpa using (List.mem_filter.mp hmem).2
  rwa [hkey] at hmem

theorem membersCost_le {ms ns : List (List Char × Json)} (found : List Char × Json → Json)
    (hfound : ∀ m ∈ ms, lookup m.1 ns = some (found m)) (hcost : ∀ m ∈ ms, cost m.2 ≤ cost (found m))
    (hk : (ms.map Prod.fst).Nodup) : membersCost ms ≤ membersCost ns := by
  induction ms generalizing ns with
  | nil => exact Nat.zero_le _
  | cons m ms ih =>
      obtain ⟨k, v⟩ := m
      obtain ⟨hfresh, hkRest⟩ := List.nodup_cons.mp hk
      have hrest : membersCost ms ≤ membersCost (ns.filter fun n => ¬ n.1 = k) := by
        refine ih (fun l hl => ?_) (fun l hl => hcost l (List.mem_cons_of_mem _ hl)) hkRest
        have hother : l.1 ≠ k := fun heq => hfresh (List.mem_map.mpr ⟨l, hl, heq⟩)
        rw [lookup_filter hother]
        exact hfound l (List.mem_cons_of_mem _ hl)
      have hhere := membersCost_mem (lookup_mem (hfound (k, v) List.mem_cons_self))
      have hvalue : cost v ≤ cost (found (k, v)) := hcost (k, v) List.mem_cons_self
      have hsplit := membersCost_filter (fun n => n.1 = k) ns
      simp only [decide_eq_true_eq] at hsplit
      rw [membersCost]
      dsimp only at hhere
      omega

theorem itemsCost_le {vs ws : List Json} (hlength : vs.length = ws.length)
    (h : ∀ p ∈ vs.zip ws, cost p.1 ≤ cost p.2) : itemsCost vs ≤ itemsCost ws := by
  induction vs generalizing ws with
  | nil => exact Nat.zero_le _
  | cons v vs ih =>
      cases ws with
      | nil => exact absurd hlength (by simp)
      | cons w ws =>
          rw [List.zip_cons_cons] at h
          have hhead := h _ List.mem_cons_self
          have hrest := ih (Nat.succ.inj hlength) fun p hp => h p (List.mem_cons_of_mem _ hp)
          rw [itemsCost, itemsCost]
          dsimp only at hhead
          omega

theorem Carries.cost_le {v w : Json} (h : Carries v w) (hd : Distinct v) : cost v ≤ cost w := by
  induction h with
  | null => exact le_rfl
  | bool b => exact le_rfl
  | num q => exact le_rfl
  | str s => exact le_rfl
  | arr hlength _ ih =>
      cases hd with
      | arr hd =>
          have hitems := itemsCost_le hlength fun p hp => ih p hp (hd _ (List.of_mem_zip hp).1)
          rw [cost, cost]
          omega
  | obj found hfound _ ih =>
      cases hd with
      | obj hk hd =>
          have hmembers := membersCost_le found hfound (fun m hm => ih m hm (hd m hm)) hk
          rw [cost, cost]
          omega

theorem lookup_self {ms : List (List Char × Json)} (hk : (ms.map Prod.fst).Nodup) {m : List Char × Json}
    (h : m ∈ ms) : lookup m.1 ms = some m.2 := by
  have hfilter : (ms.filter fun n => n.1 = m.1) = [m] := by
    induction ms with
    | nil => exact absurd h List.not_mem_nil
    | cons n ms ih =>
        obtain ⟨hfresh, hkRest⟩ := List.nodup_cons.mp hk
        obtain rfl | hrest := List.mem_cons.mp h
        · rw [List.filter_cons_of_pos (by simp), List.filter_eq_nil_iff.mpr]
          intro l hl
          simp only [decide_eq_true_eq]
          exact fun heq => hfresh (List.mem_map.mpr ⟨l, hl, heq⟩)
        · have hother : n.1 ≠ m.1 := fun heq => hfresh (List.mem_map.mpr ⟨m, hrest, heq.symm⟩)
          rw [List.filter_cons_of_neg (by simp [hother]), ih hkRest hrest]
  rw [lookup, hfilter]
  rfl

theorem parse_verbatim {v : Json} (hw : Whole v) (hp : Plain v) : parse (print verbatim v) = some v := by
  rw [hp.print_verbatim, parse_stringify hw]

theorem plain_of_carries {v required found : Json} (hparse : parse (print verbatim v) = some found)
    (hcarries : Carries required found) (hd : Distinct required) (hcost : cost v = cost required) : Plain v := by
  refine (tight v).2 ?_
  calc cost v = cost required := hcost
    _ ≤ cost found := hcarries.cost_le hd
    _ ≤ weight (print verbatim v) := cost_le_weight hparse

end Json
