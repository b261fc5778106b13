import Mathlib.Data.List.TakeWhile

/-!
# Tokens

A text is cut at separators into its tokens, the longest runs without one; empty runs are not tokens. This is what
`strtok` returns one after the other, and what a reader calls the words of a line.
-/

namespace Tokens

variable {α : Type*} {p : α → Bool} {c : α} {s t word : List α}

/-- The tokens of the text, when `word` stands in front of it. -/
def tokensFrom (p : α → Bool) (word : List α) : List α → List (List α)
  | [] => if word.isEmpty then [] else [word]
  | c :: s =>
    if p c then if word.isEmpty then tokensFrom p [] s else word :: tokensFrom p [] s
    else tokensFrom p (word ++ [c]) s

/-- The tokens of the text; `p` says which elements separate. -/
def tokens (p : α → Bool) (s : List α) : List (List α) := tokensFrom p [] s

@[simp] theorem tokens_nil : tokens p [] = [] := rfl

theorem tokensFrom_eq (hword : word ≠ []) (s : List α) :
    tokensFrom p word s = (word ++ s.takeWhile fun c => !p c) :: tokens p (s.dropWhile fun c => !p c) := by
  have hempty : word.isEmpty = false := by
    cases word with
    | nil => exact absurd rfl hword
    | cons _ _ => rfl
  induction s generalizing word with
  | nil => simp [tokensFrom, hempty]
  | cons c s ih =>
      rw [tokensFrom]
      by_cases hc : p c = true
      · rw [if_pos hc, hempty, List.takeWhile_cons_of_neg (by simp [hc]), List.dropWhile_cons_of_neg (by simp [hc]),
          List.append_nil]
        simp [tokens, tokensFrom, hc]
      · have hlonger : (word ++ [c]).isEmpty = false := by simp
        rw [if_neg hc, ih (by simp) hlonger, List.takeWhile_cons_of_pos (by simp [hc]),
          List.dropWhile_cons_of_pos (by simp [hc]), List.append_assoc, List.singleton_append]

theorem tokens_separator (hc : p c = true) (s : List α) : tokens p (c :: s) = tokens p s := by
  rw [tokens, tokensFrom, if_pos hc]
  rfl

theorem tokens_cons (hc : p c = false) (s : List α) :
    tokens p (c :: s) = (c :: s.takeWhile fun c => !p c) :: tokens p (s.dropWhile fun c => !p c) := by
  rw [tokens, tokensFrom, if_neg (by simp [hc]), List.nil_append, tokensFrom_eq (by simp), List.singleton_append]

theorem tokens_dropWhile (s : List α) : tokens p (s.dropWhile p) = tokens p s := by
  induction s with
  | nil => rfl
  | cons c s ih =>
      cases hc : p c with
      | true => rw [List.dropWhile_cons_of_pos hc, ih, tokens_separator hc]
      | false => rw [List.dropWhile_cons_of_neg (by simp [hc])]

theorem tokens_append (hword : ∀ c ∈ word, p c = false) (hne : word ≠ []) (hc : p c = true) (s : List α) :
    tokens p (word ++ c :: s) = word :: tokens p s := by
  obtain ⟨d, w, rfl⟩ := List.exists_cons_of_ne_nil hne
  have hw : ∀ c ∈ w, (!p c) = true := fun c hc => by simp [hword c (List.mem_cons_of_mem d hc)]
  rw [List.cons_append, tokens_cons (hword d List.mem_cons_self), List.takeWhile_append_of_pos hw,
    List.dropWhile_append_of_pos hw, List.takeWhile_cons_of_neg (by simp [hc]), List.dropWhile_cons_of_neg (by simp [hc]),
    List.append_nil, tokens_separator hc]

theorem tokens_word (hword : ∀ c ∈ word, p c = false) (hne : word ≠ []) : tokens p word = [word] := by
  obtain ⟨d, w, rfl⟩ := List.exists_cons_of_ne_nil hne
  have hw : ∀ c ∈ w, (!p c) = true := fun c hc => by simp [hword c (List.mem_cons_of_mem d hc)]
  rw [tokens_cons (hword d List.mem_cons_self), List.takeWhile_eq_self_iff.mpr hw, List.dropWhile_eq_nil_iff.mpr hw,
    tokens_nil]

theorem tokens_eq (s : List α) :
    tokens p s =
      if s.dropWhile p = [] then []
      else ((s.dropWhile p).takeWhile fun c => !p c) :: tokens p ((s.dropWhile p).dropWhile fun c => !p c) := by
  rw [← tokens_dropWhile]
  cases hrest : s.dropWhile p with
  | nil => rfl
  | cons c t =>
      have hc : p c = false := by
        have hhead := List.head?_dropWhile_not p s
        rw [hrest] at hhead
        simpa using hhead
      rw [if_neg (by simp), tokens_cons hc, List.takeWhile_cons_of_pos (by simp [hc]),
        List.dropWhile_cons_of_pos (by simp [hc])]

theorem tokens_eq_cons {ts : List (List α)} (h : tokens p s = t :: ts) :
    ∃ blanks rest, s = blanks ++ (t ++ rest) ∧ (∀ c ∈ blanks, p c = true) ∧ (∀ c ∈ t, p c = false) ∧ t ≠ [] ∧
      (∀ c ∈ rest.head?, p c = true) ∧ tokens p rest = ts := by
  rw [tokens_eq] at h
  split_ifs at h with hempty
  obtain ⟨hword, hrest⟩ := List.cons.inj h
  have hsplit : s.dropWhile p = t ++ (s.dropWhile p).dropWhile fun c => !p c := by
    rw [← hword, List.takeWhile_append_dropWhile]
  refine ⟨s.takeWhile p, (s.dropWhile p).dropWhile fun c => !p c, ?_, ?_, ?_, ?_, ?_, hrest⟩
  · rw [← hsplit, List.takeWhile_append_dropWhile]
  · exact List.all_eq_true.mp List.all_takeWhile
  · rw [← hword]
    intro c hc
    simpa using List.all_eq_true.mp List.all_takeWhile c hc
  · rw [← hword]
    intro hnil
    cases hfirst : s.dropWhile p with
    | nil => exact hempty hfirst
    | cons c u =>
        have hc := List.head?_dropWhile_not p s
        rw [hfirst] at hc hnil
        rw [List.takeWhile_cons_of_pos (by simpa using hc)] at hnil
        cases hnil
  · intro c hc
    have hhead := List.head?_dropWhile_not (fun c => !p c) (s.dropWhile p)
    rw [Option.mem_def.mp hc] at hhead
    simpa using hhead

theorem of_mem_tokensFrom (hword : ∀ d ∈ word, p d = false) (ht : t ∈ tokensFrom p word s) (hc : c ∈ t) :
    (c ∈ word ∨ c ∈ s) ∧ p c = false := by
  induction s generalizing word with
  | nil =>
      rw [tokensFrom] at ht
      split_ifs at ht
      · cases ht
      · rw [List.mem_singleton.mp ht] at hc
        exact ⟨.inl hc, hword c hc⟩
  | cons d s ih =>
      have hnext (ht : t ∈ tokensFrom p [] s) : (c ∈ word ∨ c ∈ d :: s) ∧ p c = false := by
        obtain ⟨hmem, hplain⟩ := ih (List.forall_mem_nil _) ht
        exact ⟨.inr (List.mem_cons_of_mem d (hmem.resolve_left List.not_mem_nil)), hplain⟩
      rw [tokensFrom] at ht
      split_ifs at ht with hd hempty
      · exact hnext ht
      · rcases List.mem_cons.mp ht with rfl | ht
        · exact ⟨.inl hc, hword c hc⟩
        · exact hnext ht
      · have hlonger : ∀ e ∈ word ++ [d], p e = false :=
          List.forall_mem_append.mpr ⟨hword, List.forall_mem_singleton.mpr (Bool.eq_false_iff.mpr hd)⟩
        obtain ⟨hmem, hplain⟩ := ih hlonger ht
        refine ⟨?_, hplain⟩
        rw [List.mem_append, List.mem_singleton, or_assoc] at hmem
        rwa [List.mem_cons]

theorem of_mem_tokens (ht : t ∈ tokens p s) (hc : c ∈ t) : c ∈ s ∧ p c = false := by
  obtain ⟨hmem, hplain⟩ := of_mem_tokensFrom (List.forall_mem_nil _) ht hc
  exact ⟨hmem.resolve_left List.not_mem_nil, hplain⟩

end Tokens
