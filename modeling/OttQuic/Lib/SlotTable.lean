import Mathlib.Algebra.BigOperators.Fin
import Mathlib.Data.List.FinRange
import Mathlib.Logic.Function.Basic

/-!
# Fixed tables of slots

A table of `n` slots is a function from `Fin n`; some slots are in use and carry a key. `findSlot`
is the linear scan for the first slot with a property, `findKey` the scan for a key among the used
slots, `findFree` the scan for an unused slot, and `forSlots` the loop over all slots in order. A
table whose used slots have pairwise different keys (`UniqueKeys`) is a finite map: a scan finds
exactly the slot with the key (`UniqueKeys.findKey_eq`), and the updates that keep this are freeing
slots (`UniqueKeys.mono`) and filling one with a key that no other slot has (`UniqueKeys.update`).
-/

namespace SlotTable

universe u v w

variable {n : Nat} {α : Type u} {κ : Type v} {σ : Type w}

/-! ### Scans -/

/-- The first slot with the property. -/
def findSlot (t : Fin n → α) (p : α → Bool) : Option (Fin n) :=
  (List.finRange n).find? fun i => p (t i)

/-- The first used slot with the key. -/
def findKey [DecidableEq κ] (used : α → Bool) (key : α → κ) (t : Fin n → α) (k : κ) :
    Option (Fin n) :=
  findSlot t fun a => used a && decide (key a = k)

/-- The first unused slot. -/
def findFree (used : α → Bool) (t : Fin n → α) : Option (Fin n) := findSlot t fun a => !used a

theorem findSlot_some {t : Fin n → α} {p : α → Bool} {i : Fin n} (h : findSlot t p = some i) :
    p (t i) = true := by
  simpa using List.find?_some h

theorem findSlot_none {t : Fin n → α} {p : α → Bool} :
    findSlot t p = none ↔ ∀ i, p (t i) = false := by
  simp [findSlot, List.find?_eq_none]

theorem findSlot_congr {t t' : Fin n → α} {p p' : α → Bool} (h : ∀ i, p (t i) = p' (t' i)) :
    findSlot t p = findSlot t' p' := by
  rw [findSlot, findSlot, funext h]

theorem findSlot_unique {t : Fin n → α} {p : α → Bool} {i : Fin n} (hi : p (t i) = true)
    (huniq : ∀ j, p (t j) = true → j = i) : findSlot t p = some i := by
  cases hfind : findSlot t p with
  | none => rw [findSlot_none] at hfind; simp [hfind i] at hi
  | some j => rw [huniq j (findSlot_some hfind)]

theorem findSlot_first {t : Fin n → α} {p : α → Bool} {i : Fin n} (hi : p (t i) = true)
    (hbefore : ∀ j < i, p (t j) = false) : findSlot t p = some i := by
  rw [findSlot, List.find?_eq_some_iff_getElem]
  refine ⟨hi, i.val, by simp, by simp, fun j hj => ?_⟩
  simp only [List.getElem_finRange, Bool.not_eq_eq_eq_not, Bool.not_true]
  exact hbefore _ (by simpa [Fin.lt_def] using hj)

variable [DecidableEq κ] {used : α → Bool} {key : α → κ} {t t' : Fin n → α} {k : κ} {i : Fin n}

theorem findKey_some (h : findKey used key t k = some i) : used (t i) = true ∧ key (t i) = k := by
  simpa using findSlot_some h

theorem findKey_none : findKey used key t k = none ↔ ∀ i, used (t i) = true → key (t i) ≠ k := by
  simp [findKey, findSlot_none]

theorem findFree_some (h : findFree used t = some i) : used (t i) = false := by
  simpa using findSlot_some h

theorem findFree_none : findFree used t = none ↔ ∀ i, used (t i) = true := by
  simp [findFree, findSlot_none]

/-! ### Unique keys -/

/-- No two used slots have the same key. -/
def UniqueKeys (used : α → Bool) (key : α → κ) (t : Fin n → α) : Prop :=
  ∀ i j, used (t i) = true → used (t j) = true → key (t i) = key (t j) → i = j

omit [DecidableEq κ] in
theorem UniqueKeys.mono (h : UniqueKeys used key t)
    (hsub : ∀ i, used (t' i) = true → used (t i) = true ∧ key (t' i) = key (t i)) :
    UniqueKeys used key t' := by
  intro i j hi hj hkey
  obtain ⟨hui, hki⟩ := hsub i hi
  obtain ⟨huj, hkj⟩ := hsub j hj
  exact h i j hui huj (by rw [← hki, ← hkj, hkey])

omit [DecidableEq κ] in
theorem UniqueKeys.update (h : UniqueKeys used key t) {a : α}
    (hnew : ∀ j, j ≠ i → used (t j) = true → key (t j) ≠ key a) :
    UniqueKeys used key (Function.update t i a) := by
  intro j l hj hl hkey
  rw [Function.update_apply] at hj hkey
  rw [Function.update_apply] at hl hkey
  split_ifs at hj hl hkey with hji hli hli
  · rw [hji, hli]
  · exact absurd hkey.symm (hnew l hli hl)
  · exact absurd hkey (hnew j hji hj)
  · exact h j l hj hl hkey

theorem UniqueKeys.findKey_eq (h : UniqueKeys used key t) (hused : used (t i) = true)
    (hkey : key (t i) = k) : findKey used key t k = some i := by
  refine findSlot_unique (by simp [hused, hkey]) fun j hj => ?_
  simp only [Bool.and_eq_true, decide_eq_true_eq] at hj
  exact h j i hj.1 hused (by rw [hj.2, hkey])

/-! ### Counting -/

/-- The number of slots in use. -/
def usedCount (used : α → Bool) (t : Fin n → α) : Nat := ∑ i, (used (t i)).toNat

omit [DecidableEq κ] in
theorem usedCount_update (used : α → Bool) (t : Fin n → α) (i : Fin n) (a : α) :
    usedCount used (Function.update t i a) + (used (t i)).toNat =
      usedCount used t + (used a).toNat := by
  have hupdate : (fun j => (used (Function.update t i a j)).toNat) =
      Function.update (fun j => (used (t j)).toNat) i (used a).toNat := by
    funext j
    rw [Function.update_apply, Function.update_apply]
    split_ifs
    · rfl
    · rfl
  have hsplit := Finset.add_sum_erase Finset.univ (fun j => (used (t j)).toNat) (Finset.mem_univ i)
  rw [usedCount, hupdate, Finset.sum_update_of_mem (Finset.mem_univ i), Finset.sdiff_singleton_eq_erase,
    usedCount, ← hsplit]
  omega

omit [DecidableEq κ] in
theorem usedCount_congr {used : α → Bool} {t t' : Fin n → α} (h : ∀ i, used (t i) = used (t' i)) :
    usedCount used t = usedCount used t' := by
  simp only [usedCount, h]

omit [DecidableEq κ] in
theorem usedCount_unused {used : α → Bool} {t : Fin n → α} (h : ∀ i, used (t i) = false) :
    usedCount used t = 0 := by
  simp only [usedCount, h, Bool.toNat_false, Finset.sum_const_zero]

-- a count is compared through the lemmas above, never summed
attribute [irreducible] usedCount

/-! ### Loops over the slots -/

/-- The loop over all slots in order. -/
def forSlots (f : σ → Fin n → σ) (s : σ) : σ := (List.finRange n).foldl f s

theorem forSlots_preserves {f : σ → Fin n → σ} {s : σ} {I : σ → Prop} (hs : I s)
    (hf : ∀ s i, I s → I (f s i)) : I (forSlots f s) := by
  unfold forSlots
  generalize List.finRange n = is
  induction is generalizing s with
  | nil => exact hs
  | cons i is ih => exact ih (hf s i hs)

theorem forSlots_split (i : Fin n) :
    ∃ xs ys : List (Fin n), List.finRange n = xs ++ i :: ys ∧ i ∉ xs ∧ i ∉ ys := by
  obtain ⟨xs, ys, hsplit⟩ := List.append_of_mem (List.mem_finRange i)
  have hnodup := List.nodup_finRange n
  rw [hsplit, List.nodup_append] at hnodup
  refine ⟨xs, ys, hsplit, ?_, ?_⟩
  · intro hmem
    exact hnodup.2.2 i hmem i (by simp) rfl
  · exact (List.nodup_cons.mp hnodup.2.1).1

/-- **What one iteration establishes.** If the other iterations keep `I`, the iteration of slot `i` leads
from `I` to `Q`, and every iteration keeps `Q`, then `Q` holds after the loop. -/
theorem forSlots_establishes {f : σ → Fin n → σ} {s : σ} {I Q : σ → Prop} (i : Fin n) (hs : I s)
    (hother : ∀ s j, j ≠ i → I s → I (f s j)) (hself : ∀ s, I s → Q (f s i))
    (hkeep : ∀ s j, Q s → Q (f s j)) : Q (forSlots f s) := by
  obtain ⟨xs, ys, hsplit, hxs, -⟩ := forSlots_split i
  have hbefore : ∀ (zs : List (Fin n)) (s : σ), i ∉ zs → I s → I (zs.foldl f s) := by
    intro zs
    induction zs with
    | nil => exact fun s _ hs => hs
    | cons z zs ih =>
        intro s hz hs
        rw [List.mem_cons, not_or] at hz
        exact ih _ hz.2 (hother s z (Ne.symm hz.1) hs)
  have hafter : ∀ (zs : List (Fin n)) (s : σ), Q s → Q (zs.foldl f s) := by
    intro zs
    induction zs with
    | nil => exact fun s hs => hs
    | cons z zs ih => exact fun s hs => ih _ (hkeep s z hs)
  rw [forSlots, hsplit, List.foldl_append, List.foldl_cons]
  exact hafter ys _ (hself _ (hbefore xs s hxs hs))

/-- **What a loop does to one observation.** If every iteration other than that of slot `i` keeps
the observation `g`, and the iteration of slot `i` changes it by a function of its old value, then so
does the loop. -/
theorem forSlots_observe {β : Type*} {f : σ → Fin n → σ} {s : σ} (i : Fin n) (g : σ → β) (h : β → β)
    (hother : ∀ s j, j ≠ i → g (f s j) = g s) (hself : ∀ s, g (f s i) = h (g s)) :
    g (forSlots f s) = h (g s) := by
  obtain ⟨xs, ys, hsplit, hxs, hys⟩ := forSlots_split i
  have hkeep : ∀ (zs : List (Fin n)) (s : σ), i ∉ zs → g (zs.foldl f s) = g s := by
    intro zs
    induction zs with
    | nil => intro s _; rfl
    | cons z zs ih =>
        intro s hz
        rw [List.mem_cons, not_or] at hz
        rw [List.foldl_cons, ih _ hz.2, hother s z (Ne.symm hz.1)]
  rw [forSlots, hsplit, List.foldl_append, List.foldl_cons, hkeep ys _ hys, hself, hkeep xs _ hxs]

-- every fact about a loop comes from the rules above; unfolding it would run over all slots
attribute [irreducible] forSlots

end SlotTable
