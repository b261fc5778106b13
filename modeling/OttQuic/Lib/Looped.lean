import Mathlib.Data.List.GetD
import Mathlib.Tactic.ByContra

/-!
# A text read in a loop

A text that ends with a terminator, read again from its beginning whenever the terminator has been read. `get z s i`
is what is read at the `i`-th place, and `walk s i` where the reader then is. `agree_iff` says what the first `n`
places tell of the text: its first `n` elements, and nothing else.
-/

namespace Looped

variable {α : Type*} {z : α} {s p q : List α} {i n : Nat}

/-- The `i`-th element of the text and its terminator, over and over. -/
def get (z : α) (s : List α) (i : Nat) : α := s.getD (i % (s.length + 1)) z

/-- The reader goes on to the next place; at the terminator it goes back. -/
def next (s : List α) : List α → List α
  | [] => s
  | _ :: rest => rest

/-- The reader after `i` places. -/
def walk (s : List α) : Nat → List α
  | 0 => s
  | i + 1 => next s (walk s i)

theorem walk_eq (s : List α) (i : Nat) : walk s i = s.drop (i % (s.length + 1)) := by
  induction i with
  | zero => simp [walk]
  | succ i ih =>
      have hlt : i % (s.length + 1) < s.length + 1 := Nat.mod_lt _ (Nat.succ_pos _)
      rw [walk, ih]
      by_cases hend : i % (s.length + 1) = s.length
      · have hzero : (i + 1) % (s.length + 1) = 0 := by
          rw [Nat.add_mod, hend, Nat.add_mod_mod, Nat.mod_self]
        rw [hzero, hend, List.drop_length, List.drop_zero, next]
      · have hnext : (i + 1) % (s.length + 1) = i % (s.length + 1) + 1 := by
          rw [Nat.add_mod, Nat.add_mod_mod, Nat.mod_eq_of_lt (by omega)]
        rw [hnext, List.drop_eq_getElem_cons (by omega), next]

theorem headD_walk (z : α) (s : List α) (i : Nat) : (walk s i).headD z = get z s i := by
  rw [walk_eq, get, List.headD_eq_head?_getD, List.head?_drop, List.getD_eq_getElem?_getD]

theorem get_of_lt (h : i < s.length) : get z s i = s[i] := by
  rw [get, Nat.mod_eq_of_lt (by omega), List.getD_eq_getElem _ _ h]

theorem get_length : get z s s.length = z := by
  rw [get, Nat.mod_eq_of_lt (Nat.lt_succ_self _), List.getD_eq_default _ _ (Nat.le_refl _)]

theorem get_eq_take (h : i < n) (hin : i < s.length) : get z s i = (s.take n).getD i z := by
  have htake : i < (s.take n).length := by
    rw [List.length_take]
    omega
  rw [get_of_lt hin, List.getD_eq_getElem _ _ htake, List.getElem_take]

theorem get_mem_take (h : i < n) (hne : get z s i ≠ z) : get z s i ∈ s.take n := by
  have hle : i % (s.length + 1) ≤ i := Nat.mod_le i (s.length + 1)
  unfold get at hne ⊢
  generalize i % (s.length + 1) = j at hne hle ⊢
  have hin : j < s.length := by
    by_contra hout
    exact hne (List.getD_eq_default _ _ (Nat.not_lt.mp hout))
  rw [List.getD_eq_getElem _ _ hin]
  exact List.mem_take_iff_getElem.mpr ⟨j, by omega, rfl⟩

theorem length_le_of_agree (hq : z ∉ q) (h : ∀ i < n, get z p i = get z q i) (hp : p.length < n) :
    q.length ≤ p.length := by
  by_contra hlt
  have hin : p.length < q.length := by omega
  have hagree := h p.length hp
  rw [get_length, get_of_lt hin] at hagree
  exact hq (hagree ▸ List.getElem_mem hin)

/-- **What `n` places tell.** Two texts without the terminator are read the same at the first `n` places exactly when
their first `n` elements are the same. -/
theorem agree_iff (hp : z ∉ p) (hq : z ∉ q) : (∀ i < n, get z p i = get z q i) ↔ p.take n = q.take n := by
  constructor
  · intro h
    have hle := length_le_of_agree hq h
    have hge := length_le_of_agree hp fun i hi => (h i hi).symm
    apply List.ext_getElem
    · simp only [List.length_take]
      omega
    · intro i hi hi'
      simp only [List.length_take] at hi hi'
      have hagree := h i (by omega)
      rw [get_of_lt (by omega), get_of_lt (by omega)] at hagree
      rw [List.getElem_take, List.getElem_take, hagree]
  · intro h i hi
    have hlength := congrArg List.length h
    simp only [List.length_take] at hlength
    by_cases hshort : p.length < n
    · -- the whole text is among the first elements, so the other one is the same
      rw [List.take_of_length_le (by omega), List.take_of_length_le (by omega)] at h
      rw [h]
    · rw [get_eq_take hi (by omega), get_eq_take hi (by omega), h]

end Looped
