import Mathlib.Order.Bounds.Basic
import Mathlib.Data.List.Induction

/-!
# Covered prefixes

A `Span` is the half-open interval `[start, stop)` of stream positions that one fragment carries.
`CoversUpTo spans n` says that every position below `n` lies in some span, so the end of the longest
covered prefix is the greatest such `n` (`isGreatest_of_gap`: it is the first position that no span
covers).

`Drains rate spans emitted` describes a consumer that, each time a span arrives, moves forward by at
most `rate` positions inside the covered prefix, and stops short of `rate` only at a gap. Such a
consumer lags behind the covered prefix, and by how much is decided by the arrival order alone
(`Drains.le_iff`): it has passed `n` exactly if for every `j` the first `j` spans cover the prefix of
length `n` less what the later arrivals can still drain at `rate` each.
-/

namespace Coverage

/-- The positions `start ≤ p < stop`. -/
structure Span where
  start : Nat
  stop : Nat
  deriving DecidableEq, Repr

/-- The position lies in some span. -/
def Covered (spans : List Span) (p : Nat) : Prop := ∃ f ∈ spans, f.start ≤ p ∧ p < f.stop

/-- Every position below `n` is covered. -/
def CoversUpTo (spans : List Span) (n : Nat) : Prop := ∀ p < n, Covered spans p

instance (spans : List Span) (p : Nat) : Decidable (Covered spans p) :=
  inferInstanceAs (Decidable (∃ f ∈ spans, f.start ≤ p ∧ p < f.stop))

instance (spans : List Span) (n : Nat) : Decidable (CoversUpTo spans n) :=
  inferInstanceAs (Decidable (∀ p < n, Covered spans p))

variable {spans spans' : List Span} {f : Span} {n m p rate emitted : Nat}

theorem covered_append :
    Covered (spans ++ spans') p ↔ Covered spans p ∨ Covered spans' p := by
  simp only [Covered, List.mem_append, or_and_right, exists_or]

theorem covered_singleton : Covered [f] p ↔ f.start ≤ p ∧ p < f.stop := by
  simp [Covered]

theorem Covered.mono (h : Covered spans p) (hsub : spans ⊆ spans') : Covered spans' p := by
  obtain ⟨f, hf, hp⟩ := h
  exact ⟨f, hsub hf, hp⟩

theorem coversUpTo_zero (spans : List Span) : CoversUpTo spans 0 := fun p hp => by omega

theorem CoversUpTo.mono (h : CoversUpTo spans n) (hsub : spans ⊆ spans') (hle : m ≤ n) :
    CoversUpTo spans' m :=
  fun p hp => (h p (by omega)).mono hsub

theorem CoversUpTo.le_of_gap (h : CoversUpTo spans n) (hgap : ¬ Covered spans m) : n ≤ m := by
  by_contra hlt
  exact hgap (h m (by omega))

theorem isGreatest_of_gap (h : CoversUpTo spans n) (hgap : ¬ Covered spans n) :
    IsGreatest {k | CoversUpTo spans k} n :=
  ⟨h, fun _ hk => CoversUpTo.le_of_gap hk hgap⟩

/-! ### Draining at a bounded rate -/

/-- A consumer that advances by at most `rate` positions at each arrival, and by less only if it
stops at a gap. -/
inductive Drains (rate : Nat) : List Span → Nat → Prop
  | nil : Drains rate [] 0
  | snoc {spans : List Span} {emitted emitted' : Nat} {f : Span} : Drains rate spans emitted →
      emitted' ≤ emitted + rate → CoversUpTo (spans ++ [f]) emitted' →
      (emitted' < emitted + rate → ¬ Covered (spans ++ [f]) emitted') →
      Drains rate (spans ++ [f]) emitted'

/-- **How far a bounded consumer has come.** It has passed `n` if and only if for every `j` the first
`j` spans cover the prefix of length `n` less `rate` for each later arrival. -/
theorem Drains.le_iff (h : Drains rate spans emitted) (n : Nat) :
    n ≤ emitted ↔
      ∀ j ≤ spans.length, CoversUpTo (spans.take j) (n - (spans.length - j) * rate) := by
  induction h generalizing n with
  | nil =>
      constructor
      · intro hn j _
        rw [show n - ([].length - j) * rate = 0 by omega]
        exact coversUpTo_zero _
      · intro hall
        have hgap : ¬ Covered [] 0 := by simp [Covered]
        simpa using (hall 0 (by simp)).le_of_gap hgap
  | @snoc spans emitted emitted' f _ hrate hcovers hgap ih =>
      have hlength : (spans ++ [f]).length = spans.length + 1 := by simp
      have hlag : ∀ j ≤ spans.length, n - (spans.length + 1 - j) * rate
          = n - rate - (spans.length - j) * rate := by
        intro j hj
        rw [show spans.length + 1 - j = spans.length - j + 1 by omega, Nat.add_mul]
        omega
      rw [hlength]
      constructor
      · intro hn j hj
        rcases Nat.lt_or_ge j (spans.length + 1) with hlt | hge
        · rw [List.take_append_of_le_length (by omega), hlag j (by omega)]
          exact (ih (n - rate)).mp (by omega) j (by omega)
        · rw [List.take_of_length_le (by rw [hlength]; exact hge)]
          exact hcovers.mono (fun _ hx => hx) (by omega)
      · intro hall
        have hprev : n - rate ≤ emitted := by
          refine (ih (n - rate)).mpr fun j hj => ?_
          have htake : (spans ++ [f]).take j = spans.take j := List.take_append_of_le_length hj
          rw [← hlag j hj, ← htake]
          exact hall j (by omega)
        have hnow : CoversUpTo (spans ++ [f]) n := by
          have := hall (spans.length + 1) (by omega)
          rw [List.take_of_length_le (by rw [hlength])] at this
          simpa using this
        rcases Nat.lt_or_ge emitted' (emitted + rate) with hlt | hge
        · exact hnow.le_of_gap (hgap hlt)
        · omega

/-- Further arrivals do no harm: what a sublist of the spans lets a consumer pass, all of them let it pass. -/
theorem Drains.le_of_sublist (h : Drains rate spans emitted) {tiles : List Span} (hsub : tiles.Sublist spans)
    (hall : ∀ k ≤ tiles.length, CoversUpTo (tiles.take k) (n - (tiles.length - k) * rate)) : n ≤ emitted := by
  refine (h.le_iff n).mpr fun j hj => ?_
  rw [← List.take_append_drop j spans, List.sublist_append_iff] at hsub
  obtain ⟨before, behind, rfl, hbefore, hbehind⟩ := hsub
  have hfew : behind.length ≤ spans.length - j := by
    rw [← List.length_drop]
    exact hbehind.length_le
  have hcovers := hall before.length (by simp)
  rw [List.take_left, List.length_append, Nat.add_sub_cancel_left] at hcovers
  refine hcovers.mono hbefore.subset ?_
  have hrate : behind.length * rate ≤ (spans.length - j) * rate := Nat.mul_le_mul_right rate hfew
  omega

end Coverage
