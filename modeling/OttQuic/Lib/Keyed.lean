import Mathlib.Data.List.Basic

/-!
# Components that share a state

Operations act on one shared state, and each is addressed to one key. `view k` is what the state holds
for the key `k`. If an operation leaves the views of the other keys alone, and its result and the new
view of its own key depend on that view only (`Separated`), then the keys are independent: the results of
the operations on `k` in any run are those of the same operations alone, from any state with the same
view of `k` (`Separated.resultsAt_eq`).
-/

namespace Keyed

variable {σ ο ρ κ γ : Type*}

/-- The state after a list of operations. -/
def final (step : σ → ο → ρ × σ) (s : σ) (ops : List ο) : σ := ops.foldl (fun s o => (step s o).2) s

/-- The results of a list of operations. -/
def results (step : σ → ο → ρ × σ) : σ → List ο → List ρ
  | _, [] => []
  | s, o :: ops => (step s o).1 :: results step (step s o).2 ops

/-- In the states with `inv`, a legal operation sees and changes the view of its own key only. -/
structure Separated (step : σ → ο → ρ × σ) (key : ο → κ) (view : κ → σ → γ) (inv : σ → Prop)
    (legal : ο → Prop) : Prop where
  keeps : ∀ {s o}, inv s → legal o → inv (step s o).2
  frame : ∀ {s o k}, inv s → legal o → k ≠ key o → view k (step s o).2 = view k s
  result : ∀ {s s' o}, inv s → inv s' → legal o → view (key o) s = view (key o) s' →
    (step s o).1 = (step s' o).1
  own : ∀ {s s' o}, inv s → inv s' → legal o → view (key o) s = view (key o) s' →
    view (key o) (step s o).2 = view (key o) (step s' o).2

variable {step : σ → ο → ρ × σ} {key : ο → κ} {view : κ → σ → γ} {inv : σ → Prop} {legal : ο → Prop}
  {s s' : σ} {k : κ} {ops : List ο}

theorem Separated.final_inv (h : Separated step key view inv legal) (hs : inv s)
    (hlegal : ∀ o ∈ ops, legal o) : inv (final step s ops) := by
  induction ops generalizing s with
  | nil => exact hs
  | cons o ops ih =>
      apply ih
      · exact h.keeps hs (hlegal o List.mem_cons_self)
      · exact fun p hp => hlegal p (List.mem_cons_of_mem o hp)

variable [DecidableEq κ]

/-- The results of those operations that are on the key. -/
def resultsAt (step : σ → ο → ρ × σ) (key : ο → κ) (k : κ) : σ → List ο → List ρ
  | _, [] => []
  | s, o :: ops =>
    if key o = k then (step s o).1 :: resultsAt step key k (step s o).2 ops
    else resultsAt step key k (step s o).2 ops

section Map

variable {ρ' : Type*} (f : ρ → ρ')

/-- The step that reports less. -/
def mapResult (step : σ → ο → ρ × σ) (f : ρ → ρ') (s : σ) (o : ο) : ρ' × σ :=
  (f (step s o).1, (step s o).2)

theorem results_mapResult : results (mapResult step f) s ops = (results step s ops).map f := by
  induction ops generalizing s with
  | nil => rfl
  | cons o ops ih => exact congrArg _ (ih (s := (step s o).2))

theorem resultsAt_mapResult :
    resultsAt (mapResult step f) key k s ops = (resultsAt step key k s ops).map f := by
  induction ops generalizing s with
  | nil => rfl
  | cons o ops ih =>
      have htail := ih (s := (step s o).2)
      unfold resultsAt
      split_ifs with hk
      · exact congrArg _ htail
      · exact htail

end Map

/-- **Independence.** The operations on a key have the results they have alone. -/
theorem Separated.resultsAt_eq (h : Separated step key view inv legal) (hs : inv s) (hs' : inv s')
    (hview : view k s = view k s') (hlegal : ∀ o ∈ ops, legal o) :
    resultsAt step key k s ops = results step s' (ops.filter fun o => key o = k) := by
  induction ops generalizing s s' with
  | nil => rfl
  | cons o ops ih =>
      have ho := hlegal o List.mem_cons_self
      have hrest : ∀ p ∈ ops, legal p := fun p hp => hlegal p (List.mem_cons_of_mem o hp)
      unfold resultsAt
      by_cases hk : key o = k
      · subst hk
        simp only [if_true, List.filter_cons, decide_true]
        unfold results
        rw [h.result hs hs' ho hview]
        congr 1
        exact ih (h.keeps hs ho) (h.keeps hs' ho) (h.own hs hs' ho hview) hrest
      · simp only [hk, if_false, List.filter_cons, decide_false, Bool.false_eq_true]
        apply ih (h.keeps hs ho) hs' _ hrest
        rw [h.frame hs ho (Ne.symm hk), hview]

end Keyed
