import Mathlib.Logic.Relation
import Mathlib.Data.List.Induction

/-!
# Labelled transition systems

A system is a set of initial states and a labelled step relation. `Run` is a finite run with the
list of its labels, `Reachable` forgets the labels, and `invariant` is the induction rule every
safety proof goes through. `restrict` keeps only the steps that meet a condition on the state before
the step and its label: a law that holds of every run whose steps all meet the condition is a law
of the restricted system. `run_snoc_iff` exposes the last step of a nonempty run, for laws about whole
runs.

A system given by a step function is deterministic: its runs are the folds of the function over the
labels (`run_ofFun` for a total function, `run_ofPartial` for one that is not defined at every label).
-/

namespace Transition

universe u v w

/-- Initial states and a labelled step relation. -/
structure System (σ : Type u) (ε : Type v) where
  init : σ → Prop
  step : σ → ε → σ → Prop

namespace System

variable {σ : Type u} {ε : Type v} {τ : Type w}

/-- `Run T s es t`: the labels `es` lead from `s` to `t`. -/
inductive Run (T : System σ ε) (s : σ) : List ε → σ → Prop
  | nil : Run T s [] s
  | snoc {es : List ε} {t u : σ} {e : ε} : Run T s es t → T.step t e u → Run T s (es ++ [e]) u

/-- The states of some run from an initial state. -/
def Reachable (T : System σ ε) (t : σ) : Prop := ∃ s es, T.init s ∧ T.Run s es t

variable {T : System σ ε} {s t u : σ} {es fs : List ε} {e : ε}

theorem run_nil_iff : T.Run s [] t ↔ t = s := by
  constructor
  · intro h
    generalize hes : ([] : List ε) = es at h
    cases h with
    | nil => rfl
    | snoc _ _ => simp at hes
  · rintro rfl
    exact .nil

theorem run_snoc_iff : T.Run s (es ++ [e]) u ↔ ∃ t, T.Run s es t ∧ T.step t e u := by
  constructor
  · intro h
    generalize hfs : es ++ [e] = fs at h
    cases h with
    | nil => simp at hfs
    | snoc hrun hstep =>
        obtain ⟨rfl, hlast⟩ := List.append_inj' hfs rfl
        rw [List.singleton_inj] at hlast
        subst hlast
        exact ⟨_, hrun, hstep⟩
  · rintro ⟨t, hrun, hstep⟩
    exact .snoc hrun hstep

theorem Run.trans (h : T.Run s es t) (h' : T.Run t fs u) : T.Run s (es ++ fs) u := by
  induction h' with
  | nil => simpa using h
  | snoc _ hstep ih =>
      rw [← List.append_assoc]
      exact ih.snoc hstep

theorem run_append_iff : T.Run s (es ++ fs) u ↔ ∃ t, T.Run s es t ∧ T.Run t fs u := by
  constructor
  · intro h
    induction fs using List.reverseRecOn generalizing u with
    | nil => exact ⟨u, by simpa using h, .nil⟩
    | append_singleton fs f ih =>
        rw [← List.append_assoc, run_snoc_iff] at h
        obtain ⟨t, hrun, hstep⟩ := h
        obtain ⟨m, hleft, hright⟩ := ih hrun
        exact ⟨m, hleft, hright.snoc hstep⟩
  · rintro ⟨t, hleft, hright⟩
    exact hleft.trans hright

theorem run_cons_iff : T.Run s (e :: es) u ↔ ∃ t, T.step s e t ∧ T.Run t es u := by
  rw [show e :: es = [] ++ [e] ++ es by simp, run_append_iff]
  constructor
  · rintro ⟨t, hfirst, hrest⟩
    obtain ⟨m, hnil, hstep⟩ := run_snoc_iff.mp hfirst
    rw [run_nil_iff] at hnil
    subst hnil
    exact ⟨t, hstep, hrest⟩
  · rintro ⟨t, hstep, hrest⟩
    exact ⟨t, run_snoc_iff.mpr ⟨s, .nil, hstep⟩, hrest⟩

theorem run_of_foldlM_of {f : σ → ε → Option σ} {P : σ → Prop}
    (hstep : ∀ s e t, P s → f s e = some t → T.step s e t ∧ P t) (hs : P s) (h : es.foldlM f s = some t) :
    T.Run s es t := by
  induction es generalizing s with
  | nil =>
      obtain rfl : s = t := by simpa using h
      exact .nil
  | cons e es ih =>
      rw [List.foldlM_cons, Option.bind_eq_bind, Option.bind_eq_some_iff] at h
      obtain ⟨m, hfirst, hrest⟩ := h
      obtain ⟨hm, hp⟩ := hstep s e m hs hfirst
      exact run_cons_iff.mpr ⟨m, hm, ih hp hrest⟩

theorem run_of_foldlM {f : σ → ε → Option σ} (hstep : ∀ s e t, f s e = some t → T.step s e t)
    (h : es.foldlM f s = some t) : T.Run s es t :=
  run_of_foldlM_of (P := fun _ => True) (fun s e t _ h => ⟨hstep s e t h, trivial⟩) trivial h

theorem Reachable.run (h : T.Reachable s) (hrun : T.Run s es t) : T.Reachable t := by
  obtain ⟨s₀, fs, hinit, hprefix⟩ := h
  exact ⟨s₀, fs ++ es, hinit, hprefix.trans hrun⟩

theorem Run.preserves {I : σ → Prop} (h : T.Run s es t) (hs : I s)
    (hstep : ∀ s e t, I s → T.step s e t → I t) : I t := by
  induction h with
  | nil => exact hs
  | snoc _ hlast ih => exact hstep _ _ _ ih hlast

/-- **The invariant rule.** What holds initially and is preserved by every step holds of every
reachable state. -/
theorem invariant {I : σ → Prop} (hinit : ∀ s, T.init s → I s)
    (hstep : ∀ s e t, I s → T.step s e t → I t) (h : T.Reachable t) : I t := by
  obtain ⟨s, es, hs, hrun⟩ := h
  exact hrun.preserves (hinit s hs) hstep

/-- **The progress rule.** If from every state outside the goal some step keeps the invariant and leads to the goal or
closer to it, then some run leads to the goal. -/
theorem exists_run {I G : σ → Prop} (distance : σ → Nat)
    (hstep : ∀ s, I s → ¬ G s → ∃ e t, T.step s e t ∧ I t ∧ (G t ∨ distance t < distance s)) (hs : I s) :
    ∃ es t, T.Run s es t ∧ G t := by
  induction hn : distance s using Nat.strongRecOn generalizing s with
  | _ n ih =>
      subst hn
      by_cases hgoal : G s
      · exact ⟨[], s, .nil, hgoal⟩
      · obtain ⟨e, t, hst, ht, hthere | hcloser⟩ := hstep s hs hgoal
        · exact ⟨[e], t, run_cons_iff.mpr ⟨t, hst, .nil⟩, hthere⟩
        · obtain ⟨es, u, hrun, hu⟩ := ih (distance t) hcloser ht rfl
          exact ⟨e :: es, u, run_cons_iff.mpr ⟨t, hst, hrun⟩, hu⟩

/-! ### Conditions on steps -/

/-- The system whose steps meet the condition `C` on the state before the step and its label. -/
def restrict (T : System σ ε) (C : σ → ε → Prop) : System σ ε where
  init := T.init
  step s e t := C s e ∧ T.step s e t

variable {C : σ → ε → Prop}

theorem Run.of_restrict (h : (T.restrict C).Run s es t) : T.Run s es t := by
  induction h with
  | nil => exact .nil
  | snoc _ hlast ih => exact ih.snoc hlast.2

/-! ### Deterministic systems -/

theorem Run.unique (hdet : ∀ s e t u, T.step s e t → T.step s e u → t = u) (h : T.Run s es t)
    (h' : T.Run s es u) : t = u := by
  induction h generalizing u with
  | nil => exact (run_nil_iff.mp h').symm
  | snoc _ hstep ih =>
      obtain ⟨m, hrun, hlast⟩ := run_snoc_iff.mp h'
      obtain rfl := ih hrun
      exact hdet _ _ _ _ hstep hlast

/-- The system of a total step function with one initial state. -/
def ofFun (s₀ : σ) (step : σ → ε → σ) : System σ ε where
  init s := s = s₀
  step s e t := t = step s e

theorem run_ofFun {s₀ : σ} {step : σ → ε → σ} :
    (ofFun s₀ step).Run s es t ↔ t = es.foldl step s := by
  induction es using List.reverseRecOn generalizing t with
  | nil => simp [run_nil_iff]
  | append_singleton es e ih =>
      rw [run_snoc_iff, List.foldl_append]
      constructor
      · rintro ⟨m, hrun, rfl⟩
        rw [ih.mp hrun]
        rfl
      · rintro rfl
        exact ⟨es.foldl step s, ih.mpr rfl, rfl⟩

theorem reachable_ofFun {s₀ : σ} {step : σ → ε → σ} :
    (ofFun s₀ step).Reachable t ↔ ∃ es, t = List.foldl step s₀ es := by
  constructor
  · rintro ⟨s, es, rfl, hrun⟩
    exact ⟨es, run_ofFun.mp hrun⟩
  · rintro ⟨es, rfl⟩
    exact ⟨s₀, es, rfl, run_ofFun.mpr rfl⟩

theorem run_restrict_ofFun {s₀ : σ} {step : σ → ε → σ} :
    ((ofFun s₀ step).restrict C).Run s es t ↔
      t = es.foldl step s ∧
        ∀ before e after, es = before ++ e :: after → C (before.foldl step s) e := by
  induction es using List.reverseRecOn generalizing t with
  | nil => simp [run_nil_iff]
  | append_singleton es e ih =>
      rw [run_snoc_iff, List.foldl_append]
      constructor
      · rintro ⟨m, hrun, hmet, rfl⟩
        obtain ⟨rfl, hall⟩ := ih.mp hrun
        refine ⟨rfl, fun before f after hsplit => ?_⟩
        rcases List.eq_nil_or_concat after with rfl | ⟨after', last, rfl⟩
        · obtain ⟨rfl, hlast⟩ := List.append_inj' hsplit rfl
          rw [← List.singleton_inj.mp hlast]
          exact hmet
        · rw [List.concat_eq_append, ← List.cons_append, ← List.append_assoc] at hsplit
          exact hall before f after' (List.append_inj' hsplit rfl).1
      · rintro ⟨rfl, hall⟩
        refine ⟨es.foldl step s, ih.mpr ⟨rfl, fun before f after hsplit => ?_⟩, hall es e [] rfl, rfl⟩
        exact hall before f (after ++ [e]) (by rw [hsplit]; simp)

/-- The system of a partial step function: a label with no value is not enabled. -/
def ofPartial (s₀ : σ) (step : σ → ε → Option σ) : System σ ε where
  init s := s = s₀
  step s e t := step s e = some t

theorem run_ofPartial {s₀ : σ} {step : σ → ε → Option σ} :
    (ofPartial s₀ step).Run s es t ↔ es.foldlM step s = some t := by
  induction es using List.reverseRecOn generalizing t with
  | nil => simp [run_nil_iff, eq_comm]
  | append_singleton es e ih =>
      rw [run_snoc_iff, List.foldlM_append, Option.bind_eq_bind, Option.bind_eq_some_iff]
      constructor
      · rintro ⟨m, hrun, hstep⟩
        exact ⟨m, ih.mp hrun, by simpa [ofPartial] using hstep⟩
      · rintro ⟨m, hrun, hstep⟩
        exact ⟨m, ih.mpr hrun, by simpa [ofPartial] using hstep⟩

end System

end Transition
