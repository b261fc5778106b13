import Mathlib.Data.List.Basic

/-!
# Promises and deliveries in a log

A log has its last entry first. An entry may promise something or deliver something; a promise is pending
until the next delivery, and a later promise takes its place. `Kept` says that what is delivered is what
was promised, `kept_iff` says it about any two entries of the log with nothing of the kind between them,
and `Faithful` is the invariant that shows it: what would be delivered next is what is pending.
-/

namespace Pledge

universe u v

variable {α : Type u} {κ : Type v}

/-- What an entry does. -/
inductive Mark (κ : Type v) where
  | promise (k : κ)
  | deliver (k : κ)
  | other

variable (mark : α → Mark κ)

/-- The promise that is to be kept. -/
def pending : List α → Option κ
  | [] => none
  | a :: log =>
    match mark a with
    | .promise k => some k
    | .deliver _ => none
    | .other => pending log

/-- What is delivered while a promise is pending is what was promised. -/
def Kept : List α → Prop
  | [] => True
  | a :: log => Kept log ∧ ∀ k, mark a = .deliver k → ∀ p, pending mark log = some p → k = p

/-- The log is kept, and so would be a delivery of `next`. -/
structure Faithful (next : κ) (log : List α) : Prop where
  kept : Kept mark log
  next_eq : ∀ p, pending mark log = some p → next = p

variable {mark} {a : α} {log : List α} {k next p : κ}

@[simp] theorem pending_promise (h : mark a = .promise k) : pending mark (a :: log) = some k := by
  rw [pending, h]

@[simp] theorem pending_deliver (h : mark a = .deliver k) : pending mark (a :: log) = none := by
  rw [pending, h]

@[simp] theorem pending_other (h : mark a = .other) : pending mark (a :: log) = pending mark log := by
  rw [pending, h]

theorem pending_eq_some_iff : pending mark log = some p ↔
    ∃ mid a before, log = mid ++ a :: before ∧ (∀ c ∈ mid, mark c = .other) ∧ mark a = .promise p := by
  induction log with
  | nil => simp [pending]
  | cons c log ih =>
      rw [pending]
      constructor
      · intro h
        split at h
        · rename_i k hmark
          obtain rfl := Option.some.inj h
          exact ⟨[], c, log, rfl, List.forall_mem_nil _, hmark⟩
        · cases h
        · rename_i hmark
          obtain ⟨mid, a, before, rfl, hmid, ha⟩ := ih.mp h
          exact ⟨c :: mid, a, before, rfl, List.forall_mem_cons.mpr ⟨hmark, hmid⟩, ha⟩
      · rintro ⟨mid, a, before, hsplit, hmid, ha⟩
        cases mid with
        | nil =>
            obtain ⟨rfl, rfl⟩ := List.cons_eq_cons.mp hsplit
            rw [ha]
        | cons d mid =>
            obtain ⟨rfl, rfl⟩ := List.cons_eq_cons.mp hsplit
            obtain ⟨hc, hmid⟩ := List.forall_mem_cons.mp hmid
            rw [hc]
            exact ih.mpr ⟨mid, a, before, rfl, hmid, ha⟩

theorem kept_iff : Kept mark log ↔
    ∀ after b mid a before k p, log = after ++ b :: (mid ++ a :: before) → mark a = .promise p →
      (∀ c ∈ mid, mark c = .other) → mark b = .deliver k → k = p := by
  induction log with
  | nil => simp [Kept]
  | cons c log ih =>
      rw [Kept, ih]
      constructor
      · rintro ⟨hlog, hfirst⟩ after b mid a before k p hsplit ha hmid hb
        cases after with
        | nil =>
            obtain ⟨rfl, rfl⟩ := List.cons_eq_cons.mp hsplit
            exact hfirst k hb p (pending_eq_some_iff.mpr ⟨mid, a, before, rfl, hmid, ha⟩)
        | cons d after =>
            obtain ⟨rfl, rfl⟩ := List.cons_eq_cons.mp hsplit
            exact hlog after b mid a before k p rfl ha hmid hb
      · intro h
        constructor
        · intro after b mid a before k p hsplit
          exact h (c :: after) b mid a before k p (congrArg (List.cons c) hsplit)
        · intro k hc p hp
          obtain ⟨mid, a, before, rfl, hmid, ha⟩ := pending_eq_some_iff.mp hp
          exact h [] c mid a before k p rfl ha hmid hc

/-! ### Entries -/

theorem Faithful.promise (h : Faithful mark next log) (ha : mark a = .promise p) : Faithful mark p (a :: log) where
  kept := ⟨h.kept, fun k hk => by rw [ha] at hk; cases hk⟩
  next_eq q hq := by
    rw [pending_promise ha] at hq
    exact Option.some.inj hq

theorem Faithful.deliver (h : Faithful mark next log) (ha : mark a = .deliver next) (next' : κ) :
    Faithful mark next' (a :: log) where
  kept := by
    refine ⟨h.kept, fun k hk p hp => ?_⟩
    rw [ha] at hk
    cases hk
    exact h.next_eq p hp
  next_eq q hq := by
    rw [pending_deliver ha] at hq
    cases hq

theorem Faithful.other (h : Faithful mark next log) (ha : mark a = .other) : Faithful mark next (a :: log) where
  kept := ⟨h.kept, fun k hk => by rw [ha] at hk; cases hk⟩
  next_eq q hq := by
    rw [pending_other ha] at hq
    exact h.next_eq q hq

theorem Faithful.redirect (h : Faithful mark next log) {next' : κ}
    (hnext : ∀ p, pending mark log = some p → next' = p) :
    Faithful mark next' log :=
  ⟨h.kept, hnext⟩

end Pledge
