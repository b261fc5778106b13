import OttQuic.Lib.Transition

/-!
# Parties on a datagram network

A network that loses, repeats and reorders datagrams is an archive: what has been sent may arrive at any party, at
any later time, any number of times or never. Nothing else arrives.

`rely_guarantee` is the rule for such a system. Every party keeps an invariant of its own log, as long as the
messages it takes are good, and sends good messages only; then all of them keep their invariants whatever the
network does. `taken_sent` says that whatever has been taken was sent.
-/

namespace Network

open Transition

universe u v w

/-- A party: its initial states, and its steps. A step takes a message or none, and sends some. -/
structure Party (σ : Type u) (μ : Type v) where
  init : σ → Prop
  step : σ → Option μ → σ → List μ → Prop

/-- A party with the messages that it has taken and those that it has sent. -/
structure Log (σ : Type u) (μ : Type v) where
  state : σ
  taken : List μ
  sent : List μ

variable {σ : Type u} {μ : Type v} {ι : Type w}

/-- One step of a party, in its log. -/
def Party.Logs (P : Party σ μ) (l : Log σ μ) (received : Option μ) (l' : Log σ μ) : Prop :=
  ∃ out, P.step l.state received l'.state out ∧ l'.taken = l.taken ++ received.toList ∧ l'.sent = l.sent ++ out

/-- The parties with the network between them. A label says who steps, and which message it takes. -/
def net (parties : ι → Party σ μ) : System (ι → Log σ μ) (ι × Option μ) where
  init s := ∀ i, (parties i).init (s i).state ∧ (s i).taken = [] ∧ (s i).sent = []
  step s e t := (∀ m ∈ e.2, ∃ j, m ∈ (s j).sent) ∧ (parties e.1).Logs (s e.1) e.2 (t e.1) ∧ ∀ j, j ≠ e.1 → t j = s j

variable {parties : ι → Party σ μ} {s t : ι → Log σ μ}

/-- **Rely and guarantee.** If a step of a party that takes a good message, or none, keeps the invariant of its log
and sends good messages only, then in every reachable state the invariants hold and every message is good. -/
theorem rely_guarantee {I : ι → Log σ μ → Prop} {G : μ → Prop}
    (hinit : ∀ i l, (parties i).init l.state → l.taken = [] → l.sent = [] → I i l)
    (hstep : ∀ i l received l', I i l → (∀ m ∈ l.sent, G m) → (∀ m ∈ received, G m) →
      (parties i).Logs l received l' → I i l' ∧ ∀ m ∈ l'.sent, G m)
    (h : (net parties).Reachable s) (i : ι) : I i (s i) ∧ ∀ m ∈ (s i).sent, G m := by
  refine System.invariant (I := fun s => ∀ i, I i (s i) ∧ ∀ m ∈ (s i).sent, G m) ?_ ?_ h i
  · intro s hs i
    obtain ⟨hstate, htaken, hsent⟩ := hs i
    refine ⟨hinit i (s i) hstate htaken hsent, ?_⟩
    rw [hsent]
    exact List.forall_mem_nil _
  · intro s e t hs hst j
    obtain ⟨hfrom, hlogs, hothers⟩ := hst
    by_cases hj : j = e.1
    · subst hj
      refine hstep e.1 (s e.1) e.2 (t e.1) (hs e.1).1 (hs e.1).2 (fun m hm => ?_) hlogs
      obtain ⟨k, hk⟩ := hfrom m hm
      exact (hs k).2 m hk
    · rw [hothers j hj]
      exact hs j

/-- **What has been taken was sent.** -/
theorem taken_sent (h : (net parties).Reachable s) {i : ι} {m : μ} (hm : m ∈ (s i).taken) : ∃ j, m ∈ (s j).sent := by
  refine System.invariant (I := fun s : ι → Log σ μ => ∀ i, ∀ m ∈ (s i).taken, ∃ j, m ∈ (s j).sent) ?_ ?_ h i m hm
  · intro s hs i m hm
    rw [(hs i).2.1] at hm
    exact absurd hm List.not_mem_nil
  · intro s e t hs hst
    obtain ⟨hfrom, ⟨out, -, htaken, hsent⟩, hothers⟩ := hst
    -- what anybody had sent is still there
    have hkept {j : ι} {m : μ} (hj : m ∈ (s j).sent) : m ∈ (t j).sent := by
      by_cases he : j = e.1
      · subst he
        rw [hsent]
        exact List.mem_append_left _ hj
      · rwa [hothers j he]
    intro i m hm
    have hbefore : ∃ j, m ∈ (s j).sent := by
      by_cases he : i = e.1
      · subst he
        rw [htaken] at hm
        rcases List.mem_append.mp hm with hold | hnew
        · exact hs e.1 m hold
        · exact hfrom m (Option.mem_toList.mp hnew)
      · rw [hothers i he] at hm
        exact hs i m hm
    obtain ⟨j, hj⟩ := hbefore
    exact ⟨j, hkept hj⟩

end Network
