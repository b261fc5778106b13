import Mathlib.Data.List.Basic

/-!
# Frames on a channel that accepts parts of them

A sender puts frames on a channel one after the other; each is accepted as a whole, in part or not at all.
`WellFramed` says of the log of frames that nothing follows a frame that was torn. Then what is on the channel
is a prefix of the frames that were begun (`WellFramed.isPrefix`).

What a sender offers next may depend on whether the last frame went out, so that a sender is a tree
(`Dialogue`). `Dialogue.Clean` says of a sender and a channel, before anything is sent, that behind a torn frame
the channel takes nothing of what the sender then still offers. This is exactly when the log is well framed
(`Dialogue.wellFramed_log_iff`).
-/

namespace Framing

variable {α φ σ : Type*}

/-- A frame and the number of its elements that were accepted. -/
structure Attempt (α : Type*) where
  frame : List α
  accepted : Nat
  deriving DecidableEq

namespace Attempt

def written (a : Attempt α) : List α := a.frame.take a.accepted

/-- Part of the frame is on the channel, and not all of it. -/
def Torn (a : Attempt α) : Prop := 0 < a.accepted ∧ a.accepted < a.frame.length

end Attempt

/-- No part of a frame follows a torn frame. -/
def WellFramed (log : List (Attempt α)) : Prop := log.Pairwise fun a b => a.Torn → b.accepted = 0

instance (a : Attempt α) : Decidable a.Torn := by
  unfold Attempt.Torn
  infer_instance

instance (log : List (Attempt α)) : Decidable (WellFramed log) := by
  unfold WellFramed
  infer_instance

/-- **A well framed channel** holds a prefix of the frames that were begun. -/
theorem WellFramed.isPrefix {log : List (Attempt α)} (h : WellFramed log) :
    log.flatMap Attempt.written <+: (log.filter fun a => 0 < a.accepted).flatMap Attempt.frame := by
  induction log with
  | nil => simp
  | cons a log ih =>
      obtain ⟨hfirst, hrest⟩ := List.pairwise_cons.mp h
      by_cases hzero : a.accepted = 0
      · have hwritten : a.written = [] := by simp [Attempt.written, hzero]
        simp only [List.flatMap_cons, hwritten, List.nil_append, List.filter_cons, hzero, Nat.lt_irrefl,
          decide_false, Bool.false_eq_true, if_false]
        exact ih hrest
      · have hpos : 0 < a.accepted := Nat.pos_of_ne_zero hzero
        simp only [List.flatMap_cons, List.filter_cons, hpos, decide_true, if_true]
        by_cases hall : a.frame.length ≤ a.accepted
        · rw [Attempt.written, List.take_of_length_le hall]
          exact (List.prefix_append_right_inj _).mpr (ih hrest)
        · -- the frame is torn, and nothing of the later ones is on the channel
          have hnone : log.flatMap Attempt.written = [] := by
            apply List.flatMap_eq_nil_iff.mpr
            intro b hb
            simp [Attempt.written, hfirst b hb ⟨hpos, Nat.lt_of_not_le hall⟩]
          rw [hnone, List.append_nil]
          exact (List.take_prefix _ _).trans (List.prefix_append _ _)

/-! ### Senders -/

/-- What a sender offers: a frame, and what comes next after it was sent or refused. -/
inductive Dialogue (φ : Type*) where
  | done
  | offer (frame : φ) (sent refused : Dialogue φ)

namespace Dialogue

/-- The frames that are offered, with what the channel accepts of them. -/
def log (bytes : φ → List α) (channel : σ → φ → Nat × σ) : σ → Dialogue φ → List (Attempt α)
  | _, done => []
  | s, offer frame sent refused =>
    let (n, s') := channel s frame
    ⟨bytes frame, n⟩ :: if n < (bytes frame).length then refused.log bytes channel s' else sent.log bytes channel s'

/-- The channel takes nothing of what is offered. -/
def Silent (channel : σ → φ → Nat × σ) : σ → Dialogue φ → Prop
  | _, done => True
  | s, offer frame _ refused => (channel s frame).1 = 0 ∧ refused.Silent channel (channel s frame).2

/-- Behind a frame that is torn the channel takes nothing more. -/
def Clean (bytes : φ → List α) (channel : σ → φ → Nat × σ) : σ → Dialogue φ → Prop
  | _, done => True
  | s, offer frame sent refused =>
    let (n, s') := channel s frame
    if (bytes frame).length ≤ n then sent.Clean bytes channel s'
    else if n = 0 then refused.Clean bytes channel s'
    else refused.Silent channel s'

variable {bytes : φ → List α} {channel : σ → φ → Nat × σ} {s : σ} {d : Dialogue φ}

theorem silent_iff (hbytes : ∀ frame, bytes frame ≠ []) :
    d.Silent channel s ↔ ∀ a ∈ d.log bytes channel s, a.accepted = 0 := by
  induction d generalizing s with
  | done => simp [Silent, log]
  | offer frame sent refused _ ih =>
      have hpos : 0 < (bytes frame).length := List.length_pos_iff.mpr (hbytes frame)
      simp only [Silent, log, List.forall_mem_cons]
      refine and_congr_right fun hzero => ?_
      rw [if_pos (by omega), ih]

theorem wellFramed_log_iff (hbytes : ∀ frame, bytes frame ≠ []) :
    WellFramed (d.log bytes channel s) ↔ d.Clean bytes channel s := by
  induction d generalizing s with
  | done => exact iff_of_true List.Pairwise.nil trivial
  | offer frame sent refused ihSent ihRefused =>
      have htorn : (⟨bytes frame, (channel s frame).1⟩ : Attempt α).Torn ↔
          0 < (channel s frame).1 ∧ (channel s frame).1 < (bytes frame).length := Iff.rfl
      simp only [log, Clean, WellFramed, List.pairwise_cons, htorn]
      split_ifs with hshort hall hzero
      · omega
      · rw [← ihRefused]
        exact and_iff_right fun b _ h => absurd h.1 (by omega)
      · have hpart : 0 < (channel s frame).1 ∧ (channel s frame).1 < (bytes frame).length := ⟨by omega, hshort⟩
        simp only [hpart, and_self, forall_const]
        rw [silent_iff hbytes]
        refine and_iff_left_of_imp fun hsilent => ?_
        exact List.pairwise_of_forall_mem_list fun b _ c hc _ => hsilent c hc
      · rw [← ihSent]
        exact and_iff_right fun b _ h => absurd h.2 hshort
      · omega
      · omega

end Dialogue

end Framing
