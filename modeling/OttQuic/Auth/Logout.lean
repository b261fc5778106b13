import OttQuic.Auth.Session
import OttQuic.Lib.Transition
import Mathlib.Logic.Function.Basic

/-!
# Logout against concurrent validation

One `session_logout` of a session and any number of `session_validate_and_extend` calls on it, each its
own thread, interleaved statement by statement. An extension deletes the session and inserts it again,
so a call that has read the session before the logout can bring it back after it.

`NoRevival` is the condition that no call does so: once the logout's `DELETE` has run, the session stays
out of the table (`Revoked`), and a call that starts then finds nothing (`logout_final`).
-/

namespace OttQuic.Auth

open Db Transition

/-- The table and the threads. `logout` is what `session_logout` has returned: whether it was
`SQLITE_OK`. -/
structure SessionState where
  db : Database
  calls : Nat → Validate
  logout : Option Bool

inductive SessionEvent where
  | start (i : Nat)
  /-- The next statement of call `i`. -/
  | validate (i : Nat) (stmt : Stmt)
  | logout (stmt : Stmt)

/-- The threads use the session `sessionId`; every call extends by `ttlSeconds`. -/
def SessionState.step (sessionId : Bytes) (ttlSeconds : Int) (s : SessionState) :
    SessionEvent → Option SessionState
  | .start i =>
    if s.calls i = .notStarted then some { s with calls := Function.update s.calls i .getSession }
    else none
  | .validate i stmt =>
    (Validate.step sessionId ttlSeconds s.db stmt (s.calls i)).map fun (pc, db) =>
      { s with db := db, calls := Function.update s.calls i pc }
  | .logout stmt =>
    if s.logout = none then
      match dbDeleteSession s.db stmt sessionId with
      | .ok db => some { s with db := db, logout := some true }
      | .error _ => some { s with logout := some false }
    else none

/-- No call has started and the user is logged in or not. -/
def SessionState.initial (db : Database) : SessionState := ⟨db, fun _ => .notStarted, none⟩

def sessionSystem (db : Database) (sessionId : Bytes) (ttlSeconds : Int) :
    System SessionState SessionEvent :=
  .ofPartial (.initial db) (SessionState.step sessionId ttlSeconds)

/-- The condition on a step: once `session_logout` has returned `SQLITE_OK`, an `INSERT` of the session
by a call does not go through; it fails, or a constraint refuses it. -/
def NoRevival (sessionId : Bytes) (s : SessionState) : SessionEvent → Prop
  | .validate i stmt => s.logout = some true → ∀ userId, s.calls i = .createSession userId →
      stmt.ok = false ∨ ¬ s.db.AcceptsSession userId sessionId
  | _ => True

/-- After the logout the session is not in the table. -/
def Revoked (sessionId : Bytes) (s : SessionState) : Prop :=
  s.logout = some true → ∀ row ∈ s.db.sessions, row.sessionId ≠ sessionId

variable {db : Database} {sessionId : Bytes} {ttlSeconds : Int} {s t : SessionState}

/-! ### One step -/

theorem Validate.step_sessions {pc pc' : Validate} {stmt : Stmt} {db' : Database}
    (h : Validate.step sessionId ttlSeconds db stmt pc = some (pc', db')) :
    (∀ row ∈ db'.sessions, row ∈ db.sessions) ∨
      ∃ userId, pc = .createSession userId ∧ stmt.ok = true ∧ db.AcceptsSession userId sessionId := by
  cases Validate.stepped h with
  | found | missing | notPurged | notDeleted | refused => exact .inl fun row hrow => hrow
  | purged hpurge =>
      rw [dbDeleteExpiredSessions_ok hpurge]
      exact .inl fun row hrow => (List.mem_filter.mp hrow).1
  | deleted hdelete =>
      rw [dbDeleteSession_ok hdelete]
      exact .inl fun row hrow => (List.mem_filter.mp hrow).1
  | created hcreate =>
      obtain ⟨hok, haccepts, -⟩ := dbCreateSession_ok hcreate
      exact .inr ⟨_, rfl, hok, haccepts⟩

/-- **One step** that meets the condition keeps the session out of the table. -/
theorem Revoked.step {e : SessionEvent} (hrevoked : Revoked sessionId s)
    (h : s.step sessionId ttlSeconds e = some t) (hcond : NoRevival sessionId s e) :
    Revoked sessionId t := by
  cases e with
  | start i =>
      obtain ⟨-, rfl⟩ : s.calls i = .notStarted ∧
          { s with calls := Function.update s.calls i .getSession } = t := by
        simpa [SessionState.step] using h
      exact hrevoked
  | validate i stmt =>
      simp only [SessionState.step, Option.map_eq_some_iff] at h
      obtain ⟨⟨pc, db'⟩, hstep, rfl⟩ := h
      intro hlogout row hrow
      rcases Validate.step_sessions hstep with hsub | ⟨userId, hpc, hok, haccepts⟩
      · exact hrevoked hlogout row (hsub row hrow)
      · rcases hcond hlogout userId hpc with hfail | hrefused
        · rw [hok] at hfail
          cases hfail
        · exact absurd haccepts hrefused
  | logout stmt =>
      unfold SessionState.step at h
      simp only at h
      split at h
      · cases hdelete : dbDeleteSession s.db stmt sessionId with
        | error rc =>
            simp only [hdelete] at h
            cases h
            intro hlogout
            cases hlogout
        | ok db' =>
            simp only [hdelete] at h
            cases h
            intro _ row hrow
            rw [dbDeleteSession_ok hdelete] at hrow
            simpa using (List.mem_filter.mp hrow).2
      · cases h

theorem logout_stays {e : SessionEvent} (hlogout : s.logout = some true)
    (h : s.step sessionId ttlSeconds e = some t) : t.logout = some true := by
  cases e with
  | start i =>
      obtain ⟨-, rfl⟩ : s.calls i = .notStarted ∧
          { s with calls := Function.update s.calls i .getSession } = t := by
        simpa [SessionState.step] using h
      exact hlogout
  | validate i stmt =>
      simp only [SessionState.step, Option.map_eq_some_iff] at h
      obtain ⟨⟨pc, db'⟩, -, rfl⟩ := h
      exact hlogout
  | logout stmt => simp [SessionState.step, hlogout] at h

/-- A call that has not got past its `SELECT`. -/
def Validate.Fruitless (pc : Validate) : Prop :=
  pc = .notStarted ∨ pc = .getSession ∨ pc = .returned none

theorem fruitless_step {e : SessionEvent} {i : Nat} (hfruitless : (s.calls i).Fruitless)
    (hrows : ∀ row ∈ s.db.sessions, row.sessionId ≠ sessionId)
    (h : s.step sessionId ttlSeconds e = some t) : (t.calls i).Fruitless := by
  cases e with
  | start j =>
      obtain ⟨-, rfl⟩ : s.calls j = .notStarted ∧
          { s with calls := Function.update s.calls j .getSession } = t := by
        simpa [SessionState.step] using h
      by_cases hj : i = j
      · subst hj
        exact .inr (.inl (Function.update_self ..))
      · show (Function.update s.calls j .getSession i).Fruitless
        rwa [Function.update_of_ne hj]
  | validate j stmt =>
      simp only [SessionState.step, Option.map_eq_some_iff] at h
      obtain ⟨⟨pc, db'⟩, hstep, rfl⟩ := h
      by_cases hj : i = j
      · subst hj
        show (Function.update s.calls i pc i).Fruitless
        rw [Function.update_self]
        rcases hfruitless with hpc | hpc | hpc <;> rw [hpc] at hstep
        · cases hstep
        · cases Validate.stepped hstep with
          | missing => exact .inr (.inr rfl)
          | found hget =>
              obtain ⟨row, hmem, hid, -⟩ := dbGetSession_ok hget
              exact absurd hid (hrows _ hmem)
        · cases hstep
      · show (Function.update s.calls j pc i).Fruitless
        rwa [Function.update_of_ne hj]
  | logout stmt =>
      unfold SessionState.step at h
      simp only at h
      split at h
      · split at h <;> cases h <;> exact hfruitless
      · cases h

/-! ### Runs -/

theorem revoked_run {es : List SessionEvent}
    (h : ((sessionSystem db sessionId ttlSeconds).restrict (NoRevival sessionId)).Run s es t)
    (hrevoked : Revoked sessionId s) : Revoked sessionId t :=
  h.preserves hrevoked fun _ _ _ hs hstep => hs.step hstep.2 hstep.1

/-- **Logout is final.** In every run whose steps all meet `NoRevival`, a call that has not started when
`session_logout` has returned `SQLITE_OK` never returns `0`. -/
theorem logout_final {es fs : List SessionEvent}
    (h : ((sessionSystem db sessionId ttlSeconds).restrict (NoRevival sessionId)).Run (.initial db) es s)
    (hlogout : s.logout = some true)
    (h' : ((sessionSystem db sessionId ttlSeconds).restrict (NoRevival sessionId)).Run s fs t)
    {i : Nat} (hi : s.calls i = .notStarted) (userId : Int) : t.calls i ≠ .returned (some userId) := by
  have hrevoked : Revoked sessionId s := revoked_run h fun hlogout => by cases hlogout
  let I (u : SessionState) : Prop :=
    u.logout = some true ∧ Revoked sessionId u ∧ (u.calls i).Fruitless
  obtain ⟨-, -, hfruitless⟩ : I t :=
    h'.preserves (I := I) ⟨hlogout, hrevoked, .inl hi⟩ fun u e v hu hstep => by
      obtain ⟨hlogout, hrevoked, hfruitless⟩ := hu
      exact ⟨logout_stays hlogout hstep.2, hrevoked.step hstep.2 hstep.1,
        fruitless_step hfruitless (hrevoked hlogout) hstep.2⟩
  intro heq
  rw [heq] at hfruitless
  rcases hfruitless with hpc | hpc | hpc <;> cases hpc

/-- A user who is logged in until second 100. -/
def loggedIn (sessionId : Bytes) : Database :=
  ⟨[⟨1, [97], [97], [104], .user⟩], [⟨1, sessionId, 100⟩], [], [], 1, 0, 0⟩

/-- A logout, and a call that starts after it. -/
theorem logout_final_one : ∃ t : SessionState,
    t.calls 0 = .returned none ∧ t.calls 0 ≠ .returned (some 1) := by
  let called : Nat → Validate := Function.update (fun _ => .notStarted) 0 .getSession
  let s : SessionState := ⟨{ loggedIn [115] with sessions := [] }, fun _ => .notStarted, some true⟩
  let t : SessionState := ⟨s.db, Function.update called 0 (.returned none), some true⟩
  have hlogout : ((sessionSystem (loggedIn [115]) [115] 1800).restrict (NoRevival [115])).Run
      (.initial (loggedIn [115])) [.logout ⟨true, 0⟩] s :=
    System.run_cons_iff.mpr ⟨s, ⟨trivial, rfl⟩, .nil⟩
  have hcall : ((sessionSystem (loggedIn [115]) [115] 1800).restrict (NoRevival [115])).Run s
      [.start 0, .validate 0 ⟨true, 1⟩] t := by
    apply System.run_cons_iff.mpr
    refine ⟨{ s with calls := called }, ⟨trivial, rfl⟩, System.run_cons_iff.mpr ⟨t, ⟨?_, rfl⟩, .nil⟩⟩
    intro _ userId hpc
    simp [called] at hpc
  exact ⟨t, rfl, logout_final hlogout rfl hcall rfl 1⟩

/-- A call reads the session, the user logs out, and the call inserts the session again: the next call
succeeds. -/
theorem logout_revived :
    ¬ ∀ (db : Database) (sessionId : Bytes) (ttlSeconds : Int) (es fs : List SessionEvent)
      (s t : SessionState), (sessionSystem db sessionId ttlSeconds).Run (.initial db) es s →
        s.logout = some true → (sessionSystem db sessionId ttlSeconds).Run s fs t →
        ∀ (i : Nat) (userId : Int), s.calls i = .notStarted → t.calls i ≠ .returned (some userId) := by
  intro h
  let stmt : Stmt := ⟨true, 0⟩
  let es : List SessionEvent := [.start 0, .validate 0 stmt, .logout stmt]
  let fs : List SessionEvent :=
    [.validate 0 stmt, .validate 0 stmt, .validate 0 stmt, .start 1, .validate 1 stmt,
      .validate 1 stmt, .validate 1 stmt, .validate 1 stmt]
  have hes : ∃ s, es.foldlM (SessionState.step [115] 1800) (.initial (loggedIn [115])) = some s ∧
      s.logout = some true ∧ s.calls 1 = .notStarted ∧
      ∃ t, fs.foldlM (SessionState.step [115] 1800) s = some t ∧ t.calls 1 = .returned (some 1) :=
    ⟨_, rfl, rfl, rfl, _, rfl, rfl⟩
  obtain ⟨s, hs, hlogout, hcall, t, ht, hsuccess⟩ := hes
  exact h (loggedIn [115]) [115] 1800 es fs s t (System.run_ofPartial.mpr hs) hlogout
    (System.run_ofPartial.mpr ht) 1 1 hcall hsuccess

end OttQuic.Auth
