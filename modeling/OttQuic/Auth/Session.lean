import OttQuic.Db.Conn

/-!
# Sessions (`session.c`)

`session_validate_and_extend` is four statements: it reads the session, deletes the expired ones, and
extends its own by deleting it and inserting it again. `Validate.step` is one statement of a call, as
other threads see it; a call that is not interrupted takes these steps in turn
(`sessionValidateAndExtend_eq_steps`).
-/

namespace OttQuic.Auth

open Db

abbrev sessionIdLen : Nat := 64
abbrev sessionTtlSeconds : Int := 1800

/-- `session_validate_and_extend`: the user when it returns `0`. -/
def sessionValidateAndExtend (conn : Conn) (sessionId : Bytes) (ttlSeconds : Int) : Option Int × Conn :=
  match conn.query fun db stmt => dbGetSession db stmt sessionId with
  | (.error _, conn) => (none, conn)
  | (.ok session, conn) =>
    match conn.exec dbDeleteExpiredSessions with
    | (false, conn) => (none, conn)
    | (true, conn) =>
      -- the result of the deletion is not looked at
      match conn.exec fun db stmt => dbDeleteSession db stmt sessionId with
      | (_, conn) =>
        match conn.exec fun db stmt => dbCreateSession db stmt session.userId sessionId ttlSeconds with
        | (false, conn) => (none, conn)
        | (true, conn) => (some session.userId, conn)

/-- `session_logout`, with whether it returns `SQLITE_OK`. -/
def sessionLogout (conn : Conn) (sessionId : Bytes) : Bool × Conn :=
  conn.exec fun db stmt => dbDeleteSession db stmt sessionId

/-! ### One statement at a time -/

/-- Where a call of `session_validate_and_extend` is: the statement it executes next, with the user of
the session it has read. -/
inductive Validate where
  | notStarted
  | getSession
  | deleteExpired (userId : Int)
  | deleteSession (userId : Int)
  | createSession (userId : Int)
  /-- The user when it returned `0`, nothing when it returned `-1`. -/
  | returned (result : Option Int)
  deriving DecidableEq

/-- The next statement of a call. -/
def Validate.step (sessionId : Bytes) (ttlSeconds : Int) (db : Database) (stmt : Stmt) :
    Validate → Option (Validate × Database)
  | .getSession =>
    match dbGetSession db stmt sessionId with
    | .ok session => some (.deleteExpired session.userId, db)
    | .error _ => some (.returned none, db)
  | .deleteExpired userId =>
    match dbDeleteExpiredSessions db stmt with
    | .ok db => some (.deleteSession userId, db)
    | .error _ => some (.returned none, db)
  | .deleteSession userId =>
    match dbDeleteSession db stmt sessionId with
    | .ok db => some (.createSession userId, db)
    | .error _ => some (.createSession userId, db)
  | .createSession userId =>
    match dbCreateSession db stmt userId sessionId ttlSeconds with
    | .ok db => some (.returned (some userId), db)
    | .error _ => some (.returned none, db)
  | .notStarted | .returned _ => none

/-- What one statement of a call does. -/
inductive Validate.Stepped (sessionId : Bytes) (ttlSeconds : Int) (db : Database) (stmt : Stmt) :
    Validate → Validate → Database → Prop where
  | found {session : SessionRow} (hget : dbGetSession db stmt sessionId = .ok session) :
    Stepped sessionId ttlSeconds db stmt .getSession (.deleteExpired session.userId) db
  | missing {rc : Rc} (hget : dbGetSession db stmt sessionId = .error rc) :
    Stepped sessionId ttlSeconds db stmt .getSession (.returned none) db
  | purged {userId : Int} {db' : Database} (hpurge : dbDeleteExpiredSessions db stmt = .ok db') :
    Stepped sessionId ttlSeconds db stmt (.deleteExpired userId) (.deleteSession userId) db'
  | notPurged {userId : Int} {rc : Rc} (hpurge : dbDeleteExpiredSessions db stmt = .error rc) :
    Stepped sessionId ttlSeconds db stmt (.deleteExpired userId) (.returned none) db
  | deleted {userId : Int} {db' : Database} (hdelete : dbDeleteSession db stmt sessionId = .ok db') :
    Stepped sessionId ttlSeconds db stmt (.deleteSession userId) (.createSession userId) db'
  | notDeleted {userId : Int} {rc : Rc} (hdelete : dbDeleteSession db stmt sessionId = .error rc) :
    Stepped sessionId ttlSeconds db stmt (.deleteSession userId) (.createSession userId) db
  | created {userId : Int} {db' : Database}
      (hcreate : dbCreateSession db stmt userId sessionId ttlSeconds = .ok db') :
    Stepped sessionId ttlSeconds db stmt (.createSession userId) (.returned (some userId)) db'
  | refused {userId : Int} {rc : Rc}
      (hcreate : dbCreateSession db stmt userId sessionId ttlSeconds = .error rc) :
    Stepped sessionId ttlSeconds db stmt (.createSession userId) (.returned none) db

theorem Validate.stepped {sessionId : Bytes} {ttlSeconds : Int} {db db' : Database} {stmt : Stmt}
    {pc pc' : Validate} (h : Validate.step sessionId ttlSeconds db stmt pc = some (pc', db')) :
    Stepped sessionId ttlSeconds db stmt pc pc' db' := by
  unfold Validate.step at h
  split at h
  · split at h <;> cases h
    · exact .found ‹_›
    · exact .missing ‹_›
  · split at h <;> cases h
    · exact .purged ‹_›
    · exact .notPurged ‹_›
  · split at h <;> cases h
    · exact .deleted ‹_›
    · exact .notDeleted ‹_›
  · split at h <;> cases h
    · exact .created ‹_›
    · exact .refused ‹_›
  · cases h
  · cases h

/-- `n` statements of a call that nothing interrupts. -/
def Validate.steps (sessionId : Bytes) (ttlSeconds : Int) : Nat → Validate × Conn → Validate × Conn
  | 0, call => call
  | n + 1, (pc, conn) =>
    match Validate.step sessionId ttlSeconds conn.db conn.stmt pc with
    | some (pc, db) => Validate.steps sessionId ttlSeconds n (pc, conn.next db)
    | none => (pc, conn)

/-- **A call that is not interrupted takes its four steps.** -/
theorem sessionValidateAndExtend_eq_steps (conn : Conn) (sessionId : Bytes) (ttlSeconds : Int) :
    Validate.steps sessionId ttlSeconds 4 (.getSession, conn) =
      (.returned (sessionValidateAndExtend conn sessionId ttlSeconds).1,
        (sessionValidateAndExtend conn sessionId ttlSeconds).2) := by
  unfold sessionValidateAndExtend Conn.query
  cases hget : dbGetSession conn.db conn.stmt sessionId with
  | error rc => simp [Validate.steps, Validate.step, hget]
  | ok session =>
      simp only [Validate.steps, Validate.step, hget]
      unfold Conn.exec
      generalize conn.next conn.db = conn₁
      cases hexpired : dbDeleteExpiredSessions conn₁.db conn₁.stmt with
      | error rc => rfl
      | ok db₁ =>
          simp only
          generalize conn₁.next db₁ = conn₂
          cases hdelete : dbDeleteSession conn₂.db conn₂.stmt sessionId <;> simp only <;>
            generalize Conn.next conn₂ _ = conn₃ <;>
            cases hcreate : dbCreateSession conn₃.db conn₃.stmt session.userId sessionId ttlSeconds <;>
            rfl

end OttQuic.Auth
