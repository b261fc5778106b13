import OttQuic.Auth.Lease
import OttQuic.Http.Admin
import OttQuic.Lib.Transition
import Mathlib.Logic.Function.Basic

/-!
# The lifetime of sessions

Logins, signups, validations and logouts one after the other, with time passing between them, on a
database none of whose statements fails but for the constraints of the schema. `Lifetime` has beside the
connection what the run says about each session: the lease its creation granted, renewed by every
validation that succeeded, until a logout.

Every operation keeps the table backing the leases (`Lifetime.Sound`), so a validation succeeds exactly
on a current lease, and the operations on other sessions do not matter (`session_lifetime`).
-/

namespace OttQuic.Auth

open Db Http Transition

inductive SessionOp where
  | login (env : ApiEnv) (username password : Bytes)
  | signup (env : ApiEnv) (req : HttpRequest) (body : Bytes)
  | validate (sessionId : Bytes)
  | logout (sessionId : Bytes)
  | wait (seconds : Nat)

namespace SessionOp

def run (conn : Conn) : SessionOp → Conn
  | .login env username password => (sessionLogin env conn username password).2
  | .signup env req body => (handleSignup env req conn body).conn
  | .validate sessionId => (sessionValidateAndExtend conn sessionId sessionTtlSeconds).2
  | .logout sessionId => (sessionLogout conn sessionId).2
  | .wait seconds => { conn with now := conn.now + seconds }

/-- The session which a login or a signup creates, with its lease. A login that returns a session has created
it for the user of that name; a signup creates one for the user it has made. The id of the user is an `int` when it
comes to `db_create_session`. -/
def grants (conn : Conn) : SessionOp → Option (Bytes × Lease)
  | .login env username password =>
    match (sessionLogin env conn username password).1,
      conn.db.users.find? fun row => row.username = username with
    | some sessionId, some user => some (sessionId, ⟨CString.toInt user.id, conn.now⟩)
    | _, _ => none
  | .signup env req body =>
    if (handleSignup env req conn body).conn.db.sessions = conn.db.sessions then none
    else env.sessionId.map fun sessionId => (sessionId, ⟨CString.toInt (conn.db.userSeq + 1), conn.now⟩)
  | _ => none

/-- The leases with the one that is granted. -/
def granted (leases : Bytes → Option Lease) : Option (Bytes × Lease) → Bytes → Option Lease
  | some (sessionId, lease) => Function.update leases sessionId (some lease)
  | none => leases

/-- The leases after an operation. -/
def leases (conn : Conn) (leases : Bytes → Option Lease) : SessionOp → Bytes → Option Lease
  | .validate sessionId =>
    match (sessionValidateAndExtend conn sessionId sessionTtlSeconds).1 with
    | some _ => Function.update leases sessionId
        ((leases sessionId).map fun lease => { lease with renewedAt := conn.now })
    | none => leases
  | .logout sessionId => Function.update leases sessionId none
  | op => granted leases (op.grants conn)

/-- The operation is about this session, or time passes. -/
def Concerns (sessionId : Bytes) : SessionOp → Prop
  | .login env _ _ | .signup env _ _ => env.sessionId = some sessionId
  | .validate other | .logout other => other = sessionId
  | .wait _ => True

end SessionOp

structure Lifetime where
  conn : Conn
  leases : Bytes → Option Lease

def Lifetime.next (s : Lifetime) (op : SessionOp) : Lifetime where
  conn := op.run s.conn
  leases := op.leases s.conn s.leases

/-- From an empty `sessions` table. An id that is generated may be one that was used before: while a row has it, the
login or the signup gets no session. -/
def lifetimeSystem : System Lifetime SessionOp where
  init s := s.conn.db.sessions = [] ∧ s.conn.Reliable ∧ ∀ sessionId, s.leases sessionId = none
  step s op t := t = s.next op

variable {conn : Conn} {sessionId other : Bytes} {ttlSeconds : Int} {lease : Option Lease}

/-! ### One validation -/

/-- A session with a current lease is validated for its user, and its lease starts again. The purge and
the new row leave the other sessions as they are. -/
theorem validate_current {l : Lease} (hreliable : conn.Reliable)
    (hback : Backs ttlSeconds conn.now sessionId conn.db (some l)) (hcurrent : l.Current ttlSeconds conn.now)
    (huser : l.Renewable conn.db) (httl : 0 ≤ ttlSeconds) :
    ∃ db' n, sessionValidateAndExtend conn sessionId ttlSeconds =
        (some l.userId, { conn with db := db', executed := n }) ∧
      db'.users = conn.db.users ∧
      Backs ttlSeconds conn.now sessionId db' (some ⟨l.userId, conn.now⟩) ∧
      ∀ other lease, other ≠ sessionId → Backs ttlSeconds conn.now other conn.db lease →
        Backs ttlSeconds conn.now other db' lease := by
  let stmt : Stmt := ⟨true, conn.now⟩
  have hget : dbGetSession conn.db stmt sessionId = .ok (l.row sessionId ttlSeconds).read :=
    hback.getSession rfl hcurrent
  obtain ⟨db₁, hpurge⟩ : ∃ db₁, dbDeleteExpiredSessions conn.db stmt = .ok db₁ := ⟨_, rfl⟩
  obtain ⟨db₂, hdelete⟩ : ∃ db₂, dbDeleteSession db₁ stmt sessionId = .ok db₂ := ⟨_, rfl⟩
  have husers₁ := (rowsOf_deleteExpired sessionId hpurge).2
  obtain ⟨hempty, husers₂⟩ := rowsOf_deleteSession hdelete
  obtain ⟨db₃, hcreate⟩ : ∃ db₃, dbCreateSession db₂ stmt l.userId sessionId ttlSeconds = .ok db₃ :=
    ⟨_, dbCreateSession_of_accepts rfl hempty (by rw [Database.HasUser, husers₂, husers₁]; exact huser.2) httl⟩
  have husers₃ := (rowsOf_createSession hcreate).2
  refine ⟨db₃, conn.executed + 4, ?_, husers₃.trans (husers₂.trans husers₁), backs_createSession hcreate, ?_⟩
  · have hpurged := (hreliable.next conn.db).exec_ok hpurge
    have hdeleted : ((conn.next conn.db).next db₁).exec (fun db stmt => dbDeleteSession db stmt sessionId) =
        (true, ((conn.next conn.db).next db₁).next db₂) :=
      ((hreliable.next conn.db).next db₁).exec_ok hdelete
    have hcreated : (((conn.next conn.db).next db₁).next db₂).exec
          (fun db stmt => dbCreateSession db stmt l.userId sessionId ttlSeconds) =
        (true, (((conn.next conn.db).next db₁).next db₂).next db₃) :=
      (((hreliable.next conn.db).next db₁).next db₂).exec_ok hcreate
    simp only [sessionValidateAndExtend, hreliable.query, stmt, hget, hpurged, hdeleted, SessionRow.read, Lease.row,
      huser.1, hcreated]
    rfl
  · intro other lease hne hother
    have hpurged : Backs ttlSeconds stmt.now other db₁ lease := Backs.deleteExpired hother hpurge
    have hdeleted := hpurged.of_rowsOf_eq (rowsOf_deleteSession_of_ne hne.symm hdelete).1
    exact hdeleted.of_rowsOf_eq (rowsOf_createSession_of_ne hne.symm hcreate).1

theorem validate_lapsed (hreliable : conn.Reliable)
    (hback : Backs ttlSeconds conn.now sessionId conn.db lease)
    (hlapsed : ∀ l, lease = some l → ¬ l.Current ttlSeconds conn.now) :
    sessionValidateAndExtend conn sessionId ttlSeconds = (none, conn.next conn.db) := by
  obtain ⟨rc, hget⟩ : ∃ rc, dbGetSession conn.db ⟨true, conn.now⟩ sessionId = .error rc :=
    Backs.getSession_none hback hlapsed
  simp only [sessionValidateAndExtend, hreliable.query, hget]

/-! ### One login or signup -/

/-- What a login or a signup leaves as it was. -/
structure Kept (conn conn' : Conn) : Prop where
  now : conn'.now = conn.now
  fates : conn'.fates = conn.fates
  users : ∀ userId, conn.db.HasUser userId → conn'.db.HasUser userId

/-- What it does to the sessions: it grants a lease on the generated id, or nothing. -/
def Grants (conn conn' : Conn) (generated : Option Bytes) : Option (Bytes × Lease) → Prop
  | none => ∀ sessionId, conn'.db.rowsOf sessionId = conn.db.rowsOf sessionId
  | some (sessionId, lease) =>
    generated = some sessionId ∧ lease.Renewable conn'.db ∧
      Backs sessionTtlSeconds conn.now sessionId conn'.db (some lease) ∧
      ∀ other, other ≠ sessionId → conn'.db.rowsOf other = conn.db.rowsOf other

theorem Kept.next (conn : Conn) : Kept conn (conn.next conn.db) := ⟨rfl, rfl, fun _ h => h⟩

theorem grants_createSession {conn₁ : Conn} {db' : Database} {id : Int} (hkept : Kept conn conn₁)
    (hsessions : conn₁.db.sessions = conn.db.sessions)
    (hcreate : dbCreateSession conn₁.db ⟨true, conn₁.now⟩ (CString.toInt id) sessionId sessionTtlSeconds = .ok db') :
    Kept conn (conn₁.next db') ∧
      Grants conn (conn₁.next db') (some sessionId) (some (sessionId, ⟨CString.toInt id, conn.now⟩)) := by
  obtain ⟨-, haccepts, -⟩ := dbCreateSession_ok hcreate
  obtain ⟨-, husers⟩ := rowsOf_createSession hcreate
  have hmono (userId : Int) (h : conn₁.db.HasUser userId) : db'.HasUser userId := by
    rwa [Database.HasUser, husers]
  refine ⟨⟨hkept.now, hkept.fates, fun userId h => hmono userId (hkept.users userId h)⟩, rfl,
    ⟨CString.toInt_toInt id, hmono _ (acceptsSession_iff.mp haccepts).2⟩, ?_, fun other hne => ?_⟩
  · rw [← hkept.now]
    exact backs_createSession hcreate
  · rw [Conn.next_db, (rowsOf_createSession_of_ne hne.symm hcreate).1, Database.rowsOf, hsessions]
    rfl

theorem login_grants (hreliable : conn.Reliable) (env : ApiEnv) (username password : Bytes) :
    Kept conn (SessionOp.run conn (.login env username password)) ∧
      Grants conn (SessionOp.run conn (.login env username password)) env.sessionId
        (SessionOp.grants conn (.login env username password)) := by
  simp only [SessionOp.run, SessionOp.grants, sessionLogin, hreliable.query, dbGetUserByUsername, if_true]
  cases hfind : conn.db.users.find? (fun row => row.username = username) with
  | none => exact ⟨Kept.next conn, fun _ => rfl⟩
  | some user =>
      simp only
      split_ifs
      · exact ⟨Kept.next conn, fun _ => rfl⟩
      · cases hid : env.sessionId with
        | none => exact ⟨Kept.next conn, fun _ => rfl⟩
        | some sessionId =>
            cases hcreate : dbCreateSession conn.db ⟨true, conn.now⟩ (CString.toInt user.id) sessionId
                sessionTtlSeconds with
            | error rc =>
                have hrefused : (conn.next conn.db).exec
                      (fun db stmt => dbCreateSession db stmt (CString.toInt user.id) sessionId sessionTtlSeconds) =
                    (false, (conn.next conn.db).next conn.db) := (hreliable.next conn.db).exec_error hcreate
                simp only [UserRow.read, hrefused]
                exact ⟨⟨rfl, rfl, fun _ h => h⟩, fun _ => rfl⟩
            | ok db' =>
                have hcreated : (conn.next conn.db).exec
                      (fun db stmt => dbCreateSession db stmt (CString.toInt user.id) sessionId sessionTtlSeconds) =
                    (true, (conn.next conn.db).next db') := (hreliable.next conn.db).exec_ok hcreate
                simp only [UserRow.read, hcreated]
                exact grants_createSession (Kept.next conn) rfl hcreate

/-- A signup that has made its user. -/
structure SignedUp (conn conn₁ : Conn) : Prop where
  kept : Kept conn conn₁
  sessions : conn₁.db.sessions = conn.db.sessions

theorem signedUp {username nickname hash : Bytes} {id : Int} {db₁ : Database}
    (h : dbCreateUser conn.db ⟨true, conn.now⟩ username nickname hash .user = .ok (id, db₁)) :
    SignedUp conn ((conn.next conn.db).next db₁) := by
  obtain ⟨rfl, rfl⟩ := dbCreateUser_ok h
  refine ⟨⟨rfl, rfl, fun userId huser => ?_⟩, rfl⟩
  obtain ⟨row, hmem, hid⟩ := huser
  exact ⟨row, List.mem_append_left _ hmem, hid⟩

/-- A signup stops before it has made a user, or has made one and then inserts the session if it has an
id. -/
theorem handleSignup_cases (hreliable : conn.Reliable) (env : ApiEnv) (req : HttpRequest) (body : Bytes) :
    let conn' := (handleSignup env req conn body).conn
    (Kept conn conn' ∧ conn'.db = conn.db) ∨
      ∃ conn₁, SignedUp conn conn₁ ∧ conn₁.Reliable ∧
        ((env.sessionId = none ∧ conn' = conn₁) ∨
          ∃ sessionId, env.sessionId = some sessionId ∧
            conn' = (conn₁.exec fun db stmt =>
              dbCreateSession db stmt (CString.toInt (conn.db.userSeq + 1)) sessionId sessionTtlSeconds).2) := by
  have hidle (conn' : Conn) (h : conn' = conn ∨ ∃ n, conn' = { conn with executed := n }) :
      Kept conn conn' ∧ conn'.db = conn.db := by
    rcases h with rfl | ⟨n, rfl⟩ <;> exact ⟨⟨rfl, rfl, fun _ h => h⟩, rfl⟩
  unfold handleSignup
  simp only
  split_ifs
  · exact .inl (hidle _ (.inl rfl))
  · exact .inl (hidle _ (.inl rfl))
  · exact .inl (hidle _ (.inl rfl))
  split
  · rename_i username password nickname _ _ _
    rw [hreliable.query]
    cases dbGetUserByUsername conn.db ⟨true, conn.now⟩ username with
    | ok user => exact .inl (hidle _ (.inr ⟨_, rfl⟩))
    | error rc =>
        simp only
        split_ifs with hhash
        · exact .inl (hidle _ (.inr ⟨_, rfl⟩))
        · cases hcreate : dbCreateUser conn.db ⟨true, conn.now⟩ username nickname
              (env.hashPassword password) .user with
          | error rc =>
              have hinsert : (conn.next conn.db).insert (fun db stmt =>
                  dbCreateUser db stmt username nickname (env.hashPassword password) .user) =
                    (none, (conn.next conn.db).next conn.db) :=
                (hreliable.next conn.db).insert_error hcreate
              rw [hinsert]
              exact .inl (hidle _ (.inr ⟨_, rfl⟩))
          | ok created =>
              obtain ⟨id, db₁⟩ := created
              have hinsert : (conn.next conn.db).insert (fun db stmt =>
                  dbCreateUser db stmt username nickname (env.hashPassword password) .user) =
                    (some id, (conn.next conn.db).next db₁) :=
                (hreliable.next conn.db).insert_ok hcreate
              rw [hinsert]
              obtain ⟨rfl, rfl⟩ := dbCreateUser_ok hcreate
              refine .inr ⟨_, signedUp hcreate, (hreliable.next conn.db).next _, ?_⟩
              cases env.sessionId with
              | none => exact .inl ⟨rfl, rfl⟩
              | some sessionId =>
                  refine .inr ⟨sessionId, rfl, ?_⟩
                  simp only
                  split
                  · rename_i conn₂ hexec
                    rw [hexec]
                    rfl
                  · rename_i conn₂ hexec
                    rw [hexec]
                    split <;> rfl
  · exact .inl (hidle _ (.inl rfl))

theorem signup_grants (hreliable : conn.Reliable) (env : ApiEnv) (req : HttpRequest) (body : Bytes) :
    Kept conn (SessionOp.run conn (.signup env req body)) ∧
      Grants conn (SessionOp.run conn (.signup env req body)) env.sessionId
        (SessionOp.grants conn (.signup env req body)) := by
  simp only [SessionOp.run, SessionOp.grants]
  rcases handleSignup_cases hreliable env req body with ⟨hkept, hdb⟩ | ⟨conn₁, hsigned, hreliable₁, hsession⟩
  · refine ⟨hkept, ?_⟩
    rw [if_pos (by rw [hdb])]
    intro sessionId
    rw [hdb]
  · rcases hsession with ⟨hid, hconn⟩ | ⟨sessionId, hid, hconn⟩
    · rw [hconn, hid]
      refine ⟨hsigned.kept, ?_⟩
      rw [Option.map_none, ite_self]
      intro sessionId
      rw [Database.rowsOf, hsigned.sessions]
      rfl
    · cases hcreate : dbCreateSession conn₁.db ⟨true, conn₁.now⟩ (CString.toInt (conn.db.userSeq + 1)) sessionId
          sessionTtlSeconds with
      | error rc =>
          have hrefused : conn₁.exec (fun db stmt =>
              dbCreateSession db stmt (CString.toInt (conn.db.userSeq + 1)) sessionId sessionTtlSeconds) =
                (false, conn₁.next conn₁.db) := hreliable₁.exec_error hcreate
          have hsame : (conn₁.next conn₁.db).db.sessions = conn.db.sessions := hsigned.sessions
          rw [hconn, hrefused, if_pos hsame]
          refine ⟨⟨hsigned.kept.now, hsigned.kept.fates, hsigned.kept.users⟩, fun other => ?_⟩
          rw [Conn.next_db, Database.rowsOf, hsigned.sessions]
          rfl
      | ok db' =>
          have hcreated : conn₁.exec (fun db stmt =>
              dbCreateSession db stmt (CString.toInt (conn.db.userSeq + 1)) sessionId sessionTtlSeconds) =
                (true, conn₁.next db') := hreliable₁.exec_ok hcreate
          have hadded : db'.sessions ≠ conn.db.sessions := by
            obtain ⟨-, -, rfl⟩ := dbCreateSession_ok hcreate
            rw [hsigned.sessions]
            simp
          rw [hconn, hcreated, hid, Conn.next_db, if_neg hadded]
          exact grants_createSession hsigned.kept hsigned.sessions hcreate

/-! ### The invariant -/

structure Lifetime.Sound (s : Lifetime) : Prop where
  reliable : s.conn.Reliable
  backs : ∀ sessionId, Backs sessionTtlSeconds s.conn.now sessionId s.conn.db (s.leases sessionId)
  users : ∀ sessionId lease, s.leases sessionId = some lease → lease.Renewable s.conn.db

variable {s t : Lifetime} {op : SessionOp}

theorem sound_initial (h : lifetimeSystem.init s) : s.Sound := by
  obtain ⟨hsessions, hreliable, hleases⟩ := h
  refine ⟨hreliable, fun sessionId => ?_, fun sessionId lease h => ?_⟩
  · rw [hleases]
    show s.conn.db.rowsOf sessionId = []
    rw [Database.rowsOf, hsessions]
    rfl
  · rw [hleases] at h
    cases h

theorem Lifetime.Sound.validate_iff (h : s.Sound) (sessionId : Bytes) (userId : Int) :
    (sessionValidateAndExtend s.conn sessionId sessionTtlSeconds).1 = some userId ↔
      ∃ lease, s.leases sessionId = some lease ∧ lease.userId = userId ∧
        lease.Current sessionTtlSeconds s.conn.now := by
  by_cases hcurrent : ∃ lease, s.leases sessionId = some lease ∧ lease.Current sessionTtlSeconds s.conn.now
  · obtain ⟨lease, hlease, hcurrent⟩ := hcurrent
    have hback := h.backs sessionId
    rw [hlease] at hback
    obtain ⟨db', n, heq, -⟩ :=
      validate_current h.reliable hback hcurrent (h.users sessionId lease hlease) (by decide)
    rw [heq, hlease]
    simp [hcurrent]
  · rw [validate_lapsed h.reliable (h.backs sessionId) fun l hl hc => hcurrent ⟨l, hl, hc⟩]
    constructor
    · intro hnone
      cases hnone
    · rintro ⟨lease, hlease, -, hc⟩
      exact absurd ⟨lease, hlease, hc⟩ hcurrent

theorem sound_updated {conn' : Conn} (h : s.Sound) (sessionId : Bytes)
    (lease : Option Lease) (hkept : Kept s.conn conn')
    (hback : Backs sessionTtlSeconds s.conn.now sessionId conn'.db lease)
    (hothers : ∀ other lease, other ≠ sessionId → Backs sessionTtlSeconds s.conn.now other s.conn.db lease →
      Backs sessionTtlSeconds s.conn.now other conn'.db lease)
    (hlease : ∀ l, lease = some l → l.Renewable conn'.db) :
    Lifetime.Sound ⟨conn', Function.update s.leases sessionId lease⟩ := by
  refine ⟨fun n => ?_, ?_, ?_⟩
  · rw [hkept.fates]
    exact h.reliable n
  · refine (Function.forall_update_iff _ fun other lease =>
      Backs sessionTtlSeconds conn'.now other conn'.db lease).mpr ⟨?_, fun other hne => ?_⟩
    · rwa [hkept.now]
    · rw [hkept.now]
      exact hothers other _ hne (h.backs other)
  · exact (Function.forall_update_iff _ fun _ (l : Option Lease) =>
      ∀ lease, l = some lease → lease.Renewable conn'.db).mpr
        ⟨hlease, fun other _ l hl => (h.users other l hl).imp_right (hkept.users _)⟩

theorem sound_granted {grant : Option (Bytes × Lease)} {conn' : Conn} {generated : Option Bytes}
    (h : s.Sound) (hkept : Kept s.conn conn') (hgrants : Grants s.conn conn' generated grant) :
    Lifetime.Sound ⟨conn', SessionOp.granted s.leases grant⟩ := by
  cases grant with
  | none =>
      refine ⟨fun n => ?_, fun sessionId => ?_, fun sessionId lease hl => ?_⟩
      · rw [hkept.fates]
        exact h.reliable n
      · rw [hkept.now]
        exact (h.backs sessionId).of_rowsOf_eq (hgrants sessionId)
      · exact (h.users sessionId lease hl).imp_right (hkept.users _)
  | some grant =>
      obtain ⟨sessionId, lease⟩ := grant
      obtain ⟨rfl, huser, hback, hothers⟩ := hgrants
      refine sound_updated h sessionId _ hkept hback ?_ ?_
      · exact fun other _ hne hback => hback.of_rowsOf_eq (hothers other hne)
      · rintro l hl
        cases hl
        exact huser

theorem sound_validate (h : s.Sound) (sessionId : Bytes) : (s.next (.validate sessionId)).Sound := by
  have hback := h.backs sessionId
  by_cases hcurrent : ∃ lease, s.leases sessionId = some lease ∧ lease.Current sessionTtlSeconds s.conn.now
  · obtain ⟨lease, hlease, hcurrent⟩ := hcurrent
    rw [hlease] at hback
    obtain ⟨db', n, heq, husers, hrenewed, hothers⟩ :=
      validate_current h.reliable hback hcurrent (h.users sessionId lease hlease) (by decide)
    simp only [Lifetime.next, SessionOp.run, SessionOp.leases, heq, hlease, Option.map_some]
    have hkept (userId : Int) (huser : s.conn.db.HasUser userId) : db'.HasUser userId := by
      rwa [Database.HasUser, husers]
    refine sound_updated h sessionId _ ⟨rfl, rfl, hkept⟩ hrenewed hothers ?_
    rintro l hl
    cases hl
    exact (h.users sessionId lease hlease).imp_right (hkept _)
  · have heq := validate_lapsed h.reliable hback fun l hl hc => hcurrent ⟨l, hl, hc⟩
    simp only [Lifetime.next, SessionOp.run, SessionOp.leases, heq]
    exact ⟨h.reliable, h.backs, h.users⟩

theorem sound_logout (h : s.Sound) (sessionId : Bytes) : (s.next (.logout sessionId)).Sound := by
  obtain ⟨db', hdelete⟩ : ∃ db', dbDeleteSession s.conn.db ⟨true, s.conn.now⟩ sessionId = .ok db' := ⟨_, rfl⟩
  have hdeleted : s.conn.exec (fun db stmt => dbDeleteSession db stmt sessionId) = (true, s.conn.next db') :=
    h.reliable.exec_ok hdelete
  have husers := (rowsOf_deleteSession hdelete).2
  simp only [Lifetime.next, SessionOp.run, SessionOp.leases, sessionLogout, hdeleted]
  refine sound_updated h sessionId none ⟨rfl, rfl, fun userId huser => ?_⟩ (backs_deleteSession hdelete) ?_ ?_
  · show Database.HasUser db' userId
    rwa [Database.HasUser, husers]
  · intro other lease hne hback
    exact hback.of_rowsOf_eq (rowsOf_deleteSession_of_ne hne.symm hdelete).1
  · intro l hl
    cases hl

/-- **One operation** keeps the table backing the leases. -/
theorem Lifetime.Sound.step (h : s.Sound) (hstep : lifetimeSystem.step s op t) : t.Sound := by
  obtain rfl := hstep
  cases op with
  | login env username password =>
      obtain ⟨hkept, hgrants⟩ := login_grants h.reliable env username password
      exact sound_granted h hkept hgrants
  | signup env req body =>
      obtain ⟨hkept, hgrants⟩ := signup_grants h.reliable env req body
      exact sound_granted h hkept hgrants
  | validate sessionId => exact sound_validate h sessionId
  | logout sessionId => exact sound_logout h sessionId
  | wait seconds =>
      exact ⟨h.reliable, fun sessionId => (h.backs sessionId).clock (by simp [Lifetime.next, SessionOp.run]),
        h.users⟩

theorem Lifetime.Sound.unconcerned (h : s.Sound) (hstep : lifetimeSystem.step s op t)
    (hother : ¬ op.Concerns sessionId) :
    t.leases sessionId = s.leases sessionId ∧ t.conn.now = s.conn.now := by
  obtain rfl := hstep
  have hgranted {grant : Option (Bytes × Lease)} {conn' : Conn} {generated : Option Bytes}
      (hgrants : Grants s.conn conn' generated grant) (hne : generated ≠ some sessionId) :
      SessionOp.granted s.leases grant sessionId = s.leases sessionId := by
    cases grant with
    | none => rfl
    | some grant =>
        refine Function.update_of_ne ?_ _ _
        rintro rfl
        exact hne hgrants.1
  cases op with
  | login env username password =>
      obtain ⟨hkept, hgrants⟩ := login_grants h.reliable env username password
      exact ⟨hgranted hgrants hother, hkept.now⟩
  | signup env req body =>
      obtain ⟨hkept, hgrants⟩ := signup_grants h.reliable env req body
      exact ⟨hgranted hgrants hother, hkept.now⟩
  | validate other =>
      simp only [Lifetime.next, SessionOp.run, SessionOp.leases]
      by_cases hcurrent : ∃ lease, s.leases other = some lease ∧ lease.Current sessionTtlSeconds s.conn.now
      · obtain ⟨lease, hlease, hcurrent⟩ := hcurrent
        have hback := h.backs other
        rw [hlease] at hback
        obtain ⟨db', n, heq, -⟩ :=
          validate_current h.reliable hback hcurrent (h.users other lease hlease) (by decide)
        rw [heq]
        exact ⟨Function.update_of_ne (Ne.symm hother) _ _, rfl⟩
      · rw [validate_lapsed h.reliable (h.backs other) fun l hl hc => hcurrent ⟨l, hl, hc⟩]
        exact ⟨rfl, rfl⟩
  | logout other =>
      obtain ⟨db', hdelete⟩ : ∃ db', dbDeleteSession s.conn.db ⟨true, s.conn.now⟩ other = .ok db' := ⟨_, rfl⟩
      have hdeleted : s.conn.exec (fun db stmt => dbDeleteSession db stmt other) = (true, s.conn.next db') :=
        h.reliable.exec_ok hdelete
      simp only [Lifetime.next, SessionOp.run, SessionOp.leases, sessionLogout, hdeleted]
      exact ⟨Function.update_of_ne (Ne.symm hother) _ _, rfl⟩
  | wait seconds => exact absurd trivial hother

/-! ### Runs -/

theorem lifetime_sound (h : lifetimeSystem.Reachable s) : s.Sound :=
  System.invariant (fun _ => sound_initial) (fun _ _ _ hs hstep => hs.step hstep) h

/-- **The lifetime of a session.** After every run a validation succeeds if and only if the session has a
current lease: it was created, or last validated with success, less than `SESSION_TTL_SECONDS` ago, and
has not been logged out since. It then reports the user for whom the session was created, with the id that
`db_create_session` got. An operation on another session does not change the answer. -/
theorem session_lifetime (h : lifetimeSystem.Reachable s) (sessionId : Bytes) :
    (∀ userId, (sessionValidateAndExtend s.conn sessionId sessionTtlSeconds).1 = some userId ↔
      ∃ lease, s.leases sessionId = some lease ∧ lease.userId = userId ∧
        lease.Current sessionTtlSeconds s.conn.now) ∧
    ∀ op t, lifetimeSystem.step s op t → ¬ op.Concerns sessionId →
      (sessionValidateAndExtend t.conn sessionId sessionTtlSeconds).1 =
        (sessionValidateAndExtend s.conn sessionId sessionTtlSeconds).1 := by
  have hsound := lifetime_sound h
  refine ⟨hsound.validate_iff sessionId, fun op t hstep hother => Option.ext fun userId => ?_⟩
  obtain ⟨hleases, hnow⟩ := hsound.unconcerned hstep hother
  rw [(hsound.step hstep).validate_iff, hsound.validate_iff, hleases, hnow]

/-- A login 1799 seconds ago, and the validation of a session that does not exist. -/
theorem session_lifetime_one : ∃ s t : Lifetime,
    (sessionValidateAndExtend s.conn [115] sessionTtlSeconds).1 = some 1 ∧
      (sessionValidateAndExtend t.conn [115] sessionTtlSeconds).1 =
        (sessionValidateAndExtend s.conn [115] sessionTtlSeconds).1 := by
  let env : ApiEnv := { sampleApiEnv with verifyPassword := fun _ _ => true, sessionId := some [115] }
  let db : Database := ⟨[⟨1, [97], [97], [104], .user⟩], [], [], [], 1, 0, 0⟩
  let s₀ : Lifetime := ⟨⟨db, 0, fun _ => true, 0⟩, fun _ => none⟩
  let s₁ := s₀.next (.login env [97] [112])
  let s := s₁.next (.wait 1799)
  let t := s.next (.validate [116])
  have hinit : lifetimeSystem.init s₀ := ⟨rfl, fun _ => rfl, fun _ => rfl⟩
  have hrun : lifetimeSystem.Run s₀ [.login env [97] [112], .wait 1799] s :=
    System.run_cons_iff.mpr ⟨s₁, rfl, System.run_cons_iff.mpr ⟨s, rfl, .nil⟩⟩
  have hstep : lifetimeSystem.step s (.validate [116]) t := rfl
  obtain ⟨hvalidate, hothers⟩ := session_lifetime ⟨s₀, _, hinit, hrun⟩ [115]
  have hother : ¬ SessionOp.Concerns [115] (.validate [116]) := (by decide : ([116] : Bytes) ≠ [115])
  exact ⟨s, t, (hvalidate 1).mpr ⟨⟨1, 0⟩, rfl, rfl, by decide⟩, hothers _ t hstep hother⟩

end OttQuic.Auth
