import OttQuic.Auth.Session
import OttQuic.Db.Sessions

/-!
# One extension (`session_validate_and_extend`)

What a call that nothing interrupts returns and leaves, from the row it reads and the fates of its four statements.
The id of the user goes through an `int` between the row that is read and the one that is inserted.
-/

namespace OttQuic.Auth

open CString Db

/-- The row that is read can be inserted again, for the user whose id was read. -/
def Reinserts (conn : Conn) (row : SessionRow) (ttlSeconds : Int) : Prop :=
  conn.fates (conn.executed + 3) = true ∧ conn.db.HasUser (toInt row.userId) ∧ 0 ≤ ttlSeconds

/-- The table when the expired sessions are deleted. -/
def purged (conn : Conn) : Database :=
  { conn.db with sessions := conn.db.sessions.filter fun row => row.expiresAt > conn.now }

variable {conn : Conn} {sessionId : Bytes} {ttlSeconds : Int}

/-! ### One statement -/

theorem dbGetSession_eq (hfate : conn.fates conn.executed = true) {row : SessionRow}
    (hfind : conn.db.sessions.find? (fun row => row.sessionId = sessionId ∧ row.expiresAt > conn.now) = some row) :
    dbGetSession conn.db conn.stmt sessionId = .ok row.read := by
  simp only [dbGetSession, Conn.stmt, hfate, if_true, hfind]

theorem dbGetSession_fate {session : SessionRow} (h : dbGetSession conn.db conn.stmt sessionId = .ok session) :
    conn.fates conn.executed = true ∧ ∃ row, session = row.read ∧
      conn.db.sessions.find? (fun row => row.sessionId = sessionId ∧ row.expiresAt > conn.now) = some row := by
  unfold dbGetSession Conn.stmt at h
  split at h
  · rename_i hfate
    split at h
    · rename_i found hfind
      exact ⟨hfate, found, (Except.ok.inj h).symm, hfind⟩
    · cases h
  · cases h

theorem exec_ok {f : Database → Stmt → Except Rc Database} {db' : Database} (hfate : conn.fates conn.executed = true)
    (h : f conn.db ⟨true, conn.now⟩ = .ok db') : conn.exec f = (true, conn.next db') := by
  rw [Conn.exec, Conn.stmt, hfate, h]

theorem exec_error {f : Database → Stmt → Except Rc Database} (h : ∃ rc, f conn.db conn.stmt = .error rc) :
    conn.exec f = (false, conn.next conn.db) := by
  obtain ⟨rc, h⟩ := h
  rw [Conn.exec, h]

/-- An `INSERT` that does not execute: the statement fails, the id is taken, there is no such user or no expiry. -/
theorem dbCreateSession_error_iff {db : Database} {stmt : Stmt} {userId : Int} :
    (∃ rc, dbCreateSession db stmt userId sessionId ttlSeconds = .error rc) ↔
      ¬ (stmt.ok = true ∧ db.rowsOf sessionId = [] ∧ db.HasUser userId ∧ 0 ≤ ttlSeconds) := by
  constructor
  · rintro ⟨rc, h⟩ ⟨hok, hrows, huser, httl⟩
    rw [dbCreateSession_of_accepts hok hrows huser httl] at h
    cases h
  · intro h
    cases hcreate : dbCreateSession db stmt userId sessionId ttlSeconds with
    | error rc => exact ⟨rc, rfl⟩
    | ok db' =>
        obtain ⟨hok, haccepts, -⟩ := dbCreateSession_ok hcreate
        obtain ⟨hrows, huser⟩ := acceptsSession_iff.mp haccepts
        exact absurd ⟨hok, hrows, huser, dbCreateSession_ttl hcreate⟩ h

theorem find?_unexpired {row : SessionRow}
    (hfind : conn.db.sessions.find? (fun row => row.sessionId = sessionId ∧ row.expiresAt > conn.now) = some row) :
    row ∈ conn.db.sessions ∧ row.sessionId = sessionId ∧ conn.now < row.expiresAt := by
  have hrow := List.find?_some hfind
  simp only [Bool.decide_and, Bool.and_eq_true, decide_eq_true_eq] at hrow
  exact ⟨List.mem_of_find?_eq_some hfind, hrow⟩

/-! ### The call -/

section

variable {row : SessionRow} (hfate : conn.fates conn.executed = true)
  (hfind : conn.db.sessions.find? (fun row => row.sessionId = sessionId ∧ row.expiresAt > conn.now) = some row)

include hfate hfind

theorem sessionValidateAndExtend_notPurged (hpurge : conn.fates (conn.executed + 1) = false) :
    sessionValidateAndExtend conn sessionId ttlSeconds = (none, (conn.next conn.db).next conn.db) := by
  have hexec : (conn.next conn.db).exec dbDeleteExpiredSessions = (false, (conn.next conn.db).next conn.db) := by
    apply exec_error
    have hok : (conn.next conn.db).stmt.ok = false := hpurge
    exact ⟨.error, by rw [dbDeleteExpiredSessions, hok]; rfl⟩
  rw [sessionValidateAndExtend, Conn.query, dbGetSession_eq hfate hfind]
  dsimp only
  rw [hexec]

theorem sessionValidateAndExtend_purged (hpurge : conn.fates (conn.executed + 1) = true) {deleted created : Bool}
    {conn₂ conn₃ : Conn}
    (hdelete : ((conn.next conn.db).next (purged conn)).exec (fun db stmt => dbDeleteSession db stmt sessionId) =
      (deleted, conn₂))
    (hcreate : conn₂.exec (fun db stmt => dbCreateSession db stmt (toInt row.userId) sessionId ttlSeconds) =
      (created, conn₃)) :
    sessionValidateAndExtend conn sessionId ttlSeconds =
      (if created then some (toInt row.userId) else none, conn₃) := by
  have hexec : (conn.next conn.db).exec dbDeleteExpiredSessions = (true, (conn.next conn.db).next (purged conn)) :=
    exec_ok hpurge rfl
  simp only [sessionValidateAndExtend, Conn.query, dbGetSession_eq hfate hfind, hexec, hdelete, SessionRow.read, hcreate]
  cases created with
  | false => rfl
  | true => rfl

theorem sessionValidateAndExtend_notDeleted (hpurge : conn.fates (conn.executed + 1) = true)
    (hdelete : conn.fates (conn.executed + 2) = false) :
    (sessionValidateAndExtend conn sessionId ttlSeconds).1 = none ∧
      (sessionValidateAndExtend conn sessionId ttlSeconds).2.db = purged conn := by
  have hexec : ((conn.next conn.db).next (purged conn)).exec (fun db stmt => dbDeleteSession db stmt sessionId) =
      (false, ((conn.next conn.db).next (purged conn)).next (purged conn)) := by
    apply exec_error
    have hok : ((conn.next conn.db).next (purged conn)).stmt.ok = false := hdelete
    exact ⟨.error, by rw [dbDeleteSession, hok]; rfl⟩
  obtain ⟨hmem, hid, hexpires⟩ := find?_unexpired hfind
  have hthere : row ∈ (purged conn).rowsOf sessionId :=
    mem_rowsOf.mpr ⟨List.mem_filter.mpr ⟨hmem, decide_eq_true hexpires⟩, hid⟩
  have hcreate : (((conn.next conn.db).next (purged conn)).next (purged conn)).exec
      (fun db stmt => dbCreateSession db stmt (toInt row.userId) sessionId ttlSeconds) =
      (false, (((conn.next conn.db).next (purged conn)).next (purged conn)).next (purged conn)) := by
    refine exec_error (dbCreateSession_error_iff.mpr ?_)
    rintro ⟨-, hnone, -⟩
    exact List.ne_nil_of_mem hthere hnone
  rw [sessionValidateAndExtend_purged hfate hfind hpurge hexec hcreate]
  exact ⟨rfl, rfl⟩

theorem sessionValidateAndExtend_deleted (hpurge : conn.fates (conn.executed + 1) = true)
    (hdelete : conn.fates (conn.executed + 2) = true) :
    ∃ db₂, db₂.rowsOf sessionId = [] ∧ db₂.users = conn.db.users ∧ ∀ created conn₃,
      (((conn.next conn.db).next (purged conn)).next db₂).exec
          (fun db stmt => dbCreateSession db stmt (toInt row.userId) sessionId ttlSeconds) = (created, conn₃) →
        sessionValidateAndExtend conn sessionId ttlSeconds =
          (if created then some (toInt row.userId) else none, conn₃) := by
  obtain ⟨db₂, hdeleted⟩ : ∃ db₂, dbDeleteSession (purged conn) ⟨true, conn.now⟩ sessionId = .ok db₂ := ⟨_, rfl⟩
  have hexec : ((conn.next conn.db).next (purged conn)).exec (fun db stmt => dbDeleteSession db stmt sessionId) =
      (true, ((conn.next conn.db).next (purged conn)).next db₂) := exec_ok hdelete hdeleted
  obtain ⟨hempty, husers⟩ := rowsOf_deleteSession hdeleted
  exact ⟨db₂, hempty, husers, fun created conn₃ hcreate =>
    sessionValidateAndExtend_purged hfate hfind hpurge hexec hcreate⟩

theorem sessionValidateAndExtend_inserted (hpurge : conn.fates (conn.executed + 1) = true)
    (hdelete : conn.fates (conn.executed + 2) = true) (hinsert : Reinserts conn row ttlSeconds) :
    ∃ conn', sessionValidateAndExtend conn sessionId ttlSeconds = (some (toInt row.userId), conn') ∧
      conn.Later conn' 4 ∧ conn'.db.users = conn.db.users := by
  obtain ⟨db₂, hempty, husers, hcall⟩ := sessionValidateAndExtend_deleted hfate hfind hpurge hdelete
  have huser : db₂.HasUser (toInt row.userId) := by rw [Database.HasUser, husers]; exact hinsert.2.1
  rw [hcall _ _ (exec_ok hinsert.1 (dbCreateSession_of_accepts rfl hempty huser hinsert.2.2))]
  exact ⟨_, rfl, ⟨rfl, rfl, rfl⟩, husers⟩

theorem sessionValidateAndExtend_lost (hpurge : conn.fates (conn.executed + 1) = true)
    (hdelete : conn.fates (conn.executed + 2) = true) (hinsert : ¬ Reinserts conn row ttlSeconds) :
    (sessionValidateAndExtend conn sessionId ttlSeconds).1 = none ∧
      row ∉ (sessionValidateAndExtend conn sessionId ttlSeconds).2.db.sessions := by
  obtain ⟨db₂, hempty, husers, hcall⟩ := sessionValidateAndExtend_deleted hfate hfind hpurge hdelete
  have herror : ∃ rc, dbCreateSession db₂ (((conn.next conn.db).next (purged conn)).next db₂).stmt (toInt row.userId)
      sessionId ttlSeconds = .error rc := by
    refine dbCreateSession_error_iff.mpr fun ⟨hfate', _, huser, httl⟩ => hinsert ⟨hfate', ?_, httl⟩
    rwa [Database.HasUser, husers] at huser
  rw [hcall _ _ (exec_error herror)]
  exact ⟨rfl, fun hmem => rowsOf_eq_nil_iff.mp hempty row hmem (find?_unexpired hfind).2.1⟩

end

/-- **When an extension succeeds, for whom, and what it leaves.** -/
theorem sessionValidateAndExtend_some {userId : Int} {conn' : Conn}
    (h : sessionValidateAndExtend conn sessionId ttlSeconds = (some userId, conn')) :
    (∀ n < 4, conn.fates (conn.executed + n) = true) ∧
      (∃ row, conn.db.sessions.find? (fun row => row.sessionId = sessionId ∧ row.expiresAt > conn.now) = some row ∧
        toInt row.userId = userId ∧ Reinserts conn row ttlSeconds) ∧
      conn.Later conn' 4 ∧ conn'.db.users = conn.db.users := by
  cases hget : dbGetSession conn.db conn.stmt sessionId with
  | error rc =>
      rw [sessionValidateAndExtend, Conn.query, hget] at h
      cases h
  | ok session =>
  obtain ⟨hfate, row, -, hfind⟩ := dbGetSession_fate hget
  cases hpurge : conn.fates (conn.executed + 1) with
  | false =>
      rw [sessionValidateAndExtend_notPurged hfate hfind hpurge] at h
      cases h
  | true =>
  cases hdelete : conn.fates (conn.executed + 2) with
  | false =>
      have hnone : (sessionValidateAndExtend conn sessionId ttlSeconds).1 = none :=
        (sessionValidateAndExtend_notDeleted hfate hfind hpurge hdelete).1
      rw [h] at hnone
      cases hnone
  | true =>
      by_cases hinsert : Reinserts conn row ttlSeconds
      · obtain ⟨conn₄, hcall, hlater, husers⟩ := sessionValidateAndExtend_inserted hfate hfind hpurge hdelete hinsert
        rw [h] at hcall
        cases hcall
        refine ⟨fun n hn => ?_, ⟨row, hfind, rfl, hinsert⟩, hlater, husers⟩
        obtain rfl | rfl | rfl | rfl : n = 0 ∨ n = 1 ∨ n = 2 ∨ n = 3 := by omega
        · exact hfate
        · exact hpurge
        · exact hdelete
        · exact hinsert.1
      · have hnone : (sessionValidateAndExtend conn sessionId ttlSeconds).1 = none :=
          (sessionValidateAndExtend_lost hfate hfind hpurge hdelete hinsert).1
        rw [h] at hnone
        cases hnone

end OttQuic.Auth
