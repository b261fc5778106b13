import OttQuic.Db.Database

/-!
# The rows of one session

What the four statements on the `sessions` table do to the rows of one session id. With
`UNIQUE(session_id)` there is at most one (`rowsOf_eq_singleton`); a statement on another id leaves
them alone, but for the deletion of the expired ones.
-/

namespace OttQuic.Db

/-- The rows of the session `sessionId`. -/
def Database.rowsOf (db : Database) (sessionId : Bytes) : List SessionRow :=
  db.sessions.filter fun row => row.sessionId = sessionId

/-- `UNIQUE(session_id)`. -/
def Database.UniqueSessions (db : Database) : Prop := (db.sessions.map SessionRow.sessionId).Nodup

/-- `FOREIGN KEY(user_id) REFERENCES users(id)`. -/
def Database.HasUser (db : Database) (userId : Int) : Prop := ∃ row ∈ db.users, row.id = userId

instance (db : Database) : Decidable db.UniqueSessions := by
  unfold Database.UniqueSessions
  infer_instance

instance (db : Database) (userId : Int) : Decidable (db.HasUser userId) := by
  unfold Database.HasUser
  infer_instance

variable {db db' : Database} {stmt : Stmt} {sessionId other : Bytes} {userId ttlSeconds : Int}
  {row : SessionRow}

theorem mem_rowsOf : row ∈ db.rowsOf sessionId ↔ row ∈ db.sessions ∧ row.sessionId = sessionId := by
  simp [Database.rowsOf]

theorem rowsOf_eq_nil_iff :
    db.rowsOf sessionId = [] ↔ ∀ row ∈ db.sessions, row.sessionId ≠ sessionId := by
  simp [Database.rowsOf]

theorem rowsOf_eq_singleton (hunique : db.UniqueSessions) (hmem : row ∈ db.sessions) :
    db.rowsOf row.sessionId = [row] := by
  unfold Database.UniqueSessions at hunique
  unfold Database.rowsOf
  generalize db.sessions = rows at hunique hmem ⊢
  induction rows with
  | nil => cases hmem
  | cons head rest ih =>
      rw [List.map_cons, List.nodup_cons] at hunique
      obtain ⟨hfresh, hnodup⟩ := hunique
      rcases List.mem_cons.mp hmem with rfl | hrest
      · rw [List.filter_cons_of_pos (by simp), List.filter_eq_nil_iff.mpr]
        intro other hother heq
        have hid : other.sessionId = row.sessionId := by simpa using heq
        exact hfresh (hid ▸ List.mem_map_of_mem hother)
      · have hne : head.sessionId ≠ row.sessionId := by
          intro heq
          exact hfresh (heq ▸ List.mem_map_of_mem hrest)
        rw [List.filter_cons_of_neg (by simpa using hne)]
        exact ih hnodup hrest

/-! ### The lookup -/

theorem dbGetSession_of_rowsOf (hok : stmt.ok = true) (hrows : db.rowsOf sessionId = [row])
    (hexpires : stmt.now < row.expiresAt) : dbGetSession db stmt sessionId = .ok row.read := by
  have hsplit : db.sessions.find? (fun row => row.sessionId = sessionId ∧ row.expiresAt > stmt.now) =
      (db.rowsOf sessionId).find? fun row => row.expiresAt > stmt.now := by
    simp [Database.rowsOf, List.find?_filter]
  have hfind : (db.rowsOf sessionId).find? (fun row => row.expiresAt > stmt.now) = some row := by
    rw [hrows, List.find?_cons_of_pos (by simpa using hexpires)]
  simp only [dbGetSession, hok, if_true, hsplit, hfind]

theorem dbGetSession_of_expired (hrows : ∀ row ∈ db.rowsOf sessionId, row.expiresAt ≤ stmt.now) :
    ∃ rc, dbGetSession db stmt sessionId = .error rc := by
  cases hget : dbGetSession db stmt sessionId with
  | error rc => exact ⟨rc, rfl⟩
  | ok session =>
      obtain ⟨row, hmem, hid, hlt, -⟩ := dbGetSession_ok hget
      have hle := hrows row (mem_rowsOf.mpr ⟨hmem, hid⟩)
      omega

/-! ### The deletions -/

theorem rowsOf_deleteExpired (sessionId : Bytes) (h : dbDeleteExpiredSessions db stmt = .ok db') :
    db'.rowsOf sessionId = (db.rowsOf sessionId).filter (fun row => row.expiresAt > stmt.now) ∧
      db'.users = db.users := by
  rw [dbDeleteExpiredSessions_ok h]
  refine ⟨?_, rfl⟩
  simp only [Database.rowsOf, List.filter_filter]
  exact List.filter_congr fun row _ => Bool.and_comm ..

theorem rowsOf_deleteSession (h : dbDeleteSession db stmt sessionId = .ok db') :
    db'.rowsOf sessionId = [] ∧ db'.users = db.users := by
  rw [dbDeleteSession_ok h]
  simp [Database.rowsOf]

theorem rowsOf_deleteSession_of_ne (hne : other ≠ sessionId)
    (h : dbDeleteSession db stmt other = .ok db') :
    db'.rowsOf sessionId = db.rowsOf sessionId ∧ db'.users = db.users := by
  rw [dbDeleteSession_ok h]
  refine ⟨?_, rfl⟩
  simp only [Database.rowsOf, List.filter_filter]
  refine List.filter_congr fun row _ => ?_
  by_cases hid : row.sessionId = sessionId
  · simp [hid, hne.symm]
  · simp [hid]

/-! ### The insertion -/

theorem acceptsSession_iff :
    db.AcceptsSession userId sessionId ↔ db.rowsOf sessionId = [] ∧ db.HasUser userId := by
  rw [rowsOf_eq_nil_iff]
  rfl

theorem dbCreateSession_of_accepts (hok : stmt.ok = true) (hrows : db.rowsOf sessionId = [])
    (huser : db.HasUser userId) (httl : 0 ≤ ttlSeconds) : dbCreateSession db stmt userId sessionId ttlSeconds =
      .ok { db with sessions := db.sessions ++ [⟨userId, sessionId, stmt.now + ttlSeconds⟩] } := by
  simp only [dbCreateSession, hok, if_true, if_pos (And.intro httl (acceptsSession_iff.mpr ⟨hrows, huser⟩))]

theorem rowsOf_createSession (h : dbCreateSession db stmt userId sessionId ttlSeconds = .ok db') :
    db'.rowsOf sessionId = [⟨userId, sessionId, stmt.now + ttlSeconds⟩] ∧ db'.users = db.users := by
  obtain ⟨-, haccepts, rfl⟩ := dbCreateSession_ok h
  refine ⟨?_, rfl⟩
  have hnone := (acceptsSession_iff.mp haccepts).1
  unfold Database.rowsOf at hnone ⊢
  rw [List.filter_append, hnone]
  simp

theorem rowsOf_createSession_of_ne (hne : other ≠ sessionId)
    (h : dbCreateSession db stmt userId other ttlSeconds = .ok db') :
    db'.rowsOf sessionId = db.rowsOf sessionId ∧ db'.users = db.users := by
  obtain ⟨-, -, rfl⟩ := dbCreateSession_ok h
  simp [Database.rowsOf, hne]

end OttQuic.Db
