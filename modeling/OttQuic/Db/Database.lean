import OttQuic.Basic
import OttQuic.Lib.CString

/-!
# The database (`database.c`)

The tables of the schema as lists of rows, and each `db_*` function as one atomic statement on them. A
statement gets its fate and its clock reading from outside: one that fails changes nothing. Texts are
C strings without their NUL; `datetime` values are seconds. The tables hold 64-bit ids; where the code keeps one in an
`int` (`sqlite3_column_int`, the cast of `sqlite3_last_insert_rowid`), it is narrowed with `CString.toInt`.

`INSERT` enforces the constraints of the schema: `UNIQUE(username)`, `UNIQUE(session_id)`,
`UNIQUE(user_id, video_id)`, and the foreign keys, which `db_init` switches on.
-/

namespace OttQuic.Db

/-- The result codes the callers tell apart from `SQLITE_OK`. -/
inductive Rc where
  | notFound
  | constraint
  | error
  deriving DecidableEq

/-- `role TEXT NOT NULL DEFAULT 'user' CHECK(role IN ('user','admin'))`. -/
inductive Role where
  | user
  | admin
  deriving DecidableEq

structure UserRow where
  id : Int
  username : Bytes
  nickname : Bytes
  passwordHash : Bytes
  role : Role
  deriving DecidableEq

structure SessionRow where
  userId : Int
  sessionId : Bytes
  expiresAt : Int
  deriving DecidableEq

structure VideoRow where
  id : Int
  title : Bytes
  description : Option Bytes
  filePath : Bytes
  thumbnailPath : Option Bytes
  segmentPath : Option Bytes
  duration : Int
  uploadDate : Int
  deriving DecidableEq

structure WatchRow where
  userId : Int
  videoId : Int
  lastPosition : Int
  updatedAt : Int
  deriving DecidableEq

/-- The tables, with the `AUTOINCREMENT` sequences of `users` and `videos`. -/
structure Database where
  users : List UserRow
  sessions : List SessionRow
  videos : List VideoRow
  watchHistory : List WatchRow
  userSeq : Int
  videoSeq : Int
  /-- The number of rows of `videos` inserted, updated or deleted so far. -/
  videoChanges : Nat
  deriving DecidableEq

/-- How a statement goes: whether it executes, and what `'now'` is. -/
structure Stmt where
  ok : Bool
  now : Int

/-- `copy_column_text` into a field of `size` bytes. -/
def copyColumnText (text : Bytes) (size : Nat) : Bytes := text.take (size - 1)

abbrev dbMaxUsername : Nat := 64
abbrev dbMaxNickname : Nat := 64
abbrev dbMaxTitle : Nat := 128
abbrev dbMaxDescription : Nat := 512
abbrev dbMaxPath : Nat := 260

/-- `db_user_t`. -/
def UserRow.read (row : UserRow) : UserRow :=
  { row with
    id := CString.toInt row.id
    username := copyColumnText row.username dbMaxUsername
    nickname := copyColumnText row.nickname dbMaxNickname
    passwordHash := copyColumnText row.passwordHash dbMaxPath }

/-- `db_session_t`, whose `session_id` has room for 64 characters. -/
def SessionRow.read (row : SessionRow) : SessionRow :=
  { row with
    userId := CString.toInt row.userId
    sessionId := copyColumnText row.sessionId 65 }

/-- `db_video_t`. -/
structure DbVideo where
  id : Int
  title : Bytes
  description : Bytes
  filePath : Bytes
  thumbnailPath : Bytes
  segmentPath : Bytes
  duration : Int
  deriving DecidableEq

def VideoRow.read (row : VideoRow) : DbVideo where
  id := CString.toInt row.id
  title := copyColumnText row.title dbMaxTitle
  description := copyColumnText (row.description.getD []) dbMaxDescription
  filePath := copyColumnText row.filePath dbMaxPath
  thumbnailPath := copyColumnText (row.thumbnailPath.getD []) dbMaxPath
  segmentPath := copyColumnText (row.segmentPath.getD []) dbMaxPath
  duration := CString.toInt row.duration

variable (db : Database) (stmt : Stmt)

/-- A `SELECT` outside `database.c`. -/
def dbSelect {α : Type} (result : α) : Except Rc α := if stmt.ok then .ok result else .error .error

/-! ### Users -/

def dbGetUserById (userId : Int) : Except Rc UserRow :=
  if stmt.ok then
    match db.users.find? fun row => row.id = userId with
    | some row => .ok row.read
    | none => .error .notFound
  else .error .error

def dbGetUserByUsername (username : Bytes) : Except Rc UserRow :=
  if stmt.ok then
    match db.users.find? fun row => row.username = username with
    | some row => .ok row.read
    | none => .error .notFound
  else .error .error

/-- `INSERT INTO users`, with the new row's id as an `int`. -/
def dbCreateUser (username nickname passwordHash : Bytes) (role : Role) : Except Rc (Int × Database) :=
  if stmt.ok then
    if db.users.any fun row => row.username = username then .error .constraint
    else
      let id := db.userSeq + 1
      .ok (CString.toInt id,
        { db with users := db.users ++ [⟨id, username, nickname, passwordHash, role⟩], userSeq := id })
  else .error .error

/-! ### Sessions -/

/-- The row with this id, if it has not expired. -/
def dbGetSession (sessionId : Bytes) : Except Rc SessionRow :=
  if stmt.ok then
    match db.sessions.find? fun row => row.sessionId = sessionId ∧ row.expiresAt > stmt.now with
    | some row => .ok row.read
    | none => .error .notFound
  else .error .error

/-- `UNIQUE(session_id)` and the foreign key `user_id` allow the row. -/
def Database.AcceptsSession (userId : Int) (sessionId : Bytes) : Prop :=
  (∀ row ∈ db.sessions, row.sessionId ≠ sessionId) ∧ ∃ row ∈ db.users, row.id = userId

instance (userId : Int) (sessionId : Bytes) : Decidable (db.AcceptsSession userId sessionId) := by
  unfold Database.AcceptsSession
  infer_instance

def dbCreateSession (userId : Int) (sessionId : Bytes) (ttlSeconds : Int) : Except Rc Database :=
  if stmt.ok then
    -- `datetime('now', '+-5 seconds')` is NULL, and `expires_at` is `NOT NULL`
    if 0 ≤ ttlSeconds ∧ db.AcceptsSession userId sessionId then
      .ok { db with sessions := db.sessions ++ [⟨userId, sessionId, stmt.now + ttlSeconds⟩] }
    else .error .constraint
  else .error .error

def dbDeleteSession (sessionId : Bytes) : Except Rc Database :=
  if stmt.ok then .ok { db with sessions := db.sessions.filter fun row => row.sessionId ≠ sessionId }
  else .error .error

def dbDeleteExpiredSessions : Except Rc Database :=
  if stmt.ok then .ok { db with sessions := db.sessions.filter fun row => row.expiresAt > stmt.now }
  else .error .error

/-! ### Videos -/

/-- `INSERT INTO videos`, with the new row's id as an `int`. -/
def dbCreateVideo (title : Bytes) (description : Option Bytes) (filePath : Bytes)
    (thumbnailPath segmentPath : Option Bytes) (duration : Int) : Except Rc (Int × Database) :=
  if stmt.ok then
    let id := db.videoSeq + 1
    .ok (CString.toInt id, { db with
      videos := db.videos ++
        [⟨id, title, description, filePath, thumbnailPath, segmentPath, duration, stmt.now⟩]
      videoSeq := id
      videoChanges := db.videoChanges + 1 })
  else .error .error

def dbGetVideoById (videoId : Int) : Except Rc DbVideo :=
  if stmt.ok then
    match db.videos.find? fun row => row.id = videoId with
    | some row => .ok row.read
    | none => .error .notFound
  else .error .error

/-- `DELETE FROM videos`; the watch history of the video goes with it. -/
def dbDeleteVideoById (videoId : Int) : Except Rc Database :=
  if stmt.ok then
    .ok { db with
      videos := db.videos.filter fun row => row.id ≠ videoId
      watchHistory := db.watchHistory.filter fun row => row.videoId ≠ videoId
      videoChanges := db.videoChanges + db.videos.countP fun row => row.id = videoId }
  else .error .error

/-- `UPDATE videos ... WHERE id = ?`. -/
def Database.updateVideo (videoId : Int) (f : VideoRow → VideoRow) : Database :=
  { db with
    videos := db.videos.map fun row => if row.id = videoId then f row else row
    videoChanges := db.videoChanges + db.videos.countP fun row => row.id = videoId }

def dbUpdateVideoSegmentPath (videoId : Int) (segmentPath : Bytes) : Except Rc Database :=
  if stmt.ok then .ok (db.updateVideo videoId fun row => { row with segmentPath := some segmentPath })
  else .error .error

def dbUpdateVideoMetadata (videoId : Int) (title description : Bytes) : Except Rc Database :=
  if stmt.ok then
    .ok (db.updateVideo videoId fun row => { row with title := title, description := some description })
  else .error .error

/-! ### Watch history -/

def dbUpsertWatchHistory (userId videoId lastPosition : Int) : Except Rc Database :=
  if stmt.ok then
    if db.watchHistory.any fun row => row.userId = userId ∧ row.videoId = videoId then
      .ok { db with
        watchHistory := db.watchHistory.map fun row =>
          if row.userId = userId ∧ row.videoId = videoId then
            { row with lastPosition := lastPosition, updatedAt := stmt.now }
          else row }
    else if (db.users.any fun row => row.id = userId) ∧ db.videos.any fun row => row.id = videoId then
      .ok { db with watchHistory := db.watchHistory ++ [⟨userId, videoId, lastPosition, stmt.now⟩] }
    else .error .constraint
  else .error .error

def dbGetWatchHistory (userId videoId : Int) : Except Rc WatchRow :=
  if stmt.ok then
    match db.watchHistory.find? fun row => row.userId = userId ∧ row.videoId = videoId with
    | some row => .ok row
    | none => .error .notFound
  else .error .error

variable {db stmt}

/-! ### What the statements do -/

theorem dbGetUserById_ok {userId : Int} {user : UserRow} (h : dbGetUserById db stmt userId = .ok user) :
    ∃ row ∈ db.users, row.id = userId ∧ row.role = user.role := by
  unfold dbGetUserById at h
  split at h
  · split at h
    · rename_i row hfind
      obtain rfl := Except.ok.inj h
      exact ⟨row, List.mem_of_find?_eq_some hfind, by simpa using List.find?_some hfind, rfl⟩
    · cases h
  · cases h

theorem dbCreateUser_ok {username nickname passwordHash : Bytes} {role : Role} {id : Int} {db' : Database}
    (h : dbCreateUser db stmt username nickname passwordHash role = .ok (id, db')) :
    id = CString.toInt (db.userSeq + 1) ∧
      db' = { db with
        users := db.users ++ [⟨db.userSeq + 1, username, nickname, passwordHash, role⟩]
        userSeq := db.userSeq + 1 } := by
  unfold dbCreateUser at h
  split at h
  · split at h
    · cases h
    · cases h
      exact ⟨rfl, rfl⟩
  · cases h

theorem dbGetSession_ok {sessionId : Bytes} {session : SessionRow}
    (h : dbGetSession db stmt sessionId = .ok session) :
    ∃ row ∈ db.sessions, row.sessionId = sessionId ∧ stmt.now < row.expiresAt ∧
      session.userId = CString.toInt row.userId := by
  unfold dbGetSession at h
  split at h
  · split at h
    · rename_i found hfind
      obtain rfl := Except.ok.inj h
      have hrow := List.find?_some hfind
      simp only [gt_iff_lt, decide_eq_true_eq] at hrow
      exact ⟨found, List.mem_of_find?_eq_some hfind, hrow.1, hrow.2, rfl⟩
    · cases h
  · cases h

theorem dbCreateSession_ok {userId ttlSeconds : Int} {sessionId : Bytes} {db' : Database}
    (h : dbCreateSession db stmt userId sessionId ttlSeconds = .ok db') :
    stmt.ok = true ∧ db.AcceptsSession userId sessionId ∧
      db' = { db with sessions := db.sessions ++ [⟨userId, sessionId, stmt.now + ttlSeconds⟩] } := by
  unfold dbCreateSession at h
  split at h
  · rename_i hok
    split at h
    · rename_i haccepts
      exact ⟨hok, haccepts.2, (Except.ok.inj h).symm⟩
    · cases h
  · cases h

theorem dbCreateSession_ttl {userId ttlSeconds : Int} {sessionId : Bytes} {db' : Database}
    (h : dbCreateSession db stmt userId sessionId ttlSeconds = .ok db') : 0 ≤ ttlSeconds := by
  unfold dbCreateSession at h
  split_ifs at h with hok haccepts
  exact haccepts.1

theorem dbDeleteSession_ok {sessionId : Bytes} {db' : Database}
    (h : dbDeleteSession db stmt sessionId = .ok db') :
    db' = { db with sessions := db.sessions.filter fun row => row.sessionId ≠ sessionId } := by
  unfold dbDeleteSession at h
  split at h
  · exact (Except.ok.inj h).symm
  · cases h

theorem dbDeleteExpiredSessions_ok {db' : Database} (h : dbDeleteExpiredSessions db stmt = .ok db') :
    db' = { db with sessions := db.sessions.filter fun row => row.expiresAt > stmt.now } := by
  unfold dbDeleteExpiredSessions at h
  split at h
  · exact (Except.ok.inj h).symm
  · cases h

theorem dbCreateVideo_ok {title filePath : Bytes} {description thumbnailPath segmentPath : Option Bytes}
    {duration id : Int} {db' : Database}
    (h : dbCreateVideo db stmt title description filePath thumbnailPath segmentPath duration =
      .ok (id, db')) : stmt.ok = true ∧ db'.videoChanges = db.videoChanges + 1 := by
  unfold dbCreateVideo at h
  split at h
  · rename_i hok
    cases h
    exact ⟨hok, rfl⟩
  · cases h

theorem dbDeleteVideoById_changes {videoId : Int} {db' : Database}
    (h : dbDeleteVideoById db stmt videoId = .ok db') : db.videoChanges ≤ db'.videoChanges := by
  unfold dbDeleteVideoById at h
  split at h
  · cases h
    exact Nat.le_add_right ..
  · cases h

theorem dbUpdateVideoSegmentPath_changes {videoId : Int} {segmentPath : Bytes} {db' : Database}
    (h : dbUpdateVideoSegmentPath db stmt videoId segmentPath = .ok db') :
    db.videoChanges ≤ db'.videoChanges := by
  unfold dbUpdateVideoSegmentPath at h
  split at h
  · cases h
    exact Nat.le_add_right ..
  · cases h

theorem dbUpsertWatchHistory_sessions {db db' : Database} {stmt : Stmt} {userId videoId position : Int}
    (h : dbUpsertWatchHistory db stmt userId videoId position = .ok db') : db'.sessions = db.sessions := by
  unfold dbUpsertWatchHistory at h
  split_ifs at h <;> cases h <;> rfl

theorem dbCreateVideo_row {title filePath : Bytes} {description thumbnailPath segmentPath : Option Bytes}
    {duration id : Int} {db' : Database}
    (h : dbCreateVideo db stmt title description filePath thumbnailPath segmentPath duration =
      .ok (id, db')) :
    id = CString.toInt (db.videoSeq + 1) ∧ db' = { db with
      videos := db.videos ++
        [⟨db.videoSeq + 1, title, description, filePath, thumbnailPath, segmentPath, duration, stmt.now⟩]
      videoSeq := db.videoSeq + 1
      videoChanges := db.videoChanges + 1 } := by
  unfold dbCreateVideo at h
  split at h
  · cases h
    exact ⟨rfl, rfl⟩
  · cases h

theorem dbGetVideoById_ok {videoId : Int} {v : DbVideo} (h : dbGetVideoById db stmt videoId = .ok v) :
    ∃ row ∈ db.videos, row.id = videoId ∧ v = row.read := by
  unfold dbGetVideoById at h
  split at h
  · split at h
    · rename_i row hfind
      exact ⟨row, List.mem_of_find?_eq_some hfind, by simpa using List.find?_some hfind,
        (Except.ok.inj h).symm⟩
    · cases h
  · cases h

theorem dbDeleteVideoById_videos {videoId : Int} {db' : Database}
    (h : dbDeleteVideoById db stmt videoId = .ok db') :
    db'.videos = db.videos.filter (fun row => row.id ≠ videoId) ∧ db'.videoSeq = db.videoSeq := by
  unfold dbDeleteVideoById at h
  split at h
  · cases h
    exact ⟨rfl, rfl⟩
  · cases h

theorem dbDeleteVideoById_error {videoId : Int} {rc : Rc} (h : dbDeleteVideoById db stmt videoId = .error rc) :
    stmt.ok = false := by
  unfold dbDeleteVideoById at h
  split at h
  · cases h
  · simpa using ‹¬ stmt.ok = true›

theorem dbUpdateVideoSegmentPath_ok {videoId : Int} {segmentPath : Bytes} {db' : Database}
    (h : dbUpdateVideoSegmentPath db stmt videoId segmentPath = .ok db') :
    db' = db.updateVideo videoId fun row => { row with segmentPath := some segmentPath } := by
  unfold dbUpdateVideoSegmentPath at h
  split at h
  · exact (Except.ok.inj h).symm
  · cases h

end OttQuic.Db
