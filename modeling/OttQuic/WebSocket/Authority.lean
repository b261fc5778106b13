import OttQuic.Auth.Lease
import OttQuic.Auth.Logout
import OttQuic.WebSocket.HandleClient

/-!
# The authority of a WebSocket connection

`websocket_handle_client` validates the session of the upgrade request once and keeps the user it found;
`handle_text_frame` reads and writes the watch history of that user for as long as the connection lives.
Meanwhile other requests validate, log in and log out, and time passes.

`Authority` is the connection among the other requests, statement by statement. A `watch_get` or
`watch_update` touches the history of a user if what it sends or what it leaves behind depends on the rows of
that user (`Touches`). The connection acts under its session exactly when, at every step that touches a
history, the last statement of the run that wrote the session inserted it, for the user touched and less than
`SESSION_TTL_SECONDS` ago (`websocket_authority_iff`).
-/

namespace OttQuic.WebSocket

open Auth CString Db Transition

/-! ### The rows of a user -/

/-- What `watch_history` has for a user. -/
def historyOf (db : Database) (userId : Int) : List WatchRow :=
  db.watchHistory.filter fun row => row.userId = userId

/-- The same database, but for the watch history of a user. -/
def SameBut (userId : Int) (db db' : Database) : Prop :=
  ∃ rows, db' = { db with watchHistory := rows } ∧
    rows.filter (fun row => row.userId ≠ userId) = db.watchHistory.filter fun row => row.userId ≠ userId

section

variable {db db' : Database} {stmt : Stmt} {user userId videoId position : Int}

theorem SameBut.refl : SameBut userId db db := ⟨db.watchHistory, rfl, rfl⟩

theorem SameBut.find? (h : SameBut userId db db') (hne : user ≠ userId) :
    (db'.watchHistory.find? fun row => row.userId = user ∧ row.videoId = videoId) =
      db.watchHistory.find? fun row => row.userId = user ∧ row.videoId = videoId := by
  obtain ⟨rows, rfl, hrows⟩ := h
  have hfind (l : List WatchRow) : (l.find? fun row => row.userId = user ∧ row.videoId = videoId) =
      (l.filter fun row => row.userId ≠ userId).find? fun row => row.userId = user ∧ row.videoId = videoId := by
    rw [List.find?_filter]
    congr 1
    funext row
    by_cases huser : row.userId = user
    · simp [huser, hne]
    · simp [huser]
  rw [hfind db.watchHistory, ← hrows]
  exact hfind rows

theorem dbGetWatchHistory_sameBut (h : SameBut userId db db') (hne : user ≠ userId) :
    dbGetWatchHistory db' stmt user videoId = dbGetWatchHistory db stmt user videoId := by
  rw [dbGetWatchHistory, dbGetWatchHistory, h.find? hne]

theorem exec_upsert (conn : Conn) :
    (conn.exec fun db stmt => dbUpsertWatchHistory db stmt user videoId position).1 =
      (conn.stmt.ok &&
        ((conn.db.watchHistory.find? fun row => row.userId = user ∧ row.videoId = videoId).isSome ||
          (conn.db.users.any fun row => row.id = user) && conn.db.videos.any fun row => row.id = videoId)) := by
  unfold Conn.exec dbUpsertWatchHistory
  dsimp only
  rw [List.isSome_find?]
  split_ifs with hok hfound hrefs
  · rw [hok, hfound]
    rfl
  · rw [hok, hrefs.1, hrefs.2, Bool.and_self, Bool.or_true]
    rfl
  · rw [Bool.eq_false_iff.mpr hfound, Bool.false_or, Bool.eq_false_iff.mpr (mt Bool.and_eq_true_iff.mp hrefs),
      Bool.and_false]
  · rw [Bool.eq_false_iff.mpr hok, Bool.false_and]

theorem exec_upsert_sameBut {conn : Conn} (h : SameBut userId db db') (hne : user ≠ userId) :
    (Conn.exec { conn with db := db' } fun db stmt => dbUpsertWatchHistory db stmt user videoId position).1 =
      (Conn.exec { conn with db := db } fun db stmt => dbUpsertWatchHistory db stmt user videoId position).1 := by
  rw [exec_upsert, exec_upsert]
  dsimp only
  rw [h.find? hne]
  obtain ⟨rows, rfl, -⟩ := h
  rfl

theorem historyOf_upsert (h : dbUpsertWatchHistory db stmt user videoId position = .ok db')
    (hne : user ≠ userId) : historyOf db' userId = historyOf db userId := by
  unfold dbUpsertWatchHistory at h
  split_ifs at h
  · cases h
    unfold historyOf
    induction db.watchHistory with
    | nil => rfl
    | cons row rows ih =>
        rw [List.map_cons, List.filter_cons, List.filter_cons, ih]
        by_cases hrow : row.userId = user ∧ row.videoId = videoId
        · simp [hrow, hne]
        · simp [hrow]
  · cases h
    simp [historyOf, hne]

end

/-! ### The statement of a text frame -/

section

/-- The database after a command: its only statement reads, or it is the `watch_update` of this user. -/
def CommandEffect (env : TextEnv) (cmd : WsCommand) (userId : Int) (conn conn' : Conn) : Prop :=
  conn' = conn ∨ conn' = conn.next conn.db ∨
    ∃ db', cmd.type = .watchUpdate ∧ env.db = true ∧ 0 < userId ∧ conn' = conn.next db' ∧
      dbUpsertWatchHistory conn.db conn.stmt userId cmd.videoId cmd.position = .ok db'

variable (env : TextEnv) (io : WsIo) (frame : WsFrame) (cmd : WsCommand) (userId : Int) (conn : Conn)

theorem commandReply_effect :
    CommandEffect env cmd userId conn (commandReply env cmd userId conn).2 := by
  unfold commandReply
  cases htype : cmd.type with
  | listVideos =>
      simp only [listVideosReply, Conn.query]
      split_ifs
      · exact .inl rfl
      · cases dbSelect conn.stmt conn.db.videos <;> exact .inr (.inl rfl)
  | listContinue =>
      simp only [listContinueReply, Conn.query]
      split_ifs
      · exact .inl rfl
      · exact .inl rfl
      · cases dbSelect conn.stmt (conn.db.watchHistory, conn.db.videos) <;> exact .inr (.inl rfl)
  | videoDetail =>
      simp only [videoDetailReply, Conn.query]
      split_ifs
      · exact .inl rfl
      · cases dbSelect conn.stmt (conn.db.videos.find? fun row => row.id = cmd.videoId) with
        | error rc => exact .inr (.inl rfl)
        | ok row => cases row <;> exact .inr (.inl rfl)
  | streamStart =>
      simp only [streamStartReply, Conn.query]
      split_ifs
      · exact .inl rfl
      · cases dbGetVideoById conn.db conn.stmt cmd.videoId with
        | error rc => exact .inr (.inl rfl)
        | ok video =>
            simp only
            split <;> exact .inr (.inl rfl)
  | streamChunk =>
      simp only [streamChunkReply, Conn.query]
      split_ifs
      · exact .inl rfl
      · cases dbGetVideoById conn.db conn.stmt cmd.videoId with
        | error rc => exact .inr (.inl rfl)
        | ok video =>
            simp only
            split <;> exact .inr (.inl rfl)
  | watchGet =>
      simp only [watchGetReply, Conn.query]
      split_ifs
      · exact .inl rfl
      · exact .inl rfl
      · cases dbGetWatchHistory conn.db conn.stmt userId cmd.videoId <;> exact .inr (.inl rfl)
  | watchUpdate =>
      simp only [watchUpdateReply, Conn.exec]
      split_ifs with hdb huser
      · exact .inl rfl
      · exact .inl rfl
      · cases hupsert : dbUpsertWatchHistory conn.db conn.stmt userId cmd.videoId cmd.position with
        | error rc => exact .inr (.inl rfl)
        | ok db' =>
            exact .inr (.inr ⟨db', htype, by simpa using hdb, by omega, rfl, hupsert⟩)
  | _ => exact .inl rfl

theorem wsInitReply_conn :
    (wsInitReply env cmd conn).2 = conn ∨ (wsInitReply env cmd conn).2 = conn.next conn.db := by
  unfold wsInitReply
  split
  · exact .inl rfl
  · simp only [Conn.query]
    split
    · exact .inl rfl
    · cases dbGetVideoById conn.db conn.stmt cmd.videoId <;> exact .inr rfl

theorem handleWsInit_conn :
    (handleWsInit env io cmd conn).2.2 = conn ∨ (handleWsInit env io cmd conn).2.2 = conn.next conn.db := by
  unfold handleWsInit
  simp only
  split
  · exact .inl rfl
  · exact wsInitReply_conn env cmd conn

/-- **A text frame executes at most one statement**, and it writes the watch history of its user only. -/
theorem handleTextFrame_effect :
    let conn' := (handleTextFrame env io frame userId).2.2
    conn' = env.conn ∨ conn' = env.conn.next env.conn.db ∨
      ∃ db' videoId position, 0 < userId ∧ conn' = env.conn.next db' ∧
        dbUpsertWatchHistory env.conn.db env.conn.stmt userId videoId position = .ok db' := by
  unfold handleTextFrame
  simp only
  split_ifs with hempty hmalloc
  · exact .inl rfl
  · exact .inl rfl
  cases hparse : parseCommand (ofMemory frame.payload) with
  | none => exact .inl rfl
  | some cmd =>
      simp only
      split_ifs
      · exact (handleWsInit_conn env io cmd env.conn).imp_right .inl
      · exact .inl rfl
      · rcases commandReply_effect env cmd userId env.conn with h | h | ⟨db', -, -, huser, h, hupsert⟩
        · exact .inl h
        · exact .inr (.inl h)
        · exact .inr (.inr ⟨db', cmd.videoId, cmd.position, huser, h, hupsert⟩)

theorem handleTextFrame_sessions :
    (handleTextFrame env io frame userId).2.2.db.sessions = env.conn.db.sessions := by
  rcases handleTextFrame_effect env io frame userId with h | h | ⟨db', videoId, position, -, h, hupsert⟩
  · rw [h]
  · rw [h, Conn.next_db]
  · rw [h, Conn.next_db, dbUpsertWatchHistory_sessions hupsert]

/-- The same circumstances on other tables. -/
def TextEnv.on (env : TextEnv) (db : Database) : TextEnv := { env with conn := { env.conn with db := db } }

theorem commandReply_sameBut {db db' : Database} {user : Int}
    (htype : cmd.type = .watchGet ∨ cmd.type = .watchUpdate) (h : SameBut user db db')
    (hother : userId ≤ 0 ∨ userId ≠ user) :
    (commandReply (env.on db') cmd userId (env.on db').conn).1 =
      (commandReply (env.on db) cmd userId (env.on db).conn).1 := by
  unfold commandReply TextEnv.on
  rcases htype with htype | htype
  · rw [htype]
    simp only [watchGetReply, Conn.query]
    split_ifs with hdb huser
    · rfl
    · rfl
    · rw [dbGetWatchHistory_sameBut h (hother.resolve_left huser)]
      simp only [Conn.stmt]
      cases dbGetWatchHistory db ⟨env.conn.fates env.conn.executed, env.conn.now⟩ userId cmd.videoId <;> rfl
  · rw [htype]
    simp only [watchUpdateReply]
    split_ifs with hdb huser
    · rfl
    · rfl
    · have hexec : (Conn.exec { env.conn with db := db' } fun db stmt =>
          dbUpsertWatchHistory db stmt userId cmd.videoId cmd.position).1 = (Conn.exec { env.conn with db := db }
            fun db stmt => dbUpsertWatchHistory db stmt userId cmd.videoId cmd.position).1 :=
        exec_upsert_sameBut h (hother.resolve_left huser)
      generalize Conn.exec { env.conn with db := db' } _ = after' at hexec ⊢
      generalize Conn.exec { env.conn with db := db } _ = after at hexec ⊢
      obtain ⟨ok', conn'⟩ := after'
      obtain ⟨ok, conn⟩ := after
      obtain rfl : ok' = ok := hexec
      cases ok' <;> rfl

theorem handleTextFrame_sameBut {db db' : Database} {user : Int}
    (hparse : parseCommand (ofMemory frame.payload) = some cmd)
    (htype : cmd.type = .watchGet ∨ cmd.type = .watchUpdate) (h : SameBut user db db')
    (hother : userId ≤ 0 ∨ userId ≠ user) :
    (handleTextFrame (env.on db') io frame userId).2.1 = (handleTextFrame (env.on db) io frame userId).2.1 := by
  have hplain : cmd.type ≠ .wsInit ∧ cmd.type ≠ .wsSegment := by
    rcases htype with htype | htype <;> rw [htype] <;> decide
  have hmalloc (db : Database) : (env.on db).malloc = env.malloc := rfl
  simp only [handleTextFrame, hparse, hmalloc, if_neg hplain.1, if_neg hplain.2,
    commandReply_sameBut env cmd userId htype h hother]
  split_ifs
  · rfl
  · rfl
  · rfl

theorem historyOf_handleTextFrame {user : Int} (hother : userId ≤ 0 ∨ userId ≠ user) :
    historyOf (handleTextFrame env io frame userId).2.2.db user = historyOf env.conn.db user := by
  rcases handleTextFrame_effect env io frame userId with h | h | ⟨db', videoId, position, huser, h, hupsert⟩
  · rw [h]
  · rw [h, Conn.next_db]
  · rw [h, Conn.next_db, historyOf_upsert hupsert (hother.resolve_left (Int.not_le.mpr huser))]

end

/-! ### The connection among other requests -/

structure Authority where
  db : Database
  now : Int
  /-- The `session_validate_and_extend` of the upgrade. -/
  upgrade : Validate
  /-- Those of other requests. -/
  calls : Nat → Validate

/-- `current_user_id`. -/
def Authority.userId (s : Authority) : Int :=
  match s.upgrade with
  | .returned (some userId) => userId
  | _ => 0

inductive AuthorityEvent where
  | clock (seconds : Nat)
  /-- The next statement of the upgrade. -/
  | upgrade (ok : Bool)
  /-- Another request starts to validate its session. -/
  | start (i : Nat)
  | validate (i : Nat) (ok : Bool)
  /-- The `INSERT` of a login or signup. -/
  | login (userId : Int) (sessionId : Bytes) (ok : Bool)
  | logout (sessionId : Bytes) (ok : Bool)
  /-- A statement of another request outside the `sessions` table. -/
  | other (db : Database)
  /-- The connection answers a text frame. -/
  | frame (env : TextEnv) (io : WsIo) (frame : WsFrame)

/-- What a statement does to the session of the connection. -/
inductive SessionWrite where
  | inserted (userId : Int)
  | deleted
  | unchanged
  deriving DecidableEq

/-- The lease of the session after it. -/
def SessionWrite.lease (now : Int) (lease : Option Lease) : SessionWrite → Option Lease
  | .inserted userId => some ⟨userId, now⟩
  | .deleted => none
  | .unchanged => lease

/-- The `INSERT` of a row of `sessionId`. -/
def insertWrite (db : Database) (stmt : Stmt) (userId : Int) (sessionId : Bytes) : SessionWrite :=
  match dbCreateSession db stmt userId sessionId sessionTtlSeconds with
  | .ok _ => .inserted userId
  | .error _ => .unchanged

/-- The `DELETE` of its rows. -/
def deleteWrite (stmt : Stmt) : SessionWrite := if stmt.ok then .deleted else .unchanged

def validateWrite (db : Database) (stmt : Stmt) (sessionId : Bytes) : Validate → SessionWrite
  | .deleteSession _ => deleteWrite stmt
  | .createSession userId => insertWrite db stmt userId sessionId
  | _ => .unchanged

/-- The answer to a text frame, as the database stands. -/
def Authority.answer (s : Authority) (env : TextEnv) (io : WsIo) (frame : WsFrame) (db : Database) :
    Bool × WsIo × Conn :=
  handleTextFrame { env with conn := { env.conn with db := db, now := s.now } } io frame s.userId

section

variable (sessionId : Bytes) (ids : Nat → Bytes)

/-- What a step does to the session of the connection; the other requests validate the sessions `ids`. -/
def Authority.write (s : Authority) : AuthorityEvent → SessionWrite
  | .upgrade ok => validateWrite s.db ⟨ok, s.now⟩ sessionId s.upgrade
  | .validate i ok =>
    if ids i = sessionId then validateWrite s.db ⟨ok, s.now⟩ sessionId (s.calls i) else .unchanged
  | .login userId other ok =>
    if other = sessionId then insertWrite s.db ⟨ok, s.now⟩ userId sessionId else .unchanged
  | .logout other ok => if other = sessionId then deleteWrite ⟨ok, s.now⟩ else .unchanged
  | .clock _ | .start _ | .other _ | .frame _ _ _ => .unchanged

def Authority.step (s : Authority) : AuthorityEvent → Option Authority
  | .clock seconds => some { s with now := s.now + seconds }
  | .upgrade ok =>
    (Validate.step sessionId sessionTtlSeconds s.db ⟨ok, s.now⟩ s.upgrade).map fun (pc, db) =>
      { s with db := db, upgrade := pc }
  | .start i =>
    if s.calls i = .notStarted then some { s with calls := Function.update s.calls i .getSession } else none
  | .validate i ok =>
    (Validate.step (ids i) sessionTtlSeconds s.db ⟨ok, s.now⟩ (s.calls i)).map fun (pc, db) =>
      { s with db := db, calls := Function.update s.calls i pc }
  | .login userId other ok =>
    match dbCreateSession s.db ⟨ok, s.now⟩ userId other sessionTtlSeconds with
    | .ok db => some { s with db := db }
    | .error _ => some s
  | .logout other ok =>
    match dbDeleteSession s.db ⟨ok, s.now⟩ other with
    | .ok db => some { s with db := db }
    | .error _ => some s
  | .other db => if db.sessions = s.db.sessions then some { s with db := db } else none
  | .frame env io frame =>
    match s.upgrade with
    | .returned _ => some { s with db := (s.answer env io frame s.db).2.2.db }
    | _ => none

/-- A connection whose request names the session `sessionId`, or none, on any tables and among any
requests. -/
def authoritySystem : System Authority AuthorityEvent where
  init s := s.upgrade = .getSession ∨ s.upgrade = .returned none
  step s e t := s.step sessionId ids e = some t

/-- What a text frame sends depends on the rows of the user. -/
def Authority.Reads (s : Authority) (env : TextEnv) (io : WsIo) (frame : WsFrame) (userId : Int) : Prop :=
  ∃ db', SameBut userId s.db db' ∧
    (s.answer env io frame db').2.1.frames ≠ (s.answer env io frame s.db).2.1.frames

/-- It changes the rows of the user, these or others that might stand there. -/
def Authority.Writes (s : Authority) (env : TextEnv) (io : WsIo) (frame : WsFrame) (userId : Int) : Prop :=
  ∃ db', SameBut userId s.db db' ∧
    historyOf (s.answer env io frame db').2.2.db userId ≠ historyOf db' userId

/-- The step is a `watch_get` or `watch_update` that reads or writes the watch history of the user. -/
def Authority.Touches (s : Authority) (userId : Int) : AuthorityEvent → Prop
  | .frame env io frame =>
    (∃ cmd, parseCommand (ofMemory frame.payload) = some cmd ∧ (cmd.type = .watchGet ∨ cmd.type = .watchUpdate)) ∧
      (s.Reads env io frame userId ∨ s.Writes env io frame userId)
  | _ => False

/-- A property of each step of a run, of the events before it and the state they lead to. -/
def Throughout (s₀ : Authority) (es : List AuthorityEvent)
    (P : List AuthorityEvent → Authority → AuthorityEvent → Prop) : Prop :=
  ∀ before e after s, es = before ++ e :: after → (authoritySystem sessionId ids).Run s₀ before s → P before s e

/-- The session is at this moment in the table, unexpired, and owned by every user the step touches. -/
def UnderSession (s : Authority) (e : AuthorityEvent) : Prop :=
  ∀ userId, s.Touches userId e → Authorized s.now s.db sessionId userId

/-- The last statement of the run that wrote the session inserted it for this user, and when. -/
def LastInserted (s₀ : Authority) (es : List AuthorityEvent) (s : Authority) (lease : Lease) : Prop :=
  ∃ before e after t u, es = before ++ e :: after ∧ (authoritySystem sessionId ids).Run s₀ before t ∧
    t.write sessionId ids e = .inserted lease.userId ∧ t.now = lease.renewedAt ∧
    (authoritySystem sessionId ids).step t e u ∧
    ((authoritySystem sessionId ids).restrict fun s e => s.write sessionId ids e = .unchanged).Run u after s

/-- The condition on a step: the last statement that wrote the session inserted it for every user the step
touches, less than `SESSION_TTL_SECONDS` ago. -/
def UnderLease (s₀ : Authority) (es : List AuthorityEvent) (s : Authority) (e : AuthorityEvent) : Prop :=
  ∀ userId, s.Touches userId e → ∃ lease, LastInserted sessionId ids s₀ es s lease ∧ lease.userId = userId ∧
    lease.Current sessionTtlSeconds s.now

end

variable {sessionId other : Bytes} {ids : Nat → Bytes} {s s₀ t : Authority} {e : AuthorityEvent}
  {db db' : Database} {stmt : Stmt} {lease : Option Lease} {userId : Int}

/-! ### One statement -/

theorem rowsOf_congr (h : db'.sessions = db.sessions) : db'.rowsOf sessionId = db.rowsOf sessionId := by
  rw [Database.rowsOf, h]
  rfl

theorem backs_insert (h : Backs sessionTtlSeconds stmt.now sessionId db lease)
    (hcreate : dbCreateSession db stmt userId other sessionTtlSeconds = .ok db') :
    Backs sessionTtlSeconds stmt.now sessionId db'
      ((if other = sessionId then insertWrite db stmt userId sessionId else .unchanged).lease stmt.now lease) := by
  split_ifs with heq
  · subst heq
    rw [insertWrite, hcreate]
    exact backs_createSession hcreate
  · exact h.of_rowsOf_eq (rowsOf_createSession_of_ne heq hcreate).1

theorem backs_insert_error (h : Backs sessionTtlSeconds stmt.now sessionId db lease) {rc : Rc}
    (hcreate : dbCreateSession db stmt userId other sessionTtlSeconds = .error rc) :
    Backs sessionTtlSeconds stmt.now sessionId db
      ((if other = sessionId then insertWrite db stmt userId sessionId else .unchanged).lease stmt.now lease) := by
  split_ifs with heq
  · subst heq
    rwa [insertWrite, hcreate]
  · exact h

theorem backs_delete (h : Backs sessionTtlSeconds stmt.now sessionId db lease)
    (hdelete : dbDeleteSession db stmt other = .ok db') :
    Backs sessionTtlSeconds stmt.now sessionId db'
      ((if other = sessionId then deleteWrite stmt else .unchanged).lease stmt.now lease) := by
  split_ifs with heq
  · subst heq
    have hok : stmt.ok = true := by
      by_contra hfail
      simp [dbDeleteSession, hfail] at hdelete
    rw [deleteWrite, if_pos hok]
    exact backs_deleteSession hdelete
  · exact h.of_rowsOf_eq (rowsOf_deleteSession_of_ne heq hdelete).1

theorem backs_delete_error (h : Backs sessionTtlSeconds stmt.now sessionId db lease) {rc : Rc}
    (hdelete : dbDeleteSession db stmt other = .error rc) :
    Backs sessionTtlSeconds stmt.now sessionId db
      ((if other = sessionId then deleteWrite stmt else .unchanged).lease stmt.now lease) := by
  have hfail : ¬ stmt.ok = true := by
    intro hok
    simp [dbDeleteSession, hok] at hdelete
  rw [deleteWrite, if_neg hfail, ite_self]
  exact h

theorem backs_validate {pc pc' : Validate} (h : Backs sessionTtlSeconds stmt.now sessionId db lease)
    (hstep : Validate.step other sessionTtlSeconds db stmt pc = some (pc', db')) :
    Backs sessionTtlSeconds stmt.now sessionId db'
      ((if other = sessionId then validateWrite db stmt sessionId pc else .unchanged).lease stmt.now lease) := by
  -- the first two statements write no row of the session
  have hread (hwrite : validateWrite db stmt sessionId pc = .unchanged) :
      (if other = sessionId then validateWrite db stmt sessionId pc else .unchanged).lease stmt.now lease =
        lease := by
    rw [hwrite, ite_self]
    rfl
  cases Validate.stepped hstep with
  | found | missing | notPurged =>
      rw [hread rfl]
      exact h
  | purged hpurge =>
      rw [hread rfl]
      exact h.deleteExpired hpurge
  | deleted hdelete => exact backs_delete h hdelete
  | notDeleted hdelete => exact backs_delete_error h hdelete
  | created hcreate => exact backs_insert h hcreate
  | refused hcreate => exact backs_insert_error h hcreate

/-- The upgrade has a user once its `INSERT` has executed; whatever the table held before, its row now
backs the lease. -/
theorem backs_upgrade {pc : Validate}
    (hstep : Validate.step sessionId sessionTtlSeconds db stmt pc = some (.returned (some userId), db')) :
    Backs sessionTtlSeconds stmt.now sessionId db'
      ((validateWrite db stmt sessionId pc).lease stmt.now lease) := by
  cases Validate.stepped hstep with
  | created hcreate =>
      rw [validateWrite, insertWrite, hcreate]
      exact backs_createSession hcreate

/-! ### One step -/

/-- Once the connection has a user, the table backs the lease. -/
def Tracked (sessionId : Bytes) (s : Authority) (lease : Option Lease) : Prop :=
  ∀ userId, s.upgrade = .returned (some userId) → Backs sessionTtlSeconds s.now sessionId s.db lease

/-- **One step** of the connection or of another request. -/
theorem Tracked.step (h : Tracked sessionId s lease) (hstep : s.step sessionId ids e = some t) :
    Tracked sessionId t ((s.write sessionId ids e).lease s.now lease) := by
  intro userId hupgrade
  cases e with
  | clock seconds =>
      cases hstep
      exact (h userId hupgrade).clock (by simp)
  | upgrade ok =>
      simp only [Authority.step, Option.map_eq_some_iff] at hstep
      obtain ⟨⟨pc, db'⟩, hpc, rfl⟩ := hstep
      obtain rfl : pc = .returned (some userId) := hupgrade
      exact backs_upgrade hpc
  | start i =>
      simp only [Authority.step] at hstep
      split_ifs at hstep
      cases hstep
      exact h userId hupgrade
  | validate i ok =>
      simp only [Authority.step, Option.map_eq_some_iff] at hstep
      obtain ⟨⟨pc, db'⟩, hpc, rfl⟩ := hstep
      exact backs_validate (h userId hupgrade) hpc
  | login user other ok =>
      cases hcreate : dbCreateSession s.db ⟨ok, s.now⟩ user other sessionTtlSeconds with
      | error rc =>
          simp only [Authority.step, hcreate] at hstep
          cases hstep
          exact backs_insert_error (h userId hupgrade) hcreate
      | ok db' =>
          simp only [Authority.step, hcreate] at hstep
          cases hstep
          exact backs_insert (h userId hupgrade) hcreate
  | logout other ok =>
      cases hdelete : dbDeleteSession s.db ⟨ok, s.now⟩ other with
      | error rc =>
          simp only [Authority.step, hdelete] at hstep
          cases hstep
          exact backs_delete_error (h userId hupgrade) hdelete
      | ok db' =>
          simp only [Authority.step, hdelete] at hstep
          cases hstep
          exact backs_delete (h userId hupgrade) hdelete
  | other db =>
      simp only [Authority.step] at hstep
      split_ifs at hstep with hsessions
      cases hstep
      exact (h userId hupgrade).of_rowsOf_eq (rowsOf_congr hsessions)
  | frame env io frame =>
      simp only [Authority.step] at hstep
      split at hstep
      · cases hstep
        exact (h userId hupgrade).of_rowsOf_eq (rowsOf_congr (handleTextFrame_sessions ..))
      · cases hstep

theorem userId_of_upgrade (huser : 0 < s.userId) : s.upgrade = .returned (some s.userId) := by
  unfold Authority.userId at huser ⊢
  split at huser
  · rename_i user heq
    simp only [heq]
  · omega

theorem upgrade_of_touches (h : s.Touches userId e) : s.upgrade = .returned (some userId) := by
  suffices hown : 0 < s.userId ∧ s.userId = userId by
    rw [← hown.2]
    exact userId_of_upgrade hown.1
  cases e with
  | frame env io frame =>
      obtain ⟨⟨cmd, hparse, htype⟩, heffect⟩ := h
      by_contra hother
      have hother : s.userId ≤ 0 ∨ s.userId ≠ userId := by omega
      rcases heffect with ⟨db', hsame, hne⟩ | ⟨db', -, hne⟩
      · exact hne (congrArg WsIo.frames (handleTextFrame_sameBut { env with conn := { env.conn with now := s.now } } io
          frame cmd s.userId hparse htype hsame hother))
      · exact hne (historyOf_handleTextFrame _ io frame s.userId hother)
  | _ => cases h

/-! ### Runs -/

theorem run_unique {es : List AuthorityEvent} (h : (authoritySystem sessionId ids).Run s₀ es s)
    (h' : (authoritySystem sessionId ids).Run s₀ es t) : s = t :=
  h.unique (fun _ _ _ _ hstep hstep' => Option.some.inj (Eq.trans (Eq.symm hstep) hstep')) h'

theorem throughout_snoc {es : List AuthorityEvent} {P : List AuthorityEvent → Authority → AuthorityEvent → Prop}
    (h : Throughout sessionId ids s₀ es P)
    (hlast : ∀ s, (authoritySystem sessionId ids).Run s₀ es s → P es s e) :
    Throughout sessionId ids s₀ (es ++ [e]) P := by
  intro before f after s hsplit hrun
  rcases List.eq_nil_or_concat after with rfl | ⟨after', last, rfl⟩
  · obtain ⟨rfl, hf⟩ := List.append_inj' hsplit rfl
    obtain rfl := List.singleton_inj.mp hf
    exact hlast s hrun
  · rw [List.concat_eq_append] at hsplit
    exact h before f after' s
      (List.append_inj' (hsplit.trans (List.append_assoc before (f :: after') [last]).symm) rfl).1 hrun

theorem not_lastInserted_nil {l : Lease} : ¬ LastInserted sessionId ids s₀ [] s l := by
  rintro ⟨before, e, after, t, u, hsplit, -⟩
  simp at hsplit

theorem lastInserted_snoc_iff {es : List AuthorityEvent} {l : Lease}
    (hrun : (authoritySystem sessionId ids).Run s₀ es s) (hstep : s.step sessionId ids e = some t) :
    LastInserted sessionId ids s₀ (es ++ [e]) t l ↔
      (s.write sessionId ids e = .inserted l.userId ∧ s.now = l.renewedAt) ∨
        (s.write sessionId ids e = .unchanged ∧ LastInserted sessionId ids s₀ es s l) := by
  constructor
  · rintro ⟨before, f, after, v, w, hsplit, hbefore, hwrite, hnow, hinsert, hafter⟩
    rcases List.eq_nil_or_concat after with rfl | ⟨after', last, rfl⟩
    · obtain ⟨rfl, hlast⟩ := List.append_inj' hsplit rfl
      obtain rfl := List.singleton_inj.mp hlast
      obtain rfl := run_unique hbefore hrun
      exact .inl ⟨hwrite, hnow⟩
    · rw [List.concat_eq_append] at hsplit hafter
      obtain ⟨rfl, hlast⟩ := List.append_inj' (hsplit.trans (List.append_assoc before (f :: after') [last]).symm) rfl
      obtain rfl := List.singleton_inj.mp hlast
      obtain ⟨m, hquiet, hunchanged, -⟩ := System.run_snoc_iff.mp hafter
      obtain rfl : m = s := run_unique (hbefore.trans (System.run_cons_iff.mpr ⟨w, hinsert, hquiet.of_restrict⟩)) hrun
      exact .inr ⟨hunchanged, before, f, after', v, w, rfl, hbefore, hwrite, hnow, hinsert, hquiet⟩
  · rintro (⟨hwrite, hnow⟩ | ⟨hwrite, before, f, after, v, w, rfl, hbefore, hinserted, hnow, hinsert, hafter⟩)
    · exact ⟨es, e, [], s, t, rfl, hrun, hwrite, hnow, hstep, .nil⟩
    · exact ⟨before, f, after ++ [e], v, w, by simp, hbefore, hinserted, hnow, hinsert, hafter.snoc ⟨hwrite, hstep⟩⟩

/-- **A whole run**: the table backs what the run says about the session. -/
theorem tracked_run {es : List AuthorityEvent} (hinit : (authoritySystem sessionId ids).init s₀)
    (hrun : (authoritySystem sessionId ids).Run s₀ es s) :
    ∃ lease, Tracked sessionId s lease ∧ ∀ l, lease = some l ↔ LastInserted sessionId ids s₀ es s l := by
  induction hrun with
  | nil =>
      refine ⟨none, fun userId hupgrade => ?_, fun l => ⟨by simp, fun h => absurd h not_lastInserted_nil⟩⟩
      rcases hinit with hs | hs <;> rw [hs] at hupgrade <;> cases hupgrade
  | @snoc es s t e hrun hstep ih =>
      obtain ⟨lease, htracked, hlease⟩ := ih
      refine ⟨_, htracked.step hstep, fun l => ?_⟩
      rw [lastInserted_snoc_iff hrun hstep, ← hlease]
      cases hwrite : s.write sessionId ids e with
      | inserted userId =>
          rcases l with ⟨user, since⟩
          simp [SessionWrite.lease]
      | deleted => simp [SessionWrite.lease]
      | unchanged => simp [SessionWrite.lease]

theorem underSession_iff {es : List AuthorityEvent} (hinit : (authoritySystem sessionId ids).init s₀)
    (hrun : (authoritySystem sessionId ids).Run s₀ es s) :
    UnderSession sessionId s e ↔ UnderLease sessionId ids s₀ es s e := by
  obtain ⟨lease, htracked, hlease⟩ := tracked_run hinit hrun
  refine forall_congr' fun userId => forall_congr' fun htouches => ?_
  rw [(htracked userId (upgrade_of_touches htouches)).authorized_iff]
  exact exists_congr fun l => and_congr_left' (hlease l)

/-- **When the authority of a connection ends with its session.** In a run every `watch_get` and
`watch_update` finds the session in the table, unexpired, and owned by the user whose watch history it reads or
writes, if and only if for each of them the last statement that wrote the session inserted it for that user,
less than `SESSION_TTL_SECONDS` ago. -/
theorem websocket_authority_iff (es : List AuthorityEvent) (hinit : (authoritySystem sessionId ids).init s₀) :
    Throughout sessionId ids s₀ es (fun _ s e => UnderSession sessionId s e) ↔
      Throughout sessionId ids s₀ es (UnderLease sessionId ids s₀) := by
  refine forall_congr' fun before => forall_congr' fun e => forall_congr' fun after => forall_congr' fun s => ?_
  exact forall_congr' fun _ => forall_congr' fun hrun => underSession_iff hinit hrun

/-- A connection of the user who is logged in, with the session `s`, and one video. -/
def sampleAuthority : Authority where
  db := { loggedIn [115] with videos := [⟨1, [116], none, [112], none, none, 0, 0⟩] }
  now := 0
  upgrade := .getSession
  calls _ := .notStarted

/-- The connection answers a text, with its database. -/
def answerEvent (frame : WsFrame) : AuthorityEvent :=
  .frame { sampleTextEnv with db := true } (.fresh fun _ => 1000) frame

def Authority.sampleAnswer (s : Authority) (frame : WsFrame) (db : Database) : Bool × WsIo × Conn :=
  s.answer { sampleTextEnv with db := true } (.fresh fun _ => 1000) frame db

def watchUpdate : WsFrame := ⟨0x1, true, ascii "\x7b\"type\":\"watch_update\",\"video_id\":1,\"position\":5\x7d"⟩

def watchGet : WsFrame := ⟨0x1, true, ascii "\x7b\"type\":\"watch_get\",\"video_id\":1\x7d"⟩

theorem exists_sampleState {es : List AuthorityEvent} {P : Authority → Prop} [DecidablePred P]
    (h : ∃ s ∈ es.foldlM (Authority.step [115] fun _ => []) sampleAuthority, P s) :
    ∃ s, (authoritySystem [115] fun _ => []).Run sampleAuthority es s ∧ P s := by
  obtain ⟨s, hs, hP⟩ := h
  exact ⟨s, System.run_of_foldlM (fun _ _ _ => id) hs, hP⟩

theorem touches_watchUpdate (h : historyOf (s.sampleAnswer watchUpdate s.db).2.2.db 1 ≠ historyOf s.db 1) :
    s.Touches 1 (answerEvent watchUpdate) := by
  have hparse : ∃ cmd ∈ parseCommand (ofMemory watchUpdate.payload), cmd.type = .watchUpdate := by decide +kernel
  obtain ⟨cmd, hcmd, htype⟩ := hparse
  exact ⟨⟨cmd, hcmd, .inr htype⟩, .inr ⟨s.db, .refl, h⟩⟩

theorem touches_watchGet (h : (s.sampleAnswer watchGet { s.db with watchHistory := [] }).2.1.frames ≠
      (s.sampleAnswer watchGet s.db).2.1.frames) (hown : ∀ row ∈ s.db.watchHistory, row.userId = 1) :
    s.Touches 1 (answerEvent watchGet) := by
  have hparse : ∃ cmd ∈ parseCommand (ofMemory watchGet.payload), cmd.type = .watchGet := by decide +kernel
  obtain ⟨cmd, hcmd, htype⟩ := hparse
  refine ⟨⟨cmd, hcmd, .inl htype⟩, .inl ⟨{ s.db with watchHistory := [] }, ⟨[], rfl, ?_⟩, h⟩⟩
  rw [List.filter_nil, eq_comm, List.filter_eq_nil_iff]
  simpa using hown

/-- The connection stores a position 1799 seconds after the upgrade, and asks for it. -/
theorem websocket_authority_one :
    let upgraded : List AuthorityEvent := List.replicate 3 (.upgrade true) ++ [.upgrade true] ++ [.clock 1799]
    Throughout [115] (fun _ => []) sampleAuthority (upgraded ++ [answerEvent watchUpdate] ++ [answerEvent watchGet])
        (fun _ s e => UnderSession [115] s e) ∧
      ∃ s t u, (authoritySystem [115] fun _ => []).Run sampleAuthority upgraded s ∧
        s.Touches 1 (answerEvent watchUpdate) ∧ (authoritySystem [115] fun _ => []).step s (answerEvent watchUpdate) t ∧
        t.Touches 1 (answerEvent watchGet) ∧ (authoritySystem [115] fun _ => []).step t (answerEvent watchGet) u := by
  intro upgraded
  have hinit : (authoritySystem [115] fun _ => []).init sampleAuthority := .inl rfl
  obtain ⟨t, hrunt, hgets, hown, hget, husert, hnowt⟩ : ∃ t, (authoritySystem [115] fun _ => []).Run sampleAuthority
      (upgraded ++ [answerEvent watchUpdate]) t ∧
        (t.sampleAnswer watchGet { t.db with watchHistory := [] }).2.1.frames ≠
          (t.sampleAnswer watchGet t.db).2.1.frames ∧ (∀ row ∈ t.db.watchHistory, row.userId = 1) ∧
        (t.step [115] (fun _ => []) (answerEvent watchGet)).isSome ∧ t.upgrade = .returned (some 1) ∧ t.now = 1799 :=
    exists_sampleState (by decide +kernel)
  obtain ⟨s', hrun', hwrites, husers, hnows⟩ : ∃ s, (authoritySystem [115] fun _ => []).Run sampleAuthority upgraded s ∧
      historyOf (s.sampleAnswer watchUpdate s.db).2.2.db 1 ≠ historyOf s.db 1 ∧ s.upgrade = .returned (some 1) ∧
        s.now = 1799 :=
    exists_sampleState (by decide +kernel)
  obtain ⟨r', hrunr', hinserts, hnowr⟩ : ∃ r, (authoritySystem [115] fun _ => []).Run sampleAuthority
      (List.replicate 3 (.upgrade true)) r ∧
        r.write [115] (fun _ => []) (.upgrade true) = .inserted 1 ∧ r.now = 0 :=
    exists_sampleState (by decide +kernel)
  obtain ⟨s, hruns, hupdate⟩ := System.run_snoc_iff.mp hrunt
  obtain rfl := run_unique hruns hrun'
  obtain ⟨q, hrunq, hclock⟩ := System.run_snoc_iff.mp hruns
  obtain ⟨r, hrunr, hinsert⟩ := System.run_snoc_iff.mp hrunq
  obtain rfl := run_unique hrunr hrunr'
  -- the upgrade inserts the session in second 0, and nothing writes it later
  have hq : LastInserted [115] (fun _ => []) sampleAuthority _ q ⟨1, 0⟩ :=
    (lastInserted_snoc_iff hrunr hinsert).mpr (.inl ⟨hinserts, hnowr⟩)
  have hs : LastInserted [115] (fun _ => []) sampleAuthority _ s ⟨1, 0⟩ :=
    (lastInserted_snoc_iff hrunq hclock).mpr (.inr ⟨rfl, hq⟩)
  have ht : LastInserted [115] (fun _ => []) sampleAuthority _ t ⟨1, 0⟩ :=
    (lastInserted_snoc_iff hruns hupdate).mpr (.inr ⟨rfl, hs⟩)
  obtain ⟨u, hu⟩ := Option.isSome_iff_exists.mp hget
  refine ⟨(websocket_authority_iff _ hinit).mpr (throughout_snoc (throughout_snoc ?_ ?_) ?_),
    s, t, u, hruns, touches_watchUpdate hwrites, hupdate, touches_watchGet hgets hown, hu⟩
  · intro before e after v hsplit _ user htouches
    have hmem : e ∈ upgraded := hsplit ▸ List.mem_append_right before List.mem_cons_self
    have hquiet : e = .upgrade true ∨ e = .clock 1799 := by simpa [upgraded] using hmem
    rcases hquiet with rfl | rfl <;> cases htouches
  · intro v hrunv user htouches
    obtain rfl := run_unique hruns hrunv
    obtain rfl : 1 = user := by simpa [husers] using upgrade_of_touches htouches
    exact ⟨⟨1, 0⟩, hs, rfl, by rw [hnows]; decide⟩
  · intro v hrunv user htouches
    obtain rfl := run_unique hrunt hrunv
    obtain rfl : 1 = user := by simpa [husert] using upgrade_of_touches htouches
    exact ⟨⟨1, 0⟩, ht, rfl, by rw [hnowt]; decide⟩

/-- The user logs out, and the connection still stores a position. -/
theorem websocket_authority_survives :
    ¬ ∀ (sessionId : Bytes) (ids : Nat → Bytes) (s₀ s : Authority) (es : List AuthorityEvent),
      (authoritySystem sessionId ids).init s₀ → (authoritySystem sessionId ids).Run s₀ es s →
        Throughout sessionId ids s₀ es fun _ s e => UnderSession sessionId s e := by
  intro h
  let es : List AuthorityEvent := List.replicate 4 (.upgrade true) ++ [.logout [115] true]
  obtain ⟨s, hrun, hsessions, hwrites, hstep⟩ : ∃ s, (authoritySystem [115] fun _ => []).Run sampleAuthority es s ∧
      s.db.sessions = [] ∧ historyOf (s.sampleAnswer watchUpdate s.db).2.2.db 1 ≠ historyOf s.db 1 ∧
        (s.step [115] (fun _ => []) (answerEvent watchUpdate)).isSome :=
    exists_sampleState (by decide +kernel)
  obtain ⟨t, ht⟩ := Option.isSome_iff_exists.mp hstep
  obtain ⟨row, hmem, -⟩ := h [115] _ sampleAuthority t (es ++ [answerEvent watchUpdate]) (.inl rfl) (hrun.snoc ht)
    es _ [] s rfl hrun 1 (touches_watchUpdate hwrites)
  rw [hsessions] at hmem
  cases hmem

end OttQuic.WebSocket
