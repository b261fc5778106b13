import OttQuic.Auth.Validation
import OttQuic.Http.SendResponse

/-!
# Account operations that fail half way (`session_validate_and_extend`, `handle_signup`)

Both are several statements without a transaction, and each may fail on its own. An extension has deleted its session
when the insertion of the new row fails; a signup has made its user when there is no session for it. `LosesSession`
and `LeavesUser` say from the tables, the request and the fates of the statements when this happens, and
`all_or_nothing_iff` that nothing else goes wrong.
-/

namespace OttQuic.Auth

open CString Db Http

/-- Every session that has not expired is still there. -/
def KeepsSessions (now : Int) (db db' : Database) : Prop :=
  ∀ row ∈ db.sessions, now < row.expiresAt → row ∈ db'.sessions

/-- The account tables are as before. -/
def SameAccounts (db db' : Database) : Prop := db'.users = db.users ∧ db'.sessions = db.sessions

/-- The reply has a status of 400 or more: the digit behind `HTTP/1.1 ` is `4` or `5`. -/
def IsError (result : ApiResult) : Prop :=
  ∃ reply, result.answer = .reply reply ∧ (reply.statusLine[9]? = some 52 ∨ reply.statusLine[9]? = some 53)

/-- The session has not expired, its row is read and deleted, and is not inserted again: the statement fails, there is
no user with the id that was read, or the time to live is negative. -/
def LosesSession (conn : Conn) (sessionId : Bytes) (ttlSeconds : Int) : Prop :=
  conn.fates conn.executed = true ∧ conn.fates (conn.executed + 1) = true ∧ conn.fates (conn.executed + 2) = true ∧
    ∃ row, conn.db.sessions.find? (fun row => row.sessionId = sessionId ∧ row.expiresAt > conn.now) = some row ∧
      ¬ Reinserts conn row ttlSeconds

/-- The request makes a user: a `POST` with the three fields and a name that is not taken, and the insertion
executes. -/
structure CreatesUser (env : ApiEnv) (req : HttpRequest) (conn : Conn) (body username password nickname : Bytes) :
    Prop where
  db : env.db = true
  notOptions : req.hasMethod "OPTIONS" = false
  post : req.hasMethod "POST" = true
  username_eq : jsonExtractString (ofMemory (body.take httpMaxBody)) "username" dbMaxUsername = some username
  password_eq : jsonExtractString (ofMemory (body.take httpMaxBody)) "password" 128 = some password
  nickname_eq : jsonExtractString (ofMemory (body.take httpMaxBody)) "nickname" dbMaxNickname = some nickname
  unknown : ∀ row ∈ conn.db.users, row.username ≠ username
  hashed : env.hashPassword password ≠ []
  inserted : conn.fates (conn.executed + 1) = true

/-- There is an id for the new session, no other session has it, the insertion executes, and the id of the new user, as
an `int`, is that of a user. -/
def OpensSession (env : ApiEnv) (conn : Conn) : Prop :=
  ∃ sid, env.sessionId = some sid ∧ conn.fates (conn.executed + 2) = true ∧ conn.db.rowsOf sid = [] ∧
    (toInt (conn.db.userSeq + 1) = conn.db.userSeq + 1 ∨ conn.db.HasUser (toInt (conn.db.userSeq + 1)))

/-- A user is made, and no session. -/
def LeavesUser (env : ApiEnv) (req : HttpRequest) (conn : Conn) (body : Bytes) : Prop :=
  (∃ username password nickname, CreatesUser env req conn body username password nickname) ∧ ¬ OpensSession env conn

variable {conn : Conn} {sessionId body : Bytes} {ttlSeconds : Int} {env : ApiEnv} {req : HttpRequest}
  {random : Option (Vector UInt8 32)}

/-! ### The extension -/

theorem KeepsSessions.refl (now : Int) (db : Database) : KeepsSessions now db db := fun _ hmem _ => hmem

theorem keepsSessions_purged (conn : Conn) : KeepsSessions conn.now conn.db (purged conn) := fun _ hmem hexpires =>
  List.mem_filter.mpr ⟨hmem, decide_eq_true hexpires⟩

/-- **An extension that fails has kept the sessions unless it has lost its own.** -/
theorem sessionValidateAndExtend_keeps_iff (conn : Conn) (sessionId : Bytes) (ttlSeconds : Int) :
    ((sessionValidateAndExtend conn sessionId ttlSeconds).1 = none →
        KeepsSessions conn.now conn.db (sessionValidateAndExtend conn sessionId ttlSeconds).2.db) ↔
      ¬ LosesSession conn sessionId ttlSeconds := by
  cases hget : dbGetSession conn.db conn.stmt sessionId with
  | error rc =>
      refine iff_of_true (fun _ => ?_) ?_
      · rw [sessionValidateAndExtend, Conn.query, hget]
        exact KeepsSessions.refl _ _
      · rintro ⟨hfate, -, -, row, hfind, -⟩
        rw [dbGetSession_eq hfate hfind] at hget
        cases hget
  | ok session =>
  obtain ⟨hfate, row, -, hfind⟩ := dbGetSession_fate hget
  rw [LosesSession, hfind]
  cases hpurge : conn.fates (conn.executed + 1) with
  | false =>
      rw [sessionValidateAndExtend_notPurged hfate hfind hpurge]
      exact iff_of_true (fun _ => KeepsSessions.refl _ _) (by simp)
  | true =>
  cases hdelete : conn.fates (conn.executed + 2) with
  | false =>
      have hcall : (sessionValidateAndExtend conn sessionId ttlSeconds).2.db = purged conn :=
        (sessionValidateAndExtend_notDeleted hfate hfind hpurge hdelete).2
      rw [hcall]
      exact iff_of_true (fun _ => keepsSessions_purged conn) (by simp)
  | true =>
      obtain ⟨hmem, -, hexpires⟩ := find?_unexpired hfind
      by_cases hinsert : Reinserts conn row ttlSeconds
      · obtain ⟨conn', hcall, -⟩ := sessionValidateAndExtend_inserted hfate hfind hpurge hdelete hinsert
        rw [hcall]
        simp [hinsert]
      · obtain ⟨hnone, hgone⟩ : (sessionValidateAndExtend conn sessionId ttlSeconds).1 = none ∧
            row ∉ (sessionValidateAndExtend conn sessionId ttlSeconds).2.db.sessions :=
          sessionValidateAndExtend_lost hfate hfind hpurge hdelete hinsert
        refine iff_of_false (fun hkeeps => ?_) (not_not_intro ⟨hfate, rfl, rfl, row, rfl, hinsert⟩)
        exact hgone (hkeeps hnone row hmem hexpires)

/-! ### The signup -/

theorem dbCreateUser_error_or {db : Database} {stmt : Stmt} {username nickname hash : Bytes} :
    (∃ rc, dbCreateUser db stmt username nickname hash .user = .error rc) ∨
      (stmt.ok = true ∧ ∀ row ∈ db.users, row.username ≠ username) := by
  unfold dbCreateUser
  split_ifs with hok htaken
  · exact .inl ⟨_, rfl⟩
  · exact .inr ⟨hok, fun row hmem heq => htaken (List.any_eq_true.mpr ⟨row, hmem, decide_eq_true heq⟩)⟩
  · exact .inl ⟨_, rfl⟩

theorem handleSignup_kept (h : ¬ ∃ username password nickname,
    CreatesUser env req conn body username password nickname) :
    (handleSignup env req conn body).conn.db = conn.db := by
  rw [handleSignup]
  cases hdb : env.db with
  | false => rfl
  | true =>
  rw [if_neg (by simp)]
  cases hoptions : req.hasMethod "OPTIONS" with
  | true => rfl
  | false =>
  rw [if_neg (by simp)]
  cases hpost : req.hasMethod "POST" with
  | false => rfl
  | true =>
  rw [if_neg (by simp)]
  dsimp only
  cases huser : jsonExtractString (ofMemory (body.take httpMaxBody)) "username" dbMaxUsername with
  | none => rfl
  | some username =>
  cases hpass : jsonExtractString (ofMemory (body.take httpMaxBody)) "password" 128 with
  | none => rfl
  | some password =>
  cases hnick : jsonExtractString (ofMemory (body.take httpMaxBody)) "nickname" dbMaxNickname with
  | none => rfl
  | some nickname =>
  dsimp only [Conn.query]
  cases dbGetUserByUsername conn.db conn.stmt username with
  | ok row => rfl
  | error rc =>
  dsimp only
  by_cases hhash : env.hashPassword password = []
  · rw [if_pos hhash]
    rfl
  rw [if_neg hhash]
  -- so the insertion fails
  obtain ⟨rc, hcreate⟩ : ∃ rc, dbCreateUser (conn.next conn.db).db (conn.next conn.db).stmt username nickname
      (env.hashPassword password) .user = .error rc := by
    refine dbCreateUser_error_or.resolve_right ?_
    rintro ⟨hok, hunknown⟩
    exact h ⟨username, password, nickname, hdb, hoptions, hpost, huser, hpass, hnick, hunknown, hhash, hok⟩
  rw [Conn.insert, hcreate]
  rfl

/-- A signup that makes a user: what is left is the session. -/
structure SignupLeft (env : ApiEnv) (req : HttpRequest) (conn : Conn) (body username nickname : Bytes) (id : Int)
    (db₁ : Database) : Prop where
  noId : env.sessionId = none → handleSignup env req conn body =
    .ofReply (textReply "500 Internal Server Error" "session-failed") ((conn.next conn.db).next db₁)
  refused : ∀ sid conn₃, env.sessionId = some sid →
    ((conn.next conn.db).next db₁).exec (fun db stmt => dbCreateSession db stmt id sid sessionTtlSeconds) =
      (false, conn₃) →
    handleSignup env req conn body = .ofReply (textReply "500 Internal Server Error" "session-failed") conn₃
  created : ∀ sid conn₃ headers, env.sessionId = some sid →
    ((conn.next conn.db).next db₁).exec (fun db stmt => dbCreateSession db stmt id sid sessionTtlSeconds) =
      (true, conn₃) →
    sessionHeaders (ascii "application/json") (sid ++ ascii "; ") req = some headers →
    handleSignup env req conn body =
      .ofReply ⟨ascii "HTTP/1.1 200 OK\r\n", headers, sessionBody sid username nickname false⟩ conn₃

theorem hasUser_snoc {db : Database} {row : UserRow} (husers : db.users = conn.db.users ++ [row]) {userId : Int} :
    db.HasUser userId ↔ userId = row.id ∨ conn.db.HasUser userId := by
  simp [Database.HasUser, husers, or_and_right, exists_or, or_comm, eq_comm]

theorem CreatesUser.handleSignup_left {username password nickname : Bytes}
    (h : CreatesUser env req conn body username password nickname) :
    ∃ db₁, db₁.users =
        conn.db.users ++ [⟨conn.db.userSeq + 1, username, nickname, env.hashPassword password, .user⟩] ∧
      db₁.sessions = conn.db.sessions ∧
      SignupLeft env req conn body username nickname (toInt (conn.db.userSeq + 1)) db₁ := by
  obtain ⟨rc, hget⟩ : ∃ rc, dbGetUserByUsername conn.db conn.stmt username = .error rc := by
    have hfind : conn.db.users.find? (fun row => row.username = username) = none :=
      List.find?_eq_none.mpr fun row hmem heq => h.unknown row hmem (of_decide_eq_true heq)
    rw [dbGetUserByUsername, hfind]
    split
    · exact ⟨_, rfl⟩
    · exact ⟨_, rfl⟩
  have hfree : ¬ (conn.db.users.any fun row => row.username = username) = true := by
    intro hany
    obtain ⟨row, hmem, heq⟩ := List.any_eq_true.mp hany
    exact h.unknown row hmem (of_decide_eq_true heq)
  obtain ⟨id, db₁, hcreate⟩ : ∃ id db₁, dbCreateUser conn.db (conn.next conn.db).stmt username nickname
      (env.hashPassword password) .user = .ok (id, db₁) := by
    have hok : (conn.next conn.db).stmt.ok = true := h.inserted
    rw [dbCreateUser, if_pos hok, if_neg hfree]
    exact ⟨_, _, rfl⟩
  obtain ⟨rfl, hdb₁⟩ := dbCreateUser_ok hcreate
  refine ⟨db₁, by rw [hdb₁], by rw [hdb₁], ?_⟩
  refine ⟨fun hid => ?_, fun sid conn₃ hid hexec => ?_, fun sid conn₃ headers hid hexec hheaders => ?_⟩
  all_goals
    rw [handleSignup, h.db, if_neg (by simp), h.notOptions, if_neg (by simp), h.post, if_neg (by simp)]
    simp only [h.username_eq, h.password_eq, h.nickname_eq, Conn.query, hget, if_neg h.hashed, Conn.insert, Conn.next_db,
      hcreate, hid]
  · simp only [hexec]
  · simp only [hexec, hheaders]

theorem not_isError_ok (headers body : Bytes) (conn : Conn) :
    ¬ IsError (.ofReply ⟨ascii "HTTP/1.1 200 OK\r\n", headers, body⟩ conn) := by
  rintro ⟨_, hanswer, hcode⟩
  cases hanswer
  have htwo : (ascii "HTTP/1.1 200 OK\r\n")[9]? = some 50 := by decide
  rcases hcode with hfour | hfive
  · exact absurd (htwo.symm.trans hfour) (by decide)
  · exact absurd (htwo.symm.trans hfive) (by decide)

theorem isError_internal (text : String) (conn : Conn) :
    IsError (.ofReply (textReply "500 Internal Server Error" text) conn) := by
  have hfive : (ascii "HTTP/1.1 " ++ ascii "500 Internal Server Error" ++ ascii "\r\n")[9]? = some 53 := by decide +kernel
  exact ⟨_, rfl, .inr hfive⟩

theorem CreatesUser.left {username password nickname : Bytes}
    (h : CreatesUser env req conn body username password nickname) (hclosed : ¬ OpensSession env conn) :
    IsError (handleSignup env req conn body) ∧ ∃ id, (handleSignup env req conn body).conn.db.users =
      conn.db.users ++ [⟨id, username, nickname, env.hashPassword password, .user⟩] := by
  obtain ⟨db₁, husers, hsessions, hleft⟩ := h.handleSignup_left
  cases hid : env.sessionId with
  | none =>
      rw [hleft.noId hid]
      exact ⟨isError_internal _ _, _, husers⟩
  | some sid =>
      have herror : ∃ rc, dbCreateSession db₁ ((conn.next conn.db).next db₁).stmt (toInt (conn.db.userSeq + 1)) sid
          sessionTtlSeconds = .error rc := by
        refine dbCreateSession_error_iff.mpr fun ⟨hfate, hrows, huser, _⟩ => hclosed ⟨sid, hid, hfate, ?_, ?_⟩
        · rwa [Database.rowsOf, hsessions] at hrows
        · exact (hasUser_snoc husers).mp huser
      rw [hleft.refused sid _ hid (exec_error herror)]
      exact ⟨isError_internal _ _, _, husers⟩

theorem CreatesUser.opened {username password nickname : Bytes}
    (h : CreatesUser env req conn body username password nickname) (hid : env.sessionId = sessionGenerateId random)
    (hopens : OpensSession env conn) : ¬ IsError (handleSignup env req conn body) := by
  obtain ⟨db₁, husers, hsessions, hleft⟩ := h.handleSignup_left
  obtain ⟨sid, hsid, hfate, hfree, hthere⟩ := hopens
  have hempty : db₁.rowsOf sid = [] := by rwa [Database.rowsOf, hsessions]
  have huser : db₁.HasUser (toInt (conn.db.userSeq + 1)) := (hasUser_snoc husers).mpr hthere
  obtain ⟨headers, hheaders, -⟩ := session_accountReply req (sessionGenerateId_some (hid.symm.trans hsid))
    (sessionBody_length sid username nickname false)
  rw [hleft.created sid _ headers hsid (exec_ok hfate (dbCreateSession_of_accepts rfl hempty huser (by decide))) hheaders]
  exact not_isError_ok _ _ _

/-- **A signup that is answered with an error has left the tables unless it has left a user in them.** -/
theorem handleSignup_error_iff (hid : env.sessionId = sessionGenerateId random) (req : HttpRequest) (conn : Conn)
    (body : Bytes) :
    (IsError (handleSignup env req conn body) → SameAccounts conn.db (handleSignup env req conn body).conn.db) ↔
      ¬ LeavesUser env req conn body := by
  by_cases hmakes : ∃ username password nickname, CreatesUser env req conn body username password nickname
  · obtain ⟨username, password, nickname, h⟩ := hmakes
    by_cases hopens : OpensSession env conn
    · exact iff_of_true (fun herror => absurd herror (h.opened hid hopens)) fun hleaves => hleaves.2 hopens
    · obtain ⟨herror, id, husers⟩ := h.left hopens
      refine iff_of_false (fun hsame => ?_) (not_not_intro ⟨⟨username, password, nickname, h⟩, hopens⟩)
      have hlength := congrArg List.length (husers.symm.trans (hsame herror).1)
      simp at hlength
  · refine iff_of_true (fun _ => ?_) fun hleaves => hmakes hleaves.1
    rw [handleSignup_kept hmakes]
    exact ⟨rfl, rfl⟩

theorem LeavesUser.retry (h : LeavesUser env req conn body) {env' : ApiEnv} {conn' : Conn} (hdb' : env'.db = true)
    (hsame : conn'.db = (handleSignup env req conn body).conn.db) (hfate : conn'.fates conn'.executed = true) :
    (handleSignup env' req conn' body).answer = .reply (textReply "409 Conflict" "user-exists") := by
  obtain ⟨⟨username, password, nickname, hmakes⟩, hclosed⟩ := h
  obtain ⟨-, id, husers⟩ := hmakes.left hclosed
  obtain ⟨row, hget⟩ : ∃ row, dbGetUserByUsername conn'.db conn'.stmt username = .ok row := by
    have hok : conn'.stmt.ok = true := hfate
    rw [dbGetUserByUsername, if_pos hok, hsame, husers]
    cases hfind : List.find? (fun row : UserRow => row.username = username)
        (conn.db.users ++ [⟨id, username, nickname, env.hashPassword password, .user⟩]) with
    | none =>
        have hne := List.find?_eq_none.mp hfind _ (List.mem_append_right _ (List.mem_singleton_self _))
        simp at hne
    | some row => exact ⟨_, rfl⟩
  rw [handleSignup, hdb', if_neg (by simp), hmakes.notOptions, if_neg (by simp), hmakes.post, if_neg (by simp)]
  dsimp only
  rw [hmakes.username_eq, hmakes.password_eq, hmakes.nickname_eq]
  simp only [Conn.query, hget]
  rfl

/-- **The account operations are all or nothing, but for a session that is deleted and not inserted again, and for a
user without a session.** -/
theorem all_or_nothing_iff (conn : Conn) (sessionId : Bytes) (ttlSeconds : Int) (env : ApiEnv)
    (random : Option (Vector UInt8 32)) (req : HttpRequest) (body : Bytes)
    (hid : env.sessionId = sessionGenerateId random) :
    (((sessionValidateAndExtend conn sessionId ttlSeconds).1 = none →
        KeepsSessions conn.now conn.db (sessionValidateAndExtend conn sessionId ttlSeconds).2.db) ↔
      ¬ LosesSession conn sessionId ttlSeconds) ∧
    ((IsError (handleSignup env req conn body) → SameAccounts conn.db (handleSignup env req conn body).conn.db) ↔
      ¬ LeavesUser env req conn body) :=
  ⟨sessionValidateAndExtend_keeps_iff conn sessionId ttlSeconds, handleSignup_error_iff hid req conn body⟩

/-- One user with a session; the fourth statement fails. -/
def sampleBusy : Conn :=
  ⟨⟨[⟨1, ascii "ann", ascii "Ann", [104], .user⟩], [⟨1, ascii "s", 100⟩], [], [], 1, 0, 0⟩, 50, fun n => n ≠ 3, 0⟩

/-- A signup. -/
def sampleSignup : HttpRequest := ⟨ascii "POST", ascii "/signup", ascii "HTTP/1.1", []⟩

theorem all_or_nothing_busy :
    (((sessionValidateAndExtend sampleBusy (ascii "s") 1800).1 = none →
        KeepsSessions sampleBusy.now sampleBusy.db (sessionValidateAndExtend sampleBusy (ascii "s") 1800).2.db) ↔
      ¬ LosesSession sampleBusy (ascii "s") 1800) ∧
    ((IsError (handleSignup sampleApiEnv sampleSignup sampleBusy []) →
        SameAccounts sampleBusy.db (handleSignup sampleApiEnv sampleSignup sampleBusy []).conn.db) ↔
      ¬ LeavesUser sampleApiEnv sampleSignup sampleBusy []) :=
  all_or_nothing_iff sampleBusy (ascii "s") 1800 sampleApiEnv none sampleSignup [] rfl

/-- The session of the only user is lost; a signup without random bytes leaves its user. -/
theorem all_or_nothing_refuted :
    (¬ ∀ (conn : Conn) (sessionId : Bytes) (ttlSeconds : Int),
      (sessionValidateAndExtend conn sessionId ttlSeconds).1 = none →
        KeepsSessions conn.now conn.db (sessionValidateAndExtend conn sessionId ttlSeconds).2.db) ∧
    ¬ ∀ (env : ApiEnv) (random : Option (Vector UInt8 32)) (req : HttpRequest) (conn : Conn) (body : Bytes),
      env.sessionId = sessionGenerateId random → IsError (handleSignup env req conn body) →
        SameAccounts conn.db (handleSignup env req conn body).conn.db := by
  constructor
  · intro h
    have hkeeps := h sampleBusy (ascii "s") 1800 (by decide) ⟨1, ascii "s", 100⟩ (by decide) (by decide)
    exact absurd hkeeps (by decide)
  · intro h
    let env : ApiEnv := { sampleApiEnv with hashPassword := fun _ => [104] }
    let body := ascii "\x7b\"username\":\"bob\",\"password\":\"pw\",\"nickname\":\"Bob\"\x7d"
    have hmakes : CreatesUser env sampleSignup emptyConn body (ascii "bob") (ascii "pw") (ascii "Bob") := by
      constructor
      · rfl
      · decide
      · decide
      · decide
      · decide
      · decide
      · decide
      · decide
      · rfl
    obtain ⟨herror, id, husers⟩ := hmakes.left (fun ⟨_, hsid, _⟩ => nomatch hsid)
    have hsame := h env none sampleSignup emptyConn body rfl herror
    rw [SameAccounts, husers] at hsame
    exact absurd hsame.1 (by simp [emptyConn])

end OttQuic.Auth
