import OttQuic.Db.Statements
import OttQuic.Http.Admin

/-!
# What a request is entitled to

The handlers look at the database in many places. `Entitled` is the policy behind them, for each kind of statement: who
may have it executed, judged against the tables before the request. `httpApiHandle_runs` says that `http_api_handle`
keeps to it: whatever a request is, and whichever statements fail, all it does to the database is executing statements
that the request is entitled to.

The policy is that of the code. It lets anyone upload, and where an id goes through an `int` it speaks of that `int`.
-/

namespace OttQuic.Http

open CString Db Auth Conn

/-- The session that the id is good for. -/
structure HoldsSession (conn : Conn) (sid : Bytes) (session : SessionRow) : Prop where
  row : session ∈ conn.db.sessions
  id : session.sessionId = sid
  live : conn.now < session.expiresAt

/-- What the holder of a session id may do: when the session has not expired it is extended. -/
inductive Extends (conn : Conn) (sid : Bytes) : Statement → Prop where
  | select : Extends conn sid .select
  | purge {session : SessionRow} (h : HoldsSession conn sid session) : Extends conn sid .deleteExpired
  | delete {session : SessionRow} (h : HoldsSession conn sid session) : Extends conn sid (.deleteSession sid)
  | extend {session : SessionRow} (h : HoldsSession conn sid session) :
    Extends conn sid (.createSession (toInt session.userId) sid sessionTtlSeconds)

/-- The text in which the fields of an account are looked for. -/
def accountText (body : Bytes) : Bytes := ofMemory (body.take httpMaxBody)

/-- The request logs in to the account, with a password that its hash accepts. -/
structure LogsIn (env : ApiEnv) (req : HttpRequest) (preRead : Bytes) (conn : Conn) (row : UserRow) : Prop where
  path : req.path = ascii "/login"
  post : req.hasMethod "POST" = true
  account : row ∈ conn.db.users
  password : ∃ body password, readBody env req preRead = some body ∧
    jsonExtractString (accountText body) "username" 128 = some row.username ∧
    jsonExtractString (accountText body) "password" 128 = some password ∧
    env.verifyPassword password row.read.passwordHash = true

/-- The request asks for an account. -/
structure SignsUp (env : ApiEnv) (req : HttpRequest) (preRead username nickname passwordHash : Bytes) : Prop where
  path : req.path = ascii "/signup"
  post : req.hasMethod "POST" = true
  hashed : passwordHash ≠ []
  password : ∃ body password, readBody env req preRead = some body ∧
    jsonExtractString (accountText body) "username" dbMaxUsername = some username ∧
    jsonExtractString (accountText body) "password" 128 = some password ∧
    jsonExtractString (accountText body) "nickname" dbMaxNickname = some nickname ∧
    env.hashPassword password = passwordHash

/-- The request is an administrator's, and names the video. -/
structure Administers (env : ApiEnv) (req : HttpRequest) (preRead : Bytes) (conn : Conn) (videoId : Int) : Prop where
  session : SeenAsAdmin conn req
  path : req.path = ascii "/admin/video/delete" ∨ req.path = ascii "/admin/video/update"
  names : ∃ body, readBody env req preRead = some body ∧
    jsonExtractIntField (ofMemory (body ++ env.after)) "video_id" = some videoId ∧ 0 < videoId

/-- **The policy.** -/
inductive Entitled (env : ApiEnv) (req : HttpRequest) (preRead : Bytes) (conn : Conn) : Statement → Prop where
  | select : Entitled env req preRead conn .select
  | signup {username nickname passwordHash : Bytes} (h : SignsUp env req preRead username nickname passwordHash) :
    Entitled env req preRead conn (.createUser username nickname passwordHash)
  /-- The new account is the next one. -/
  | welcome {username nickname passwordHash sid : Bytes} (h : SignsUp env req preRead username nickname passwordHash)
      (hsid : env.sessionId = some sid) :
    Entitled env req preRead conn (.createSession (toInt (conn.db.userSeq + 1)) sid sessionTtlSeconds)
  | login {row : UserRow} {sid : Bytes} (h : LogsIn env req preRead conn row) (hsid : env.sessionId = some sid) :
    Entitled env req preRead conn (.createSession (toInt row.id) sid sessionTtlSeconds)
  | logout {sid : Bytes} (hpath : req.path = ascii "/logout")
      (hsid : sessionExtractFromHeaders req (sessionIdLen + 1) = some sid) :
    Entitled env req preRead conn (.deleteSession sid)
  | session {sid : Bytes} {s : Statement} (hsid : sessionExtractFromHeaders req (sessionIdLen + 1) = some sid)
      (h : Extends conn sid s) : Entitled env req preRead conn s
  | upload {title filePath : Bytes} {description thumbnailPath segmentPath : Option Bytes} {duration : Int}
      (hpath : req.path = ascii "/upload") :
    Entitled env req preRead conn (.createVideo title description filePath thumbnailPath segmentPath duration)
  /-- Its own video, which is the next one. -/
  | undo (hpath : req.path = ascii "/upload") :
    Entitled env req preRead conn (.deleteVideo (toInt (conn.db.videoSeq + 1)))
  | segment {path : Bytes} (hpath : req.path = ascii "/upload") :
    Entitled env req preRead conn (.updateSegmentPath (toInt (conn.db.videoSeq + 1)) path)
  | delete {videoId : Int} (h : Administers env req preRead conn videoId) :
    Entitled env req preRead conn (.deleteVideo videoId)
  | update {videoId : Int} {title description : Bytes} (h : Administers env req preRead conn videoId) :
    Entitled env req preRead conn (.updateMetadata videoId title description)

variable {conn conn' : Conn} {env : ApiEnv} {req : HttpRequest} {preRead body : Bytes}

/-! ### Sessions -/

theorem validateAndExtend_runs {sid : Bytes} {result : Option Int}
    (h : sessionValidateAndExtend conn sid sessionTtlSeconds = (result, conn')) : Runs (Extends conn sid) conn conn' := by
  unfold sessionValidateAndExtend at h
  split at h
  · rename_i hquery
    cases h
    exact runs_query .select hquery
  · rename_i session conn₁ hquery
    have hget : dbGetSession conn.db conn.stmt sid = .ok session := congrArg Prod.fst hquery
    obtain ⟨row, hmem, hid, hlive, hread⟩ := dbGetSession_ok hget
    have hholds : HoldsSession conn sid row := ⟨hmem, hid, hlive⟩
    rw [hread] at h
    have hruns : Runs (Extends conn sid) conn conn₁ := runs_query .select hquery
    split at h
    · rename_i hexpired
      cases h
      exact hruns.trans (runs_exec (.purge hholds) hexpired)
    · rename_i hexpired
      split at h
      rename_i hdelete
      have hpurged := (hruns.trans (runs_exec (.purge hholds) hexpired)).trans (runs_exec (.delete hholds) hdelete)
      split at h
      · rename_i hcreate
        cases h
        exact hpurged.trans (runs_exec (.extend hholds) hcreate)
      · rename_i hcreate
        cases h
        exact hpurged.trans (runs_exec (.extend hholds) hcreate)

theorem isAdminUser_runs {isAdmin : Bool} (h : isAdminUser conn req = (isAdmin, conn')) :
    Runs (Entitled env req preRead conn) conn conn' := by
  unfold isAdminUser at h
  split at h
  · cases h
    exact .refl _
  rename_i sid hsid
  split at h
  · rename_i hvalidate
    cases h
    exact (validateAndExtend_runs hvalidate).mono fun s => .session hsid
  · rename_i hvalidate
    have hruns : Runs (Entitled env req preRead conn) conn _ :=
      (validateAndExtend_runs hvalidate).mono fun s => .session hsid
    split at h
    · cases h
      exact hruns
    split at h
    · rename_i hquery
      cases h
      exact hruns.trans (runs_query .select hquery)
    · rename_i hquery
      cases h
      exact hruns.trans (runs_query .select hquery)

/-! ### Accounts -/

theorem dbGetUserByUsername_ok {db : Database} {stmt : Stmt} {username : Bytes} {user : UserRow}
    (h : dbGetUserByUsername db stmt username = .ok user) :
    ∃ row ∈ db.users, row.username = username ∧ row.read = user := by
  unfold dbGetUserByUsername at h
  split_ifs at h
  split at h
  · rename_i row hfind
    exact ⟨row, List.mem_of_find?_eq_some hfind, by simpa using List.find?_some hfind, Except.ok.inj h⟩
  · cases h

theorem handleLogin_runs (hpath : req.path = ascii "/login") (hbody : readBody env req preRead = some body) :
    Runs (Entitled env req preRead conn) conn (handleLogin env req conn body).conn := by
  unfold handleLogin
  split
  · exact .refl _
  split
  · exact .refl _
  split
  · exact .refl _
  rename_i hpost
  simp only
  split
  · rename_i user pass husername hpassword
    have hlogin {result : Option Bytes} {conn' : Conn} (h : sessionLogin env conn user pass = (result, conn')) :
        Runs (Entitled env req preRead conn) conn conn' := by
      unfold sessionLogin at h
      split at h
      · rename_i hquery
        cases h
        exact runs_query .select hquery
      · rename_i account conn₁ hquery
        obtain ⟨row, hrow, hname, rfl⟩ := dbGetUserByUsername_ok (congrArg Prod.fst hquery)
        have hruns : Runs (Entitled env req preRead conn) conn conn₁ := runs_query .select hquery
        split at h
        · cases h
          exact hruns
        rename_i hverify
        split at h
        · cases h
          exact hruns
        rename_i sid hsid
        have hlogs : LogsIn env req preRead conn row :=
          ⟨hpath, by simpa using hpost, hrow, body, pass, hbody, by rw [hname]; exact husername, hpassword,
            by simpa using hverify⟩
        split at h
        · rename_i hcreate
          cases h
          exact hruns.trans (runs_exec (.login hlogs hsid) hcreate)
        · rename_i hcreate
          cases h
          exact hruns.trans (runs_exec (.login hlogs hsid) hcreate)
    split
    · rename_i h
      exact hlogin h
    · rename_i h
      split
      · exact hlogin h
      · split
        · rename_i hquery
          exact (hlogin h).trans (runs_query .select hquery)
        · rename_i hquery
          exact (hlogin h).trans (runs_query .select hquery)
  · exact .refl _

theorem handleSignup_runs (hpath : req.path = ascii "/signup") (hbody : readBody env req preRead = some body) :
    Runs (Entitled env req preRead conn) conn (handleSignup env req conn body).conn := by
  unfold handleSignup
  split
  · exact .refl _
  split
  · exact .refl _
  split
  · exact .refl _
  rename_i hpost
  simp only
  split
  · rename_i username password nickname husername hpassword hnickname
    split
    · rename_i hquery
      exact runs_query .select hquery
    · rename_i rc conn₁ hquery
      have hruns : Runs (Entitled env req preRead conn) conn conn₁ := runs_query .select hquery
      have hconn₁ : conn.next conn.db = conn₁ := congrArg Prod.snd hquery
      split
      · exact hruns
      rename_i hhash
      have hsigns : SignsUp env req preRead username nickname (env.hashPassword password) :=
        ⟨hpath, by simpa using hpost, hhash, body, password, hbody, husername, hpassword, hnickname, rfl⟩
      have huser {id : Option Int} {b : Conn} (hcreate : (conn₁.insert fun db stmt =>
          dbCreateUser db stmt username nickname (env.hashPassword password) .user) = (id, b)) :
          Runs (Entitled env req preRead conn) conn b :=
        hruns.trans (runs_insert (.signup hsigns) (fun _ _ => rfl) hcreate)
      split
      · rename_i hcreate
        exact huser hcreate
      · rename_i userId conn₂ hcreate
        have hid : userId = toInt (conn.db.userSeq + 1) := by
          unfold Conn.insert at hcreate
          split at hcreate
          · rename_i id db hok
            cases hcreate
            rw [← hconn₁] at hok
            exact (dbCreateUser_ok hok).1
          · cases hcreate
        split
        · exact huser hcreate
        · rename_i sid hsid
          have hwelcome : Entitled env req preRead conn (.createSession userId sid sessionTtlSeconds) :=
            hid ▸ .welcome hsigns hsid
          split
          · rename_i hsession
            exact (huser hcreate).trans (runs_exec hwelcome hsession)
          · rename_i hsession
            split
            · exact (huser hcreate).trans (runs_exec hwelcome hsession)
            · exact (huser hcreate).trans (runs_exec hwelcome hsession)
  · exact .refl _

theorem handleLogout_runs (hpath : req.path = ascii "/logout") :
    Runs (Entitled env req preRead conn) conn (handleLogout env req conn).conn := by
  unfold handleLogout
  split
  · exact .refl _
  split
  · exact .refl _
  split
  · exact .refl _
  rename_i sid hsid
  split
  rename_i hlogout
  split
  · exact runs_exec (.logout hpath hsid) hlogout
  · exact runs_exec (.logout hpath hsid) hlogout

/-! ### Administration -/

theorem videoId_named {videoId : Int} {text : Bytes}
    (hpos : ¬ (jsonExtractIntField text "video_id").getD 0 ≤ 0)
    (hid : (jsonExtractIntField text "video_id").getD 0 = videoId) :
    jsonExtractIntField text "video_id" = some videoId ∧ 0 < videoId := by
  cases hfield : jsonExtractIntField text "video_id" with
  | none => simp [hfield] at hpos
  | some v =>
      rw [hfield, Option.getD_some] at hpos hid
      exact ⟨by rw [hid], by omega⟩

theorem handleAdminDelete_runs (hpath : req.path = ascii "/admin/video/delete")
    (hbody : readBody env req preRead = some body) :
    Runs (Entitled env req preRead conn) conn (handleAdminDelete env req conn (body ++ env.after)).conn := by
  unfold handleAdminDelete
  split
  · exact .refl _
  split
  · rename_i hadmin
    exact isAdminUser_runs hadmin
  · rename_i conn₁ hadmin
    have hruns : Runs (Entitled env req preRead conn) conn conn₁ := isAdminUser_runs hadmin
    simp only
    split
    · exact hruns
    rename_i hpos
    have hadministers :=
      Administers.mk (isAdminUser_true hadmin).1 (.inl hpath) ⟨body, hbody, videoId_named hpos rfl⟩
    split
    · rename_i hquery
      exact hruns.trans (runs_query .select hquery)
    · rename_i hquery
      exact (hruns.trans (runs_query .select hquery)).trans (runs_exec (.delete hadministers) rfl)

theorem handleAdminUpdate_runs (hpath : req.path = ascii "/admin/video/update")
    (hbody : readBody env req preRead = some body) :
    Runs (Entitled env req preRead conn) conn (handleAdminUpdate env req conn (body ++ env.after)).conn := by
  unfold handleAdminUpdate
  split
  · exact .refl _
  split
  · rename_i hadmin
    exact isAdminUser_runs hadmin
  · rename_i conn₁ hadmin
    have hruns : Runs (Entitled env req preRead conn) conn conn₁ := isAdminUser_runs hadmin
    simp only
    split
    · exact hruns
    rename_i hpos
    have hadministers :=
      Administers.mk (isAdminUser_true hadmin).1 (.inr hpath) ⟨body, hbody, videoId_named hpos rfl⟩
    split
    · rename_i hupdate
      exact hruns.trans (runs_exec (.update hadministers) hupdate)
    · rename_i hupdate
      exact hruns.trans (runs_exec (.update hadministers) hupdate)

theorem handleAdminList_runs : Runs (Entitled env req preRead conn) conn (handleAdminList env req conn).conn := by
  unfold handleAdminList
  split
  · exact .refl _
  split
  · rename_i hadmin
    exact isAdminUser_runs hadmin
  · rename_i conn₁ hadmin
    have hruns : Runs (Entitled env req preRead conn) conn conn₁ := isAdminUser_runs hadmin
    split
    · rename_i hquery
      exact hruns.trans (runs_query .select hquery)
    · rename_i hquery
      simp only
      split
      · exact hruns.trans (runs_query .select hquery)
      · exact hruns.trans (runs_query .select hquery)

/-! ### Uploads -/

theorem insertVideo_id {title filePath : Bytes} {description thumbnailPath segmentPath : Option Bytes}
    {duration videoId : Int} (h : (conn.insert fun db stmt =>
      dbCreateVideo db stmt title description filePath thumbnailPath segmentPath duration) = (some videoId, conn')) :
    videoId = toInt (conn.db.videoSeq + 1) := by
  cases hok : conn.stmt.ok with
  | false => simp [Conn.insert, dbCreateVideo, hok] at h
  | true =>
      simp only [Conn.insert, dbCreateVideo, hok, if_true, Prod.mk.injEq, Option.some.injEq] at h
      exact h.1.symm

theorem storeUpload_runs (hpath : req.path = ascii "/upload") (uenv : UploadEnv) (m : Multipart) :
    Runs (Entitled env req preRead conn) conn (storeUpload uenv conn m).conn := by
  unfold storeUpload
  split
  · exact .refl _
  simp only
  split
  · exact .refl _
  have hvideo {id : Option Int} {b : Conn} {title description filePath thumbnailPath : Bytes}
      (hcreate : (conn.insert fun db stmt => dbCreateVideo db stmt title (some description) filePath (some thumbnailPath)
        none uenv.duration) = (id, b)) : Runs (Entitled env req preRead conn) conn b :=
    runs_insert (.upload hpath) (fun _ _ => rfl) hcreate
  split
  · rename_i hcreate
    exact hvideo hcreate
  · rename_i videoId conn₁ hcreate
    have hruns := hvideo hcreate
    obtain rfl := insertVideo_id hcreate
    split
    · exact hruns.trans (runs_exec (.undo hpath) rfl)
    · exact hruns.trans (runs_exec (.segment hpath) rfl)

theorem handleUpload_runs (hpath : req.path = ascii "/upload") :
    Runs (Entitled env req preRead conn) conn (handleUpload env req conn body).conn := by
  unfold handleUpload
  split
  · exact .refl _
  split
  · exact .refl _
  split
  · exact .refl _
  split
  · exact .refl _
  unfold handleUploadRequest
  simp only
  split
  · exact .refl _
  split
  · exact .refl _
  split
  · exact .refl _
  · exact .refl _
  split
  · exact .refl _
  · exact storeUpload_runs hpath env.upload _

/-- **A request does what it is entitled to**, and nothing else, to the database. -/
theorem httpApiHandle_runs (env : ApiEnv) (req : HttpRequest) (preRead : Bytes) (conn : Conn) :
    Runs (Entitled env req preRead conn) conn (httpApiHandle env req preRead conn).conn := by
  unfold httpApiHandle
  split
  · exact .refl _
  split
  · exact .refl _
  split
  · exact .refl _
  rename_i body hbody
  split
  · rename_i hpath
    exact handleLogin_runs hpath hbody
  split
  · rename_i hpath
    exact handleSignup_runs hpath hbody
  split
  · rename_i hpath
    exact handleLogout_runs hpath
  split
  · rename_i hpath
    exact handleUpload_runs hpath
  split
  · rename_i hpath
    exact handleAdminDelete_runs hpath hbody
  split
  · rename_i hpath
    exact handleAdminUpdate_runs hpath hbody
  split
  · exact handleAdminList_runs
  · exact .refl _

end OttQuic.Http
