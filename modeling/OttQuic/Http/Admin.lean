import OttQuic.Auth.Validation
import OttQuic.Http.Api

/-!
# Who changes the video catalogue

Every handler either leaves the `videos` table alone (`Conn.KeepsVideos`), or has found an administrator's
session in the headers (`AdminSession`), or is the upload, which does not look for one.
`catalogue_changes_iff` is the claim that only administrators change the catalogue, with its condition:
an upload that goes through carries an administrator's session.
-/

namespace OttQuic.Http

open CString Db Auth

/-- The headers carry the id of a session that has not expired and belongs to an administrator. -/
def AdminSession (db : Database) (now : Int) (req : HttpRequest) : Prop :=
  ∃ sid, sessionExtractFromHeaders req (sessionIdLen + 1) = some sid ∧
    ∃ session ∈ db.sessions, session.sessionId = sid ∧ now < session.expiresAt ∧
      ∃ user ∈ db.users, user.id = session.userId ∧ user.role = .admin

/-- What `is_admin_user` looks at: the user whose id is that of the session's, as an `int`. -/
def SeenAsAdmin (conn : Conn) (req : HttpRequest) : Prop :=
  ∃ sid session user, sessionExtractFromHeaders req (sessionIdLen + 1) = some sid ∧
    dbGetSession conn.db ⟨true, conn.now⟩ sid = .ok session ∧ 0 < session.userId ∧
    dbGetUserById conn.db ⟨true, conn.now⟩ session.userId = .ok user ∧ user.role = .admin

/-- A delete or an update passes the checks of its handler, and names a video that is there. It executes so many
statements, those of `is_admin_user` first. -/
structure AdminPasses (env : ApiEnv) (req : HttpRequest) (conn : Conn) (memory : Bytes) (statements : Nat) : Prop where
  db : env.db = true
  seen : SeenAsAdmin conn req
  video : ∃ row ∈ conn.db.videos, 0 < row.id ∧
    jsonExtractIntField (ofMemory memory) "video_id" = some row.id
  executes : ∀ n < statements, conn.fates (conn.executed + n) = true

/-- The delete or update goes through. -/
structure AdminAccepted (env : ApiEnv) (req : HttpRequest) (preRead : Bytes) (conn : Conn) : Prop where
  length : contentLength req ≤ maxBody req
  passes : ∃ body, readBody env req preRead = some body ∧
    (req.path = ascii "/admin/video/delete" ∧ AdminPasses env req conn (body ++ env.after) 7 ∨
      req.path = ascii "/admin/video/update" ∧ AdminPasses env req conn (body ++ env.after) 6)

/-- No row of `videos` has been inserted, updated or deleted. -/
structure KeepsVideos (conn conn' : Conn) : Prop where
  videos : conn'.db.videos = conn.db.videos
  changes : conn'.db.videoChanges = conn.db.videoChanges

/-- The upload passes every check of the code up to the `INSERT` of its row, which executes. -/
structure UploadAccepted (env : ApiEnv) (req : HttpRequest) (preRead : Bytes) (conn : Conn) : Prop where
  path : req.path = ascii "/upload"
  length : contentLength req ≤ maxBody req
  malloc : contentLength req ≤ httpMaxBody ∨ env.malloc = true
  db : env.db = true
  method : req.hasMethod "OPTIONS" = false
  form : ∃ body ct boundary m, readBody env req preRead = some body ∧ body ≠ [] ∧
    body.length ≤ maxUploadBytes ∧ req.header (ascii "content-type") = some ct ∧
    uploadBoundary ct = .found boundary ∧ parseMultipart env.upload.malloc body boundary 128 256 = some m
  dirs : env.upload.dirs = true
  written : env.upload.writeOk = true
  insert : conn.stmt.ok = true

variable {conn conn' conn'' : Conn} {env : ApiEnv} {req : HttpRequest} {body preRead : Bytes}

/-! ### Statements that keep the catalogue -/

theorem KeepsVideos.refl : KeepsVideos conn conn := ⟨rfl, rfl⟩

theorem KeepsVideos.trans (h : KeepsVideos conn conn') (h' : KeepsVideos conn' conn'') :
    KeepsVideos conn conn'' :=
  ⟨h'.videos.trans h.videos, h'.changes.trans h.changes⟩

theorem keeps_query {α : Type} {f : Database → Stmt → Except Rc α} {result : Except Rc α}
    (h : conn.query f = (result, conn')) : KeepsVideos conn conn' := by
  cases h
  exact ⟨rfl, rfl⟩

theorem keeps_exec {f : Database → Stmt → Except Rc Database} {ok : Bool}
    (h : conn.exec f = (ok, conn'))
    (hf : ∀ db, f conn.db conn.stmt = .ok db →
      db.videos = conn.db.videos ∧ db.videoChanges = conn.db.videoChanges) :
    KeepsVideos conn conn' := by
  unfold Conn.exec at h
  split at h
  · rename_i db hok
    cases h
    exact ⟨(hf db hok).1, (hf db hok).2⟩
  · cases h
    exact ⟨rfl, rfl⟩

theorem keeps_createSession {userId ttl : Int} {sid : Bytes} {ok : Bool}
    (h : (conn.exec fun db stmt => dbCreateSession db stmt userId sid ttl) = (ok, conn')) :
    KeepsVideos conn conn' :=
  keeps_exec h fun db hdb => by
    obtain ⟨-, -, rfl⟩ := dbCreateSession_ok hdb
    exact ⟨rfl, rfl⟩

theorem keeps_deleteSession {sid : Bytes} {ok : Bool}
    (h : (conn.exec fun db stmt => dbDeleteSession db stmt sid) = (ok, conn')) :
    KeepsVideos conn conn' :=
  keeps_exec h fun db hdb => by
    rw [dbDeleteSession_ok hdb]
    exact ⟨rfl, rfl⟩

theorem keeps_deleteExpired {ok : Bool} (h : conn.exec dbDeleteExpiredSessions = (ok, conn')) :
    KeepsVideos conn conn' :=
  keeps_exec h fun db hdb => by
    rw [dbDeleteExpiredSessions_ok hdb]
    exact ⟨rfl, rfl⟩

theorem keeps_createUser {username nickname hash : Bytes} {role : Role} {result : Option Int}
    (h : (conn.insert fun db stmt => dbCreateUser db stmt username nickname hash role) =
      (result, conn')) : KeepsVideos conn conn' := by
  unfold Conn.insert at h
  split at h
  · rename_i id db hok
    cases h
    obtain ⟨-, rfl⟩ := dbCreateUser_ok hok
    exact ⟨rfl, rfl⟩
  · cases h
    exact ⟨rfl, rfl⟩

/-! ### Handlers that keep the catalogue -/

theorem keeps_validateAndExtend {sid : Bytes} {ttl : Int} {result : Option Int}
    (h : sessionValidateAndExtend conn sid ttl = (result, conn')) : KeepsVideos conn conn' := by
  unfold sessionValidateAndExtend at h
  split at h
  · rename_i hquery
    cases h
    exact keeps_query hquery
  · rename_i hquery
    split at h
    · rename_i hexpired
      cases h
      exact (keeps_query hquery).trans (keeps_deleteExpired hexpired)
    · rename_i hexpired
      split at h
      rename_i hdelete
      have hkept := ((keeps_query hquery).trans (keeps_deleteExpired hexpired)).trans
        (keeps_deleteSession hdelete)
      split at h
      · rename_i hcreate
        cases h
        exact hkept.trans (keeps_createSession hcreate)
      · rename_i hcreate
        cases h
        exact hkept.trans (keeps_createSession hcreate)

theorem keeps_login {username password : Bytes} {result : Option Bytes}
    (h : sessionLogin env conn username password = (result, conn')) : KeepsVideos conn conn' := by
  unfold sessionLogin at h
  split at h
  · rename_i hquery
    cases h
    exact keeps_query hquery
  · rename_i hquery
    have hkept := keeps_query hquery
    split at h
    · cases h
      exact hkept
    · split at h
      · cases h
        exact hkept
      · split at h
        · rename_i hcreate
          cases h
          exact hkept.trans (keeps_createSession hcreate)
        · rename_i hcreate
          cases h
          exact hkept.trans (keeps_createSession hcreate)

theorem handleLogin_keeps : KeepsVideos conn (handleLogin env req conn body).conn := by
  unfold handleLogin
  split
  · exact .refl
  split
  · exact .refl
  split
  · exact .refl
  simp only
  split
  · split
    · rename_i hlogin
      exact keeps_login hlogin
    · rename_i hlogin
      have hkept := keeps_login hlogin
      split
      · exact hkept
      · split
        · rename_i hquery
          exact hkept.trans (keeps_query hquery)
        · rename_i hquery
          exact hkept.trans (keeps_query hquery)
  · exact .refl

theorem handleSignup_keeps : KeepsVideos conn (handleSignup env req conn body).conn := by
  unfold handleSignup
  split
  · exact .refl
  split
  · exact .refl
  split
  · exact .refl
  simp only
  split
  · split
    · rename_i hquery
      exact keeps_query hquery
    · rename_i hquery
      have hkept := keeps_query hquery
      split
      · exact hkept
      · split
        · rename_i hcreate
          exact hkept.trans (keeps_createUser hcreate)
        · rename_i hcreate
          have hkept' := hkept.trans (keeps_createUser hcreate)
          split
          · exact hkept'
          · split
            · rename_i hsession
              exact hkept'.trans (keeps_createSession hsession)
            · rename_i hsession
              split
              · exact hkept'.trans (keeps_createSession hsession)
              · exact hkept'.trans (keeps_createSession hsession)
  · exact .refl

theorem handleLogout_keeps : KeepsVideos conn (handleLogout env req conn).conn := by
  unfold handleLogout
  split
  · exact .refl
  split
  · exact .refl
  split
  · exact .refl
  split
  rename_i hlogout
  split
  · exact keeps_deleteSession hlogout
  · exact keeps_deleteSession hlogout

theorem keeps_isAdminUser {isAdmin : Bool} (h : isAdminUser conn req = (isAdmin, conn')) :
    KeepsVideos conn conn' := by
  unfold isAdminUser at h
  split at h
  · cases h
    exact .refl
  split at h
  · rename_i hvalidate
    cases h
    exact keeps_validateAndExtend hvalidate
  · rename_i hvalidate
    have hkept := keeps_validateAndExtend hvalidate
    split at h
    · cases h
      exact hkept
    split at h
    · rename_i hquery
      cases h
      exact hkept.trans (keeps_query hquery)
    · rename_i hquery
      cases h
      exact hkept.trans (keeps_query hquery)

theorem handleAdminList_keeps : KeepsVideos conn (handleAdminList env req conn).conn := by
  unfold handleAdminList
  split
  · exact .refl
  split
  · rename_i hadmin
    exact keeps_isAdminUser hadmin
  · rename_i hadmin
    have hkept := keeps_isAdminUser hadmin
    split
    · rename_i hquery
      exact hkept.trans (keeps_query hquery)
    · rename_i hquery
      simp only
      split
      · exact hkept.trans (keeps_query hquery)
      · exact hkept.trans (keeps_query hquery)

/-! ### What `is_admin_user` checks -/

theorem dbGetUserById_fate {user : UserRow} {userId : Int} (h : dbGetUserById conn.db conn.stmt userId = .ok user) :
    conn.fates conn.executed = true ∧ dbGetUserById conn.db ⟨true, conn.now⟩ userId = .ok user := by
  rw [dbGetUserById, Conn.stmt] at h
  split_ifs at h with hfate
  exact ⟨hfate, h⟩

theorem isAdminUser_true (h : isAdminUser conn req = (true, conn')) :
    SeenAsAdmin conn req ∧ (∀ n < 5, conn.fates (conn.executed + n) = true) ∧ conn.Later conn' 5 := by
  unfold isAdminUser at h
  split at h
  · cases h
  rename_i sid hsid
  split at h
  · cases h
  rename_i userId conn₁ hvalidate
  obtain ⟨hfates, ⟨row, hfind, huser, -⟩, hlater, husers⟩ := sessionValidateAndExtend_some hvalidate
  split at h
  · cases h
  rename_i hpositive
  unfold Conn.query at h
  simp only at h
  split at h
  · cases h
  rename_i user conn₂ hquery
  simp only [Prod.mk.injEq] at hquery h
  obtain ⟨hlast, hget⟩ := dbGetUserById_fate hquery.1
  refine ⟨⟨sid, row.read, user, hsid, ?_, ?_, ?_, isAdminRole_iff.mp h.1⟩, fun n hn => ?_, ?_⟩
  · simp only [dbGetSession, if_true, hfind]
  · show 0 < toInt row.userId
    rw [huser]
    omega
  · show dbGetUserById conn.db ⟨true, conn.now⟩ (toInt row.userId) = .ok user
    rwa [huser, dbGetUserById, ← husers, ← hlater.now]
  · rcases Nat.lt_succ_iff_lt_or_eq.mp hn with hlt | rfl
    · exact hfates n hlt
    · rwa [hlater.fate] at hlast
  · rw [← h.2, ← hquery.2]
    exact hlater.next _

theorem SeenAsAdmin.isAdminUser (h : SeenAsAdmin conn req)
    (hfates : ∀ n < 5, conn.fates (conn.executed + n) = true) : ∃ conn', isAdminUser conn req = (true, conn') := by
  obtain ⟨sid, session, user, hsid, hget, hpositive, huser, hrole⟩ := h
  have hfate : conn.fates conn.executed = true := hfates 0 (by omega)
  rw [show (⟨true, conn.now⟩ : Stmt) = conn.stmt by rw [Conn.stmt, hfate]] at hget
  obtain ⟨-, row, rfl, hfind⟩ := dbGetSession_fate hget
  have hthere : conn.db.HasUser (toInt row.userId) := by
    obtain ⟨found, hmem, hid, -⟩ := dbGetUserById_ok huser
    exact ⟨found, hmem, hid⟩
  have hinsert : Reinserts conn row sessionTtlSeconds := ⟨hfates 3 (by omega), hthere, by decide⟩
  obtain ⟨conn', hvalidate, hlater, husers⟩ :=
    sessionValidateAndExtend_inserted hfate hfind (hfates 1 (by omega)) (hfates 2 (by omega)) hinsert
  have hlast : conn'.stmt = ⟨true, conn.now⟩ := by
    rw [Conn.stmt, hlater.fate, hfates 4 (by omega), hlater.now]
  have hget' : dbGetUserById conn'.db conn'.stmt (toInt row.userId) = .ok user := by
    rw [hlast, ← show dbGetUserById conn.db ⟨true, conn.now⟩ (toInt row.userId) = .ok user from huser, dbGetUserById,
      dbGetUserById, husers]
  have hpositive' : ¬ toInt row.userId ≤ 0 := not_le_of_gt hpositive
  refine ⟨conn'.next conn'.db, ?_⟩
  simp only [Http.isAdminUser, hsid, hvalidate, if_neg hpositive', Conn.query, hget', isAdminRole_iff.mpr hrole]

theorem SeenAsAdmin.session (h : SeenAsAdmin conn req) : ∃ sid,
    sessionExtractFromHeaders req (sessionIdLen + 1) = some sid ∧
      ∃ session ∈ conn.db.sessions, session.sessionId = sid ∧ conn.now < session.expiresAt ∧
        ∃ user ∈ conn.db.users, user.id = toInt session.userId ∧ user.role = .admin := by
  obtain ⟨sid, session, user, hsid, hget, -, huser, hrole⟩ := h
  obtain ⟨row, hmem, hid, hlive, hread⟩ := dbGetSession_ok hget
  obtain ⟨found, hfound, hid', hrole'⟩ := dbGetUserById_ok huser
  exact ⟨sid, hsid, row, hmem, hid, hlive, found, hfound, hid'.trans hread, hrole'.trans hrole⟩

/-! ### Handlers that change the catalogue -/

theorem lt_add_countP {videos : List VideoRow} {videoId : Int} (n : Nat) (h : ∃ row ∈ videos, row.id = videoId) :
    n < n + videos.countP fun row => row.id = videoId := by
  obtain ⟨row, hrow, hid⟩ := h
  exact Nat.lt_add_of_pos_right (List.countP_pos_iff.mpr ⟨row, hrow, decide_eq_true hid⟩)

theorem countP_absent {videos : List VideoRow} {videoId : Int} (h : ¬ ∃ row ∈ videos, row.id = videoId) :
    (videos.countP fun row => row.id = videoId) = 0 :=
  List.countP_eq_zero.mpr fun row hrow hid => h ⟨row, hrow, of_decide_eq_true hid⟩

theorem updateVideo_absent {db : Database} {videoId : Int} {f : VideoRow → VideoRow}
    (h : ¬ ∃ row ∈ db.videos, row.id = videoId) : (db.updateVideo videoId f).videos = db.videos :=
  (List.map_congr_left fun row hrow => if_neg fun hid => h ⟨row, hrow, hid⟩).trans (List.map_id _)

theorem video_named {videoId : Int} {memory : Bytes}
    (hid : (jsonExtractIntField (ofMemory memory) "video_id").getD 0 = videoId) (hpositive : ¬ videoId ≤ 0)
    (hthere : ∃ row ∈ conn.db.videos, row.id = videoId) :
    ∃ row ∈ conn.db.videos, 0 < row.id ∧ jsonExtractIntField (ofMemory memory) "video_id" = some row.id := by
  obtain ⟨row, hrow, rfl⟩ := hthere
  refine ⟨row, hrow, by omega, ?_⟩
  cases hread : jsonExtractIntField (ofMemory memory) "video_id" with
  | none =>
      rw [hread] at hid
      exact absurd hid.symm.le hpositive
  | some n => rw [hread] at hid; exact congrArg some hid

theorem executes_succ {n : Nat} (h : ∀ m < n, conn.fates (conn.executed + m) = true)
    (hlast : conn.fates (conn.executed + n) = true) : ∀ m < n + 1, conn.fates (conn.executed + m) = true :=
  fun m hm => (Nat.lt_succ_iff_lt_or_eq.mp hm).elim (h m) fun heq => heq ▸ hlast

theorem handleAdminDelete_keeps {memory : Bytes} :
    KeepsVideos conn (handleAdminDelete env req conn memory).conn ∨ AdminPasses env req conn memory 7 := by
  unfold handleAdminDelete
  split
  · exact .inl .refl
  rename_i hdb
  split
  · rename_i hadmin
    exact .inl (keeps_isAdminUser hadmin)
  rename_i conn₅ hadmin
  have hkept := keeps_isAdminUser hadmin
  obtain ⟨hseen, hfates, hlater⟩ := isAdminUser_true hadmin
  simp only
  split
  · exact .inl hkept
  rename_i hpositive
  split
  · rename_i hquery
    exact .inl (hkept.trans (keeps_query hquery))
  rename_i video conn₆ hquery
  have hget : dbGetVideoById conn₅.db conn₅.stmt _ = .ok video := congrArg Prod.fst hquery
  obtain rfl : conn₅.next conn₅.db = conn₆ := congrArg Prod.snd hquery
  obtain ⟨row, hrow, hid, -⟩ := dbGetVideoById_ok hget
  have hsixth : conn.fates (conn.executed + 5) = true := by
    rw [← hlater.fate]
    unfold dbGetVideoById Conn.stmt at hget
    split_ifs at hget with hfate
    exact hfate
  cases hlast : conn.fates (conn.executed + 6) with
  | true =>
      refine .inr ⟨by simpa using hdb, hseen, video_named rfl hpositive ⟨row, hkept.videos ▸ hrow, hid⟩, ?_⟩
      exact executes_succ (executes_succ hfates hsixth) hlast
  | false =>
      have hfails : (conn₅.next conn₅.db).stmt.ok = false := ((hlater.next conn₅.db).fate).trans hlast
      refine .inl (hkept.trans ((keeps_query hquery).trans (keeps_exec (Prod.ext rfl rfl) fun db hok => ?_)))
      rw [dbDeleteVideoById, hfails] at hok
      cases hok

theorem AdminPasses.delete_changes {memory : Bytes} (h : AdminPasses env req conn memory 7) :
    conn.db.videoChanges < (handleAdminDelete env req conn memory).conn.db.videoChanges := by
  obtain ⟨hdb, hseen, ⟨row, hrow, hpositive, hread⟩, hfates⟩ := h
  obtain ⟨conn₅, hadmin⟩ := hseen.isAdminUser fun n hn => hfates n (by omega)
  have hkept := keeps_isAdminUser hadmin
  obtain ⟨-, -, hlater⟩ := isAdminUser_true hadmin
  have hthere : ∃ row' ∈ conn₅.db.videos, row'.id = row.id := ⟨row, hkept.videos ▸ hrow, rfl⟩
  have hstmt : conn₅.stmt.ok = true := hlater.fate.trans (hfates 5 (by omega))
  have hstmt' : (conn₅.next conn₅.db).stmt.ok = true := (hlater.next conn₅.db).fate.trans (hfates 6 (by omega))
  obtain ⟨video, hget⟩ : ∃ video, dbGetVideoById conn₅.db conn₅.stmt row.id = .ok video := by
    rw [dbGetVideoById, if_pos hstmt]
    cases hfind : conn₅.db.videos.find? (fun row' => row'.id = row.id) with
    | none =>
        obtain ⟨row', hrow', hid⟩ := hthere
        exact absurd (decide_eq_true hid) (List.find?_eq_none.mp hfind row' hrow')
    | some found => exact ⟨_, rfl⟩
  rw [handleAdminDelete, if_neg (by simp [hdb]), hadmin]
  simp only [hread, Option.getD_some, if_neg (not_le_of_gt hpositive), Conn.query, hget, Conn.exec, dbDeleteVideoById,
    hstmt', if_true, Conn.next_db]
  rw [← hkept.changes]
  exact lt_add_countP _ hthere

theorem handleAdminUpdate_keeps {memory : Bytes} :
    KeepsVideos conn (handleAdminUpdate env req conn memory).conn ∨ AdminPasses env req conn memory 6 := by
  unfold handleAdminUpdate
  split
  · exact .inl .refl
  rename_i hdb
  split
  · rename_i hadmin
    exact .inl (keeps_isAdminUser hadmin)
  rename_i conn₅ hadmin
  have hkept := keeps_isAdminUser hadmin
  obtain ⟨hseen, hfates, hlater⟩ := isAdminUser_true hadmin
  simp only
  split
  · exact .inl hkept
  rename_i hpositive
  by_cases hpasses : conn.fates (conn.executed + 5) = true ∧
      ∃ row ∈ conn.db.videos, row.id = (jsonExtractIntField (ofMemory memory) "video_id").getD 0
  · exact .inr ⟨by simpa using hdb, hseen, video_named rfl hpositive hpasses.2, executes_succ hfates hpasses.1⟩
  · have hkeeps (db : Database) (hok : dbUpdateVideoMetadata conn₅.db conn₅.stmt
        ((jsonExtractIntField (ofMemory memory) "video_id").getD 0)
        ((jsonExtractString (ofMemory memory) "title" dbMaxTitle).getD [])
        ((jsonExtractString (ofMemory memory) "description" dbMaxDescription).getD []) = .ok db) :
        db.videos = conn₅.db.videos ∧ db.videoChanges = conn₅.db.videoChanges := by
      -- the statement executes, so it finds no row
      unfold dbUpdateVideoMetadata at hok
      split_ifs at hok with hstmt
      have habsent := not_and.mp hpasses (hlater.fate.symm.trans hstmt)
      rw [← hkept.videos] at habsent
      obtain rfl := Except.ok.inj hok
      exact ⟨updateVideo_absent habsent, by rw [Database.updateVideo, countP_absent habsent, Nat.add_zero]⟩
    left
    split
    · rename_i hexec
      exact hkept.trans (keeps_exec hexec hkeeps)
    · rename_i hexec
      exact hkept.trans (keeps_exec hexec hkeeps)

theorem AdminPasses.update_changes {memory : Bytes} (h : AdminPasses env req conn memory 6) :
    conn.db.videoChanges < (handleAdminUpdate env req conn memory).conn.db.videoChanges := by
  obtain ⟨hdb, hseen, ⟨row, hrow, hpositive, hread⟩, hfates⟩ := h
  obtain ⟨conn₅, hadmin⟩ := hseen.isAdminUser fun n hn => hfates n (by omega)
  have hkept := keeps_isAdminUser hadmin
  obtain ⟨-, -, hlater⟩ := isAdminUser_true hadmin
  have hstmt : conn₅.stmt.ok = true := hlater.fate.trans (hfates 5 (by omega))
  rw [handleAdminUpdate, if_neg (by simp [hdb]), hadmin]
  simp only [hread, Option.getD_some, if_neg (not_le_of_gt hpositive), Conn.exec, dbUpdateVideoMetadata,
    hstmt, if_true]
  show conn.db.videoChanges < conn₅.db.videoChanges + _
  rw [← hkept.changes]
  exact lt_add_countP _ ⟨row, hkept.videos ▸ hrow, rfl⟩

theorem exec_changes (conn : Conn) {f : Database → Stmt → Except Rc Database}
    (hf : ∀ db, f conn.db conn.stmt = .ok db → conn.db.videoChanges ≤ db.videoChanges) :
    conn.db.videoChanges ≤ (conn.exec f).2.db.videoChanges := by
  unfold Conn.exec
  split
  · rename_i db hok
    exact hf db hok
  · exact Nat.le_refl _

theorem storeUpload_changes (uenv : UploadEnv) (conn : Conn) (m : Multipart) :
    KeepsVideos conn (storeUpload uenv conn m).conn ∨
      uenv.dirs = true ∧ uenv.writeOk = true ∧ conn.stmt.ok = true := by
  unfold storeUpload
  split
  · exact .inl .refl
  rename_i hdirs
  simp only
  split
  · exact .inl .refl
  rename_i hwritten
  cases hok : conn.stmt.ok with
  | true => exact .inr ⟨by simpa using hdirs, by simpa using hwritten, rfl⟩
  | false =>
      left
      simp [Conn.insert, dbCreateVideo, hok]
      exact ⟨rfl, rfl⟩

/-- An upload whose row is inserted has changed the catalogue, also when the row is deleted again. -/
theorem storeUpload_accepted {uenv : UploadEnv} {m : Multipart} (hdirs : uenv.dirs = true)
    (hwritten : uenv.writeOk = true) (hinsert : conn.stmt.ok = true) :
    conn.db.videoChanges < (storeUpload uenv conn m).conn.db.videoChanges := by
  unfold storeUpload
  simp only [hdirs, hwritten, Bool.true_eq_false, if_false]
  split
  · rename_i hnone
    simp [Conn.insert, dbCreateVideo, hinsert] at hnone
  · rename_i videoId conn₁ hsome
    have hchanges : conn₁.db.videoChanges = conn.db.videoChanges + 1 := by
      unfold Conn.insert at hsome
      split at hsome
      · rename_i id db hok
        cases hsome
        exact (dbCreateVideo_ok hok).2
      · cases hsome
    split
    · have hle := exec_changes conn₁ (f := fun db stmt => dbDeleteVideoById db stmt videoId)
        fun _ => dbDeleteVideoById_changes
      show conn.db.videoChanges < (conn₁.exec _).2.db.videoChanges
      omega
    · have hle := exec_changes conn₁
        (f := fun db stmt =>
          dbUpdateVideoSegmentPath db stmt videoId (ascii "data/segments/" ++ decimal videoId))
        fun _ => dbUpdateVideoSegmentPath_changes
      show conn.db.videoChanges < (conn₁.exec _).2.db.videoChanges
      omega

/-! ### The whole request -/

theorem handleUpload_keeps (conn : Conn) (hbody : readBody env req preRead = some body) :
    KeepsVideos conn (handleUpload env req conn body).conn ∨
      env.db = true ∧ req.hasMethod "OPTIONS" = false ∧
        (∃ body ct boundary m, readBody env req preRead = some body ∧ body ≠ [] ∧
          body.length ≤ maxUploadBytes ∧ req.header (ascii "content-type") = some ct ∧
          uploadBoundary ct = .found boundary ∧
          parseMultipart env.upload.malloc body boundary 128 256 = some m) ∧
        env.upload.dirs = true ∧ env.upload.writeOk = true ∧ conn.stmt.ok = true := by
  unfold handleUpload
  split
  · exact .inl .refl
  rename_i hdb
  split
  · exact .inl .refl
  rename_i hmethod
  split
  · exact .inl .refl
  rename_i hnil
  split
  · exact .inl .refl
  rename_i ct hct
  simp only
  unfold handleUploadRequest
  rw [if_neg hnil]
  split
  · exact .inl .refl
  rename_i hlen
  split
  · exact .inl .refl
  · exact .inl .refl
  rename_i boundary hboundary
  split
  · exact .inl .refl
  rename_i m hm
  rcases storeUpload_changes env.upload conn m with hkept | hpassed
  · exact .inl hkept
  · exact .inr ⟨by simpa using hdb, by simpa using hmethod,
      ⟨body, ct, boundary, m, hbody, hnil, by omega, hct, hboundary, hm⟩, hpassed⟩

/-- The request inserts, updates or deletes a row of `videos`. -/
def ChangesVideos (env : ApiEnv) (req : HttpRequest) (preRead : Bytes) (conn : Conn) : Prop :=
  (httpApiHandle env req preRead conn).conn.db.videos ≠ conn.db.videos ∨
    (httpApiHandle env req preRead conn).conn.db.videoChanges ≠ conn.db.videoChanges

/-- **Every request** keeps the catalogue, or is an upload, a delete or an update that goes through. -/
theorem httpApiHandle_keeps (env : ApiEnv) (req : HttpRequest) (preRead : Bytes) (conn : Conn) :
    KeepsVideos conn (httpApiHandle env req preRead conn).conn ∨
      UploadAccepted env req preRead conn ∨ AdminAccepted env req preRead conn := by
  unfold httpApiHandle
  split
  · exact .inl .refl
  rename_i hlength
  split
  · exact .inl .refl
  rename_i hmalloc
  split
  · exact .inl .refl
  rename_i body hbody
  split
  · exact .inl handleLogin_keeps
  split
  · exact .inl handleSignup_keeps
  split
  · exact .inl handleLogout_keeps
  split
  · rename_i hpath
    rcases handleUpload_keeps conn hbody with
      hkept | ⟨hdb, hmethod, hform, hdirs, hwritten, hinsert⟩
    · exact .inl hkept
    · refine .inr (.inl ⟨hpath, by omega, ?_, hdb, hmethod, hform, hdirs, hwritten, hinsert⟩)
      by_cases hsmall : contentLength req ≤ httpMaxBody
      · exact .inl hsmall
      · right
        by_contra hfail
        exact hmalloc ⟨by simpa [HttpRequest.isUpload] using hpath, by omega, by simpa using hfail⟩
  split
  · rename_i hpath
    exact handleAdminDelete_keeps.imp_right fun hpasses => .inr ⟨by omega, body, hbody, .inl ⟨hpath, hpasses⟩⟩
  split
  · rename_i hpath
    exact handleAdminUpdate_keeps.imp_right fun hpasses => .inr ⟨by omega, body, hbody, .inr ⟨hpath, hpasses⟩⟩
  split
  · exact .inl handleAdminList_keeps
  · exact .inl .refl

theorem UploadAccepted.changes (h : UploadAccepted env req preRead conn) :
    conn.db.videoChanges < (httpApiHandle env req preRead conn).conn.db.videoChanges := by
  obtain ⟨hpath, hlength, hmalloc, hdb, hmethod, ⟨body, ct, boundary, m, hbody, hnil, hlen, hct, hboundary,
    hm⟩, hdirs, hwritten, hinsert⟩ := h
  have hlogin : req.path ≠ ascii "/login" := by rw [hpath]; decide
  have hsignup : req.path ≠ ascii "/signup" := by rw [hpath]; decide
  have hlogout : req.path ≠ ascii "/logout" := by rw [hpath]; decide
  have hoom : ¬ (req.isUpload ∧ contentLength req > httpMaxBody ∧ env.malloc = false) := by
    intro ⟨_, hlarge, hfail⟩
    rcases hmalloc with hsmall | hok
    · omega
    · rw [hok] at hfail
      cases hfail
  unfold httpApiHandle
  rw [if_neg (by omega), if_neg hoom]
  simp only [hbody, if_neg hlogin, if_neg hsignup, if_neg hlogout, if_pos hpath]
  unfold handleUpload
  rw [if_neg (by simp [hdb]), if_neg (by simp [hmethod]), if_neg hnil]
  simp only [hct]
  unfold handleUploadRequest
  rw [if_neg hnil, if_neg (by omega)]
  simp only [hboundary, hm]
  exact storeUpload_accepted hdirs hwritten hinsert

theorem AdminAccepted.changes (h : AdminAccepted env req preRead conn) :
    conn.db.videoChanges < (httpApiHandle env req preRead conn).conn.db.videoChanges := by
  obtain ⟨hlength, body, hbody, ⟨hpath, hpasses⟩ | ⟨hpath, hpasses⟩⟩ := h
  all_goals
    have hlogin : req.path ≠ ascii "/login" := by rw [hpath]; decide
    have hsignup : req.path ≠ ascii "/signup" := by rw [hpath]; decide
    have hlogout : req.path ≠ ascii "/logout" := by rw [hpath]; decide
    have hupload : req.path ≠ ascii "/upload" := by rw [hpath]; decide
    have hoom : ¬ (req.isUpload ∧ contentLength req > httpMaxBody ∧ env.malloc = false) := fun hoom =>
      hupload (by simpa [HttpRequest.isUpload] using hoom.1)
    unfold httpApiHandle
    rw [if_neg (by omega), if_neg hoom]
    simp only [hbody, if_neg hlogin, if_neg hsignup, if_neg hlogout, if_neg hupload]
  · simp only [if_pos hpath]
    exact hpasses.delete_changes
  · have hdelete : req.path ≠ ascii "/admin/video/delete" := by rw [hpath]; decide
    simp only [if_neg hdelete, if_pos hpath]
    exact hpasses.update_changes

theorem changesVideos_iff (env : ApiEnv) (req : HttpRequest) (preRead : Bytes) (conn : Conn) :
    ChangesVideos env req preRead conn ↔ UploadAccepted env req preRead conn ∨ AdminAccepted env req preRead conn := by
  constructor
  · intro h
    refine (httpApiHandle_keeps env req preRead conn).resolve_left fun hkept => ?_
    exact h.elim (absurd hkept.videos) (absurd hkept.changes)
  · rintro (h | h)
    · exact .inr (Nat.ne_of_gt h.changes)
    · exact .inr (Nat.ne_of_gt h.changes)

/-- When the ids of the users with a session are `int`s, a delete or an update that goes through is an
administrator's. -/
theorem AdminAccepted.adminSession (h : AdminAccepted env req preRead conn)
    (hids : ∀ session ∈ conn.db.sessions, toInt session.userId = session.userId) :
    AdminSession conn.db conn.now req := by
  obtain ⟨-, body, -, hpasses⟩ := h
  have hseen : SeenAsAdmin conn req := hpasses.elim (fun h => h.2.seen) fun h => h.2.seen
  obtain ⟨sid, hsid, session, hsession, hid, hlive, user, huser, huserId, hrole⟩ := hseen.session
  exact ⟨sid, hsid, session, hsession, hid, hlive, user, huser, huserId.trans (hids session hsession), hrole⟩

/-- **Who changes the video catalogue.** Handling a request that inserts, updates or deletes a row of
`videos` implies that its headers carry an administrator's session, exactly when that holds of an upload
that goes through, and of a delete or an update for a session whose user's id is cut to an administrator's. -/
theorem catalogue_changes_iff (env : ApiEnv) (req : HttpRequest) (preRead : Bytes) (conn : Conn) :
    (ChangesVideos env req preRead conn → AdminSession conn.db conn.now req) ↔
      (UploadAccepted env req preRead conn → AdminSession conn.db conn.now req) ∧
        (AdminAccepted env req preRead conn → AdminSession conn.db conn.now req) := by
  rw [changesVideos_iff, or_imp]

/-- A form with one file of one byte. -/
def sampleForm : Bytes :=
  ascii "--B1\r\nContent-Disposition: form-data; name=\"file\"; filename=\"a\"\r\n\r\nX\r\n--B1--"

/-- The upload of the form, without a session. -/
def sampleUpload : HttpRequest where
  method := ascii "POST"
  path := ascii "/upload"
  version := ascii "HTTP/1.1"
  headers := [(ascii "content-type", ascii "multipart/form-data; boundary=B1"),
    (ascii "content-length", decimal sampleForm.length)]

def sampleApiEnv : ApiEnv where
  db := true
  verifyPassword _ _ := false
  hashPassword _ := []
  sessionId := none
  staleNickname := []
  malloc := true
  incoming := []
  after := []
  upload := ⟨fun _ => true, true, 1, true, 0, 0⟩
  staticFile _ := textReply "404 Not Found" "not-found"

/-- The tables are empty and every statement executes. -/
def emptyConn : Conn := ⟨⟨[], [], [], [], 0, 0, 0⟩, 0, fun _ => true, 0⟩

/-- Anyone can add a video: the upload has no session at all. -/
theorem catalogue_changed_by_anyone :
    ¬ ∀ (env : ApiEnv) (req : HttpRequest) (preRead : Bytes) (conn : Conn),
      (httpApiHandle env req preRead conn).conn.db.videoChanges ≠ conn.db.videoChanges →
        AdminSession conn.db conn.now req := by
  intro h
  have hupload : UploadAccepted sampleApiEnv sampleUpload sampleForm emptyConn := by
    refine ⟨rfl, by decide, .inr rfl, rfl, by decide,
      ⟨sampleForm, ascii "multipart/form-data; boundary=B1", ascii "--B1",
        ⟨some (ascii "X"), 1, [], [], 1⟩, by decide⟩, rfl, rfl, rfl⟩
  obtain ⟨sid, hsid, -⟩ := h _ _ _ _ (Nat.ne_of_gt hupload.changes)
  exact absurd hsid (by
    rw [show sessionExtractFromHeaders sampleUpload (sessionIdLen + 1) = none by decide]
    simp)

end OttQuic.Http
