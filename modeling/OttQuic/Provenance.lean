import OttQuic.Requests

/-!
# Where sessions come from

What a request may do depends on the sessions that are in the table, so it matters how they got there. `Request.Opens`
is the only way: a login with a password that the account accepts, or a signup, for the account it makes. A session can
be extended any number of times, by requests of any kind, and still goes back to one of the two (`sessions_earned`).
All of this is for ids that are an `int` (`IdsFit`): a larger one is cut, and may be another user's.

Administrators do not sign up. So who acts as one has logged in with the password of an account that was an
administrator's from the beginning (`admin_earned`), and without such a login the videos of the catalogue stay as they
are (`videos_protected`): uploads add to them, and no other request touches them.
-/

namespace OttQuic

open Auth CString Db Http Transition WebSocket

/-- The request opens the session for the user. -/
inductive Request.Opens (conn : Conn) (sid : Bytes) : Int → Request → Prop where
  | login {env : ApiEnv} {req : HttpRequest} {preRead : Bytes} {row : UserRow} (h : LogsIn env req preRead conn row)
      (hsid : env.sessionId = some sid) : Opens conn sid row.id (.api env req preRead)
  /-- The new account is the next one. -/
  | signup {env : ApiEnv} {req : HttpRequest} {preRead username nickname passwordHash : Bytes}
      (h : SignsUp env req preRead username nickname passwordHash) (hsid : env.sessionId = some sid) :
    Opens conn sid (conn.db.userSeq + 1) (.api env req preRead)

variable {conn conn' : Conn} {rs : List Request} {request : Request}

/-! ### Sessions -/

/-- One request: a session that is there now belongs to the one who had it before, or the request opens it. -/
theorem Request.sessions {row : SessionRow} (hschema : Schema conn.db) (hfit : IdsFit conn.db)
    (hrow : row ∈ (request.run conn).db.sessions) :
    (∃ old ∈ conn.db.sessions, old.sessionId = row.sessionId ∧ old.userId = row.userId) ∨
      request.Opens conn row.sessionId row.userId := by
  obtain ⟨conn', hruns, hdb⟩ := request.runs conn
  rw [hdb] at hrow
  rcases hruns.sessions row hrow with hold | ⟨ttlSeconds, hentitled⟩
  · exact .inl ⟨row, hold, rfl, rfl⟩
  generalize hs : Statement.createSession row.userId row.sessionId ttlSeconds = s at hentitled
  have hextends {sid : Bytes} (h : Extends conn sid s) :
      ∃ old ∈ conn.db.sessions, old.sessionId = row.sessionId ∧ old.userId = row.userId := by
    cases h with
    | @extend session h =>
        obtain ⟨huser, hsid, -⟩ := Statement.createSession.inj hs
        rw [hschema.toInt_sessionUser hfit h.row] at huser
        exact ⟨session, h.row, h.id.trans hsid.symm, huser.symm⟩
    | _ => cases hs
  cases request with
  | api env req preRead =>
      cases hentitled with
      | welcome h hsid =>
          rw [(Statement.createSession.inj hs).1, hschema.toInt_nextUser hfit]
          exact .inr (.signup h ((Statement.createSession.inj hs).2.1 ▸ hsid))
      | login h hsid =>
          rw [(Statement.createSession.inj hs).1, hschema.toInt_userId hfit h.account]
          exact .inr (.login h ((Statement.createSession.inj hs).2.1 ▸ hsid))
      | session hsid h => exact .inl (hextends h)
      | _ => cases hs
  | upgrade sessionId => exact .inl (hextends hentitled)
  | frame env io received userId =>
      cases hentitled with
      | _ => cases hs
  | wait seconds => exact hentitled.elim

/-- After any requests, a session of a user is one that the user had before them, or one of the requests has opened it
for this user. -/
theorem session_opened (hschema : Schema conn.db) (h : requests.Run conn rs conn') (hfit : IdsFit conn'.db) :
    ∀ row ∈ conn'.db.sessions,
      (∃ old ∈ conn.db.sessions, old.sessionId = row.sessionId ∧ old.userId = row.userId) ∨
        Sometime conn rs fun mid request => request.Opens mid row.sessionId row.userId := by
  induction h with
  | nil => exact fun row hrow => .inl ⟨row, hrow, rfl, rfl⟩
  | @snoc rs mid _ request hrun hstep ih =>
      intro row hrow
      rw [hstep] at hrow hfit
      have hgrown : Grown mid.db (request.run mid).db := requests_grown (System.Run.nil.snoc rfl)
      have hmid : IdsFit mid.db := hgrown.idsFit hfit
      replace ih := ih hmid
      rcases Request.sessions (requests_schema hrun hschema) hmid hrow with ⟨old, hold, hid, huser⟩ | hopens
      · rcases ih old hold with ⟨first, hfirst, hid', huser'⟩ | hearlier
        · exact .inl ⟨first, hfirst, hid'.trans hid, huser'.trans huser⟩
        · rw [hid, huser] at hearlier
          exact .inr (hearlier.snoc _)
      · exact .inr (sometime_last hrun hopens)

/-- **Sessions are earned.** Whoever is taken for a user, after any requests, has a session that this user had before
them, or that one of the requests has opened for this user: a login with the password of the account, or the signup that
has made it. -/
theorem sessions_earned {sid : Bytes} {userId : Int} (hschema : Schema conn.db) (h : requests.Run conn rs conn')
    (hfit : IdsFit conn'.db)
    (hknown : (sessionValidateAndExtend conn' sid sessionTtlSeconds).1 = some userId) :
    (∃ old ∈ conn.db.sessions, old.sessionId = sid ∧ old.userId = userId) ∨
      Sometime conn rs fun mid request => request.Opens mid sid userId := by
  obtain ⟨-, ⟨session, hfind, rfl, -⟩, -⟩ := sessionValidateAndExtend_some (Prod.ext hknown rfl)
  obtain ⟨hsession, rfl, -⟩ := find?_unexpired hfind
  rw [(requests_schema h hschema).toInt_sessionUser hfit hsession]
  exact session_opened hschema h hfit session hsession

theorem sessions_earned_root : Sometime rootConn [rootLogin] fun mid request => request.Opens mid (ascii "s") 1 := by
  have hknown : (sessionValidateAndExtend (rootLogin.run rootConn) (ascii "s") sessionTtlSeconds).1 = some 1 := by
    decide +kernel
  have hfit : IdsFit (rootLogin.run rootConn).db := by constructor <;> decide +kernel
  rcases sessions_earned rootConn_schema (System.Run.nil.snoc rfl) hfit hknown with ⟨old, hold, -⟩ | hopened
  · cases hold
  · exact hopened

/-! ### Requests that do not carry a session -/

/-- The request carries the session id. -/
def Request.Carries (sid : Bytes) : Request → Prop
  | .api _ req _ => sessionExtractFromHeaders req (sessionIdLen + 1) = some sid
  | .upgrade sessionId => sessionId = sid
  | _ => False

theorem Request.session_stays {row : SessionRow} (hrow : row ∈ conn.db.sessions) (hlive : conn.now < row.expiresAt) :
    row ∈ (request.run conn).db.sessions ∨ request.Carries row.sessionId := by
  obtain ⟨conn', hruns, hdb⟩ := request.runs conn
  rw [hdb]
  refine (hruns.session_stays hrow hlive).imp_right fun hentitled => ?_
  have hextends {sid : Bytes} (h : Extends conn sid (.deleteSession row.sessionId)) : sid = row.sessionId := by
    cases h with
    | delete => rfl
  cases request with
  | api env req preRead =>
      cases hentitled with
      | logout hpath hsid => exact hsid
      | session hsid h => exact hextends h ▸ hsid
  | upgrade sessionId => exact hextends hentitled
  | frame env io received userId => cases hentitled
  | wait seconds => exact hentitled.elim

theorem Request.clock (request : Request) (conn : Conn) :
    conn.now ≤ (request.run conn).now ∧ (request.run conn).fates = conn.fates := by
  cases request with
  | api env req preRead => exact (httpApiHandle_runs env req preRead conn).clock
  | upgrade sessionId => exact (validateAndExtend_runs rfl : Conn.Runs (Extends conn sessionId) conn _).clock
  | frame env io received userId => exact (handleTextFrame_runs { env with conn := conn } io received userId).clock
  | wait seconds => exact ⟨Int.le_add_of_nonneg_right (Int.natCast_nonneg seconds), rfl⟩

theorem session_kept {row : SessionRow} (hrow : row ∈ conn.db.sessions) (h : requests.Run conn rs conn')
    (hlive : conn'.now < row.expiresAt) :
    row ∈ conn'.db.sessions ∨ ∃ request ∈ rs, request.Carries row.sessionId := by
  induction h with
  | nil => exact .inl hrow
  | @snoc rs mid _ request hrun hstep ih =>
      have hmid : mid.now < row.expiresAt := by
        rw [show _ = request.run mid from hstep] at hlive
        exact Int.lt_of_le_of_lt (request.clock mid).1 hlive
      rcases ih hmid with hin | ⟨other, hother, hcarries⟩
      · rw [show _ = request.run mid from hstep]
        rcases Request.session_stays hin hmid with hstays | hcarries
        · exact .inl hstays
        · exact .inr ⟨request, List.mem_append_right _ (List.mem_singleton_self request), hcarries⟩
      · exact .inr ⟨other, List.mem_append_left _ hother, hcarries⟩

/-! ### Administrators -/

/-- The request is a login of an administrator that is in the table `users`, and opens the session. -/
def Request.AdminLogin (users : List UserRow) (sid : Bytes) (conn : Conn) (request : Request) : Prop :=
  ∃ env req preRead row, request = .api env req preRead ∧ LogsIn env req preRead conn row ∧ env.sessionId = some sid ∧
    row ∈ users ∧ row.role = .admin

/-- A session of an administrator was there in the beginning, or has been opened by a login to an account that was an
administrator's in the beginning. -/
theorem adminSession_opened {req : HttpRequest} (hschema : Schema conn.db) (h : requests.Run conn rs conn')
    (hfit : IdsFit conn'.db) (hadmin : SeenAsAdmin conn' req) :
    ∃ sid, sessionExtractFromHeaders req (sessionIdLen + 1) = some sid ∧
      ((∃ session ∈ conn.db.sessions, session.sessionId = sid) ∨
        Sometime conn rs (Request.AdminLogin conn.db.users sid)) := by
  obtain ⟨sid, hsid, session, hsession, hid, -, user, huser, huserId, hrole⟩ := hadmin.session
  rw [(requests_schema h hschema).toInt_sessionUser hfit hsession] at huserId
  refine ⟨sid, hsid, ?_⟩
  rcases session_opened hschema h hfit session hsession with ⟨old, hold, hold', -⟩ | hopened
  · exact .inl ⟨old, hold, hold'.trans hid⟩
  right
  have hadminUser := requests_admin h huser hrole
  refine hopened.imp fun before mid request hrun hopens => ?_
  have hschema' : Schema mid.db := requests_schema hrun hschema
  have hmid := (requests_grown hrun).kept.subset hadminUser
  generalize huid : session.userId = userId at hopens
  cases hopens with
  | @login env req' preRead row hlogs hfresh =>
      -- ids are unique, so the account is the administrator's
      obtain rfl : row = user :=
        List.inj_on_of_nodup_map hschema'.userIds.1 hlogs.account hmid (huid.symm.trans huserId.symm)
      exact ⟨env, req', preRead, row, rfl, hlogs, hid ▸ hfresh, hadminUser, hrole⟩
  | signup =>
      have hle := (hschema'.userIds.2.2 user hmid).2
      omega

/-- **Who acts as an administrator** has logged in with the password of an account that was an administrator's in the
beginning, or had the session then. -/
theorem admin_earned {req : HttpRequest} (hschema : Schema conn.db) (h : requests.Run conn rs conn')
    (hfit : IdsFit conn'.db) (hadmin : (isAdminUser conn' req).1 = true) :
    ∃ sid, sessionExtractFromHeaders req (sessionIdLen + 1) = some sid ∧
      ((∃ session ∈ conn.db.sessions, session.sessionId = sid) ∨
        Sometime conn rs (Request.AdminLogin conn.db.users sid)) :=
  adminSession_opened hschema h hfit (isAdminUser_true (Prod.ext hadmin rfl)).1

theorem admin_earned_root :
    ∃ sid, some (ascii "s") = some sid ∧ ((∃ session ∈ rootConn.db.sessions, session.sessionId = sid) ∨
      Sometime rootConn [rootLogin] (Request.AdminLogin rootConn.db.users sid)) := by
  let req : HttpRequest := ⟨ascii "GET", ascii "/", ascii "HTTP/1.1", [(ascii "cookie", ascii "SID=s")]⟩
  have hsid : sessionExtractFromHeaders req (sessionIdLen + 1) = some (ascii "s") := by decide
  have hadmin : (isAdminUser (rootLogin.run rootConn) req).1 = true := by decide +kernel
  have hfit : IdsFit (rootLogin.run rootConn).db := by constructor <;> decide +kernel
  rw [← hsid]
  exact admin_earned rootConn_schema (System.Run.nil.snoc rfl) hfit hadmin

/-! ### The catalogue -/

/-- The request is an administrator's that names the video. -/
def Request.Administers (videoId : Int) (conn : Conn) (request : Request) : Prop :=
  ∃ env req preRead, request = .api env req preRead ∧ Http.Administers env req preRead conn videoId

theorem not_names_extends {sid : Bytes} {s : Statement} {videoId : Int} (h : Extends conn sid s) :
    ¬ s.Names videoId := by
  intro hnames
  cases h with
  | _ => simp [Statement.Names] at hnames

theorem not_names_watches {userId videoId : Int} {s : Statement} (h : Watches userId s) : ¬ s.Names videoId := by
  intro hnames
  cases h with
  | _ => simp [Statement.Names] at hnames

theorem administers_of_names {env : ApiEnv} {req : HttpRequest} {preRead : Bytes} {s : Statement} {videoId : Int}
    (h : Http.Entitled env req preRead conn s) (hnames : s.Names videoId) (hle : videoId ≤ conn.db.videoSeq)
    (hnext : toInt (conn.db.videoSeq + 1) = conn.db.videoSeq + 1) :
    Http.Administers env req preRead conn videoId := by
  cases h with
  | undo =>
      have hown : toInt (conn.db.videoSeq + 1) = videoId := by simpa [Statement.Names] using hnames
      omega
  | segment =>
      have hown : toInt (conn.db.videoSeq + 1) = videoId := by simpa [Statement.Names] using hnames
      omega
  | @delete named hadministers =>
      obtain rfl : named = videoId := by simpa [Statement.Names] using hnames
      exact hadministers
  | @update named _ _ hadministers =>
      obtain rfl : named = videoId := by simpa [Statement.Names] using hnames
      exact hadministers
  | session _ hextends => exact absurd hnames (not_names_extends hextends)
  | _ => simp [Statement.Names] at hnames

theorem Request.video_stays {row : VideoRow} (hschema : Schema conn.db) (hfit : IdsFit conn.db)
    (hrow : row ∈ conn.db.videos) :
    row ∈ (request.run conn).db.videos ∨ request.Administers row.id conn := by
  obtain ⟨conn', hruns, hdb⟩ := request.runs conn
  rw [hdb]
  refine (hruns.video_stays hrow).imp_right fun ⟨s, hentitled, hnames⟩ => ?_
  cases request with
  | api env req preRead =>
      have hle := (hschema.videoIds.2.2 row hrow).2
      exact ⟨env, req, preRead, rfl, administers_of_names hentitled hnames hle (hschema.toInt_nextVideo hfit)⟩
  | upgrade sessionId => exact absurd hnames (not_names_extends hentitled)
  | frame env io received userId => exact absurd hnames (not_names_watches hentitled)
  | wait seconds => exact hentitled.elim

/-- **Videos are protected.** After any requests a video is as it was, or a request has named it whose headers carried a
session that was there in the beginning, or that an administrator of the beginning has logged in for. -/
theorem videos_protected (hschema : Schema conn.db) (h : requests.Run conn rs conn') (hfit : IdsFit conn'.db)
    {row : VideoRow} (hrow : row ∈ conn.db.videos) :
    row ∈ conn'.db.videos ∨
      ∃ before env req preRead after mid sid, rs = before ++ .api env req preRead :: after ∧
        requests.Run conn before mid ∧ Http.Administers env req preRead mid row.id ∧
        sessionExtractFromHeaders req (sessionIdLen + 1) = some sid ∧
        ((∃ session ∈ conn.db.sessions, session.sessionId = sid) ∨
          Sometime conn before (Request.AdminLogin conn.db.users sid)) := by
  have hkept : row ∈ conn'.db.videos ∨
      Sometime conn rs fun mid request => IdsFit mid.db ∧ request.Administers row.id mid := by
    induction h with
    | nil => exact .inl hrow
    | @snoc rs mid _ request hrun hstep ih =>
        have hmid : IdsFit mid.db := (requests_grown (System.Run.nil.snoc hstep)).idsFit hfit
        rcases ih hmid with hin | hearlier
        · rw [show _ = request.run mid from hstep]
          rcases Request.video_stays (requests_schema hrun hschema) hmid hin with hstays | hadministers
          · exact .inl hstays
          · exact .inr (sometime_last hrun ⟨hmid, hadministers⟩)
        · exact .inr (hearlier.snoc request)
  refine hkept.imp_right fun hnamed => ?_
  obtain ⟨before, _, after, mid, hsplit, hrun, hmid, env, req, preRead, rfl, hadministers⟩ := hnamed
  obtain ⟨sid, hsid, hearned⟩ := adminSession_opened hschema hrun hmid hadministers.session
  exact ⟨before, env, req, preRead, after, mid, sid, hsplit, hrun, hadministers, hsid, hearned⟩

/-- With the session the video is deleted. -/
def rootDelete : Request :=
  .api sampleApiEnv
    ⟨ascii "POST", ascii "/admin/video/delete", ascii "HTTP/1.1",
      [(ascii "content-length", ascii "14"), (ascii "cookie", ascii "SID=s")]⟩
    (ascii "\x7b\"video_id\":1\x7d")

/-- The video is deleted, so somebody has named it who has a session of the administrator. -/
theorem videos_protected_root :
    ∃ before env req preRead after mid sid, [rootLogin, rootDelete] = before ++ .api env req preRead :: after ∧
      requests.Run rootConn before mid ∧ Http.Administers env req preRead mid 1 ∧
      sessionExtractFromHeaders req (sessionIdLen + 1) = some sid ∧
      ((∃ session ∈ rootConn.db.sessions, session.sessionId = sid) ∨
        Sometime rootConn before (Request.AdminLogin rootConn.db.users sid)) := by
  have hgone : (rootDelete.run (rootLogin.run rootConn)).db.videos = [] := by decide +kernel
  have hrow : ⟨1, ascii "a", none, ascii "p", none, none, 0, 0⟩ ∈ rootConn.db.videos := List.mem_singleton_self _
  have hfit : IdsFit (rootDelete.run (rootLogin.run rootConn)).db := by constructor <;> decide +kernel
  rcases videos_protected rootConn_schema ((System.Run.nil.snoc rfl).snoc rfl) hfit hrow with hstays | hnamed
  · rw [hgone] at hstays
    cases hstays
  · exact hnamed

end OttQuic
