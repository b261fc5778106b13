import OttQuic.Auth.AllOrNothing
import OttQuic.Auth.Bcrypt
import OttQuic.Http.Entitlement
import OttQuic.WebSocket.Authority

/-!
# The requests of all clients

The clients of the server share its database. `Request` is what one of them can make the server do, and `requests` the
server with requests of any kind, one after the other in any order. Every statement that is executed in a run is one that
a request of it is entitled to (`requests_entitled`). So what every statement keeps is kept by every run
(`requests_preserve`): accounts are kept (`accounts_run`), and what a signup has stored decides about every login from
then on (`signup_login`).
-/

namespace OttQuic

open Auth CString Db Http Transition WebSocket

inductive Request where
  | api (env : ApiEnv) (req : HttpRequest) (preRead : Bytes)
  /-- The session of an upgrade is validated. -/
  | upgrade (sessionId : Bytes)
  | frame (env : TextEnv) (io : WsIo) (received : WsFrame) (userId : Int)
  | wait (seconds : Nat)

def Request.run (conn : Conn) : Request → Conn
  | api env req preRead => (httpApiHandle env req preRead conn).conn
  | upgrade sessionId => (sessionValidateAndExtend conn sessionId sessionTtlSeconds).2
  | frame env io received userId => (handleTextFrame { env with conn := conn } io received userId).2.2
  | wait seconds => { conn with now := conn.now + seconds }

/-- Requests in any order; which of their statements fail is up to the connection. -/
def requests : System Conn Request where
  init conn := Schema conn.db
  step conn request conn' := conn' = request.run conn

variable {conn conn' : Conn} {rs : List Request} {env env' : ApiEnv} {req : HttpRequest}
  {preRead body username password nickname sid q : Bytes}

/-- What a client with the id of a user may do on its connection. -/
inductive Watches (userId : Int) : Statement → Prop where
  | read : Watches userId .select
  | update (videoId position : Int) : Watches userId (.upsertWatch userId videoId position)

/-- What a request is entitled to, judged against the tables before it. -/
def Request.Entitled (conn : Conn) : Request → Statement → Prop
  | api env req preRead => Http.Entitled env req preRead conn
  | upgrade sessionId => Extends conn sessionId
  | frame _ _ _ userId => Watches userId
  | wait _ => fun _ => False

theorem handleTextFrame_runs (env : TextEnv) (io : WsIo) (frame : WsFrame) (userId : Int) :
    Conn.Runs (Watches userId) env.conn (handleTextFrame env io frame userId).2.2 := by
  rcases handleTextFrame_effect env io frame userId with h | h | ⟨db', videoId, position, -, h, hupsert⟩
  · rw [h]
    exact .refl _
  · rw [h]
    exact Conn.runs_singleton (s := .select) .read
  · have hexecute : env.conn.next db' = env.conn.execute (.upsertWatch userId videoId position) := by
      simp only [Conn.execute, Statement.after, Statement.run, hupsert]
    rw [h, hexecute]
    exact Conn.runs_singleton (.update videoId position)

/-- **A request does what it is entitled to.** -/
theorem Request.runs (request : Request) (conn : Conn) :
    ∃ conn', Conn.Runs (request.Entitled conn) conn conn' ∧ (request.run conn).db = conn'.db := by
  cases request with
  | api env req preRead => exact ⟨_, httpApiHandle_runs env req preRead conn, rfl⟩
  | upgrade sessionId => exact ⟨_, validateAndExtend_runs rfl, rfl⟩
  | frame env io received userId => exact ⟨_, handleTextFrame_runs { env with conn := conn } io received userId, rfl⟩
  | wait seconds => exact ⟨conn, .refl conn, rfl⟩

/-! ### Runs -/

/-- Some request of the run, with the tables before it, has the property. -/
def Sometime (conn : Conn) (rs : List Request) (P : Conn → Request → Prop) : Prop :=
  ∃ before request after mid, rs = before ++ request :: after ∧ requests.Run conn before mid ∧ P mid request

variable {request : Request} {P Q : Conn → Request → Prop}

theorem Sometime.snoc (h : Sometime conn rs P) (request : Request) : Sometime conn (rs ++ [request]) P := by
  obtain ⟨before, early, after, mid, rfl, hrun, hP⟩ := h
  exact ⟨before, early, after ++ [request], mid, by simp, hrun, hP⟩

theorem sometime_last (hrun : requests.Run conn rs conn') (hP : P conn' request) :
    Sometime conn (rs ++ [request]) P :=
  ⟨rs, request, [], conn', rfl, hrun, hP⟩

theorem Sometime.imp (h : Sometime conn rs P)
    (hPQ : ∀ before mid request, requests.Run conn before mid → P mid request → Q mid request) : Sometime conn rs Q := by
  obtain ⟨before, request, after, mid, hsplit, hrun, hP⟩ := h
  exact ⟨before, request, after, mid, hsplit, hrun, hPQ before mid request hrun hP⟩

/-! ### A run -/

/-- An administrator and a video, and nobody is logged in. -/
def rootConn : Conn where
  db := ⟨[⟨1, ascii "root", ascii "Root", ascii "pw", .admin⟩], [], [⟨1, ascii "a", none, ascii "p", none, none, 0, 0⟩],
    [], 1, 1, 1⟩
  now := 0
  fates _ := true
  executed := 0

theorem rootConn_schema : Schema rootConn.db := by
  constructor <;> simp [rootConn, Database.UniqueSessions]

/-- The administrator logs in. -/
def rootLogin : Request :=
  .api { sampleApiEnv with verifyPassword := fun password hash => password = hash, sessionId := some (ascii "s") }
    ⟨ascii "POST", ascii "/login", ascii "HTTP/1.1", [(ascii "content-length", ascii "35")]⟩
    (ascii "\x7b\"username\":\"root\",\"password\":\"pw\"\x7d")

/-! ### What requests do -/

/-- **Every statement is somebody's.** What any sequence of requests does to the tables is done by statements of the
server, each at the time of a request that is entitled to it. -/
theorem requests_entitled (h : requests.Run conn rs conn') :
    ∃ es, Db.tables.Run conn.db es conn'.db ∧
      ∀ e ∈ es, Sometime conn rs fun mid request => request.Entitled mid e.1 ∧ e.2.now = mid.now := by
  induction h with
  | nil => exact ⟨[], .nil, List.forall_mem_nil _⟩
  | @snoc rs mid last request hrun hstep ih =>
      obtain ⟨es, hbefore, hes⟩ := ih
      obtain ⟨conn₁, hruns, hdb⟩ := request.runs mid
      obtain ⟨⟨fs, hlast, hfs⟩, -, -⟩ := hruns.tables
      rw [← hdb, ← show last = request.run mid from hstep] at hlast
      refine ⟨es ++ fs, hbefore.trans hlast, List.forall_mem_append.mpr ⟨fun e he => (hes e he).snoc request, ?_⟩⟩
      exact fun e he => sometime_last hrun (hfs e he)

theorem requests_entitled_root :
    ∃ es, Db.tables.Run rootConn.db es (rootLogin.run rootConn).db ∧
      ∀ e ∈ es, Sometime rootConn [rootLogin] fun mid request => request.Entitled mid e.1 ∧ e.2.now = mid.now :=
  requests_entitled (System.Run.nil.snoc rfl)

/-- **The rule for what requests do**: what holds of the tables, and is kept by every statement, is kept. -/
theorem requests_preserve {I : Database → Prop} (h : requests.Run conn rs conn') (hconn : I conn.db)
    (hstep : ∀ db stmt s db', I db → Effect db stmt s db' → I db') : I conn'.db := by
  refine h.preserves (I := fun conn => I conn.db) hconn fun mid request last hmid hlast => ?_
  obtain ⟨conn₁, hruns, hdb⟩ := request.runs mid
  rw [show last = request.run mid from hlast, hdb]
  exact hruns.preserves hmid fun db stmt s db' _ hI _ heffect => hstep db stmt s db' hI heffect

theorem requests_schema (h : requests.Run conn rs conn') (hschema : Schema conn.db) : Schema conn'.db :=
  requests_preserve h hschema fun _ _ _ _ hdb heffect => hdb.effect heffect

theorem requests_grown (h : requests.Run conn rs conn') : Grown conn.db conn'.db :=
  requests_preserve h (Grown.refl conn.db) fun _ _ _ _ hgrown heffect => hgrown.effect heffect

theorem requests_admin {row : UserRow} (h : requests.Run conn rs conn') (hrow : row ∈ conn'.db.users)
    (hadmin : row.role = .admin) : row ∈ conn.db.users := by
  rcases (requests_grown h).users row hrow with hold | huser
  · exact hold
  · rw [hadmin] at huser
    cases huser

/-- **Accounts are kept.** After any requests the constraints of the schema hold, every account is as it was, in its
place, and the administrators are those that were there before. -/
theorem accounts_run (h : requests.Run conn rs conn') (hschema : Schema conn.db) :
    Schema conn'.db ∧ conn.db.users <+: conn'.db.users ∧
      ∀ row ∈ conn'.db.users, row.role = .admin → row ∈ conn.db.users :=
  ⟨requests_schema h hschema, (requests_grown h).kept, fun _ hrow hadmin => requests_admin h hrow hadmin⟩

/-- After the login of the administrator somebody uploads a video. -/
theorem accounts_run_root :
    let conn := Request.run (rootLogin.run rootConn) (.api sampleApiEnv Http.sampleUpload sampleForm)
    Schema conn.db ∧ rootConn.db.users <+: conn.db.users ∧
      ∀ row ∈ conn.db.users, row.role = .admin → row ∈ rootConn.db.users :=
  accounts_run ((System.Run.nil.snoc rfl).snoc rfl) rootConn_schema

/-! ### From signup to login -/

theorem createsUser_users (h : CreatesUser env req conn body username password nickname) :
    (handleSignup env req conn body).conn.db.users =
      conn.db.users ++ [⟨conn.db.userSeq + 1, username, nickname, env.hashPassword password, .user⟩] := by
  obtain ⟨rc, hget⟩ : ∃ rc, dbGetUserByUsername conn.db conn.stmt username = .error rc := by
    have hfind : conn.db.users.find? (fun row => row.username = username) = none :=
      List.find?_eq_none.mpr fun row hmem heq => h.unknown row hmem (of_decide_eq_true heq)
    rw [dbGetUserByUsername, hfind]
    split_ifs
    · exact ⟨_, rfl⟩
    · exact ⟨_, rfl⟩
  obtain ⟨id, db₁, hcreate⟩ : ∃ id db₁, dbCreateUser conn.db (conn.next conn.db).stmt username nickname
      (env.hashPassword password) .user = .ok (id, db₁) := by
    have hok : (conn.next conn.db).stmt.ok = true := h.inserted
    rw [dbCreateUser, if_pos hok, if_neg (by simpa using h.unknown)]
    exact ⟨_, _, rfl⟩
  obtain ⟨-, hdb₁⟩ := dbCreateUser_ok hcreate
  have husers : db₁.users = conn.db.users ++
      [⟨conn.db.userSeq + 1, username, nickname, env.hashPassword password, .user⟩] := by
    rw [hdb₁]
  rw [handleSignup, h.db, if_neg (by simp), h.notOptions, if_neg (by simp), h.post, if_neg (by simp)]
  simp only [h.username_eq, h.password_eq, h.nickname_eq, Conn.query, hget, if_neg h.hashed, Conn.insert, Conn.next_db,
    hcreate]
  cases env.sessionId with
  | none => exact husers
  | some sid =>
      simp only [Conn.exec, Conn.next_db]
      cases hsession : dbCreateSession db₁ ((conn.next conn.db).next db₁).stmt id sid sessionTtlSeconds with
      | error rc => exact husers
      | ok db₂ =>
          obtain ⟨-, -, rfl⟩ := dbCreateSession_ok hsession
          -- with or without room for the headers
          cases sessionHeaders (ascii "application/json") (sid ++ ascii "; ") req with
          | none => exact husers
          | some headers => exact husers

theorem sessionLogin_eq_some {row : UserRow} (hreliable : conn.Reliable)
    (husernames : (conn.db.users.map UserRow.username).Nodup) (hrow : row ∈ conn.db.users)
    (hid : toInt row.id = row.id) (hsid : env.sessionId = some sid) :
    (sessionLogin env conn row.username q).1 = some sid ↔
      env.verifyPassword q row.read.passwordHash = true ∧ conn.db.rowsOf sid = [] := by
  have hget : dbGetUserByUsername conn.db ⟨true, conn.now⟩ row.username = .ok row.read := by
    rw [dbGetUserByUsername, if_pos rfl, find?_key husernames hrow]
  have huser : conn.db.HasUser row.read.id := ⟨row, hrow, hid.symm⟩
  rw [sessionLogin, hreliable.query, hget]
  simp only
  cases hverify : env.verifyPassword q row.read.passwordHash with
  | false => simp
  | true =>
      rw [if_neg (by simp), hsid]
      simp only [true_and]
      by_cases hempty : conn.db.rowsOf sid = []
      · have hcreate : dbCreateSession conn.db ⟨true, conn.now⟩ row.read.id sid sessionTtlSeconds = _ :=
          dbCreateSession_of_accepts rfl hempty huser (by decide)
        rw [(hreliable.next conn.db).exec_ok hcreate]
        simp [hempty]
      · have hcreate : ∃ rc, dbCreateSession conn.db (conn.next conn.db).stmt row.read.id sid sessionTtlSeconds =
            .error rc := by
          rw [(hreliable.next conn.db).stmt, dbCreateSession, if_pos rfl,
            if_neg fun haccepts => hempty (acceptsSession_iff.mp haccepts.2).1]
          exact ⟨_, rfl⟩
        rw [exec_error hcreate]
        simp [hempty]

theorem httpApiHandle_signup (hpath : req.path = ascii "/signup") (hlength : contentLength req ≤ httpMaxBody)
    (hbody : readBody env req preRead = some body) :
    httpApiHandle env req preRead conn = handleSignup env req conn body := by
  have hupload : req.isUpload = false := by
    rw [HttpRequest.isUpload, hpath]
    decide
  have hmax : ¬ contentLength req > maxBody req := by
    rw [maxBody, hupload]
    simpa using hlength
  have hlogin : ¬ req.path = ascii "/login" := by
    rw [hpath]
    decide
  rw [httpApiHandle, if_neg hmax, if_neg (by rw [hupload]; simp), hbody]
  simp only
  rw [if_neg hlogin, if_pos hpath]

/-- **From signup to login.** Once a signup has created a user whose id is an `int`, a login under that name gets a
session exactly when its password is accepted with the hash that the signup has stored: whatever requests come in
between, and for as long as the database lives. -/
theorem signup_login (hschema : Schema conn.db) (hseq : conn.db.userSeq + 1 < 2 ^ 31)
    (hpath : req.path = ascii "/signup") (hlength : contentLength req ≤ httpMaxBody)
    (hbody : readBody env req preRead = some body)
    (hcreates : CreatesUser env req conn body username password nickname)
    (hrun : requests.Run conn (.api env req preRead :: rs) conn') (hreliable : conn'.Reliable)
    (hsid : env'.sessionId = some sid) (hfresh : conn'.db.rowsOf sid = []) :
    (sessionLogin env' conn' username q).1 = some sid ↔
      env'.verifyPassword q (copyColumnText (env.hashPassword password) dbMaxPath) = true := by
  have husers := createsUser_users hcreates
  obtain ⟨mid, hstep, hrest⟩ := System.run_cons_iff.mp hrun
  have hmid : mid = (handleSignup env req conn body).conn := by
    rw [← httpApiHandle_signup hpath hlength hbody]
    exact hstep
  have hschema' : Schema mid.db := requests_schema (System.Run.nil.snoc hstep) hschema
  let row : UserRow := ⟨conn.db.userSeq + 1, username, nickname, env.hashPassword password, .user⟩
  have hrow : row ∈ conn'.db.users := by
    apply (requests_grown hrest).kept.subset
    rw [hmid, husers]
    exact List.mem_append_right _ (List.mem_singleton_self row)
  have hid : toInt row.id = row.id := by
    have hle : 0 ≤ conn.db.userSeq := hschema.userIds.2.1
    exact toInt_eq_iff.mpr ⟨show -2 ^ 31 ≤ conn.db.userSeq + 1 by omega, hseq⟩
  have hlogin := sessionLogin_eq_some (q := q) hreliable (requests_schema hrest hschema').usernames hrow hid hsid
  rw [hlogin, and_iff_left hfresh]
  rfl

/-- Bob signs up and logs in. -/
theorem signup_login_bob :
    let env : ApiEnv := { sampleApiEnv with
      hashPassword := fun password => 104 :: password
      verifyPassword := fun password hash => hash = 104 :: password
      sessionId := some (ascii "s2") }
    let body := ascii "\x7b\"username\":\"bob\",\"password\":\"pw\",\"nickname\":\"Bob\"\x7d"
    let length := (ascii "content-length", ascii "51")
    let req : HttpRequest := ⟨ascii "POST", ascii "/signup", ascii "HTTP/1.1", [length]⟩
    let conn := (Request.api { env with sessionId := some (ascii "s1") } req body).run emptyConn
    (sessionLogin env conn (ascii "bob") (ascii "pw")).1 = some (ascii "s2") ↔
      env.verifyPassword (ascii "pw") (copyColumnText (104 :: ascii "pw") dbMaxPath) = true := by
  intro env body length req conn
  let env' : ApiEnv := { env with sessionId := some (ascii "s1") }
  have hbody : readBody env' req body = some body := by decide
  have hcreates : CreatesUser env' req emptyConn body (ascii "bob") (ascii "pw") (ascii "Bob") := by
    constructor
    · rfl
    · decide
    · decide
    · decide
    · decide
    · decide
    · decide
    · decide
    · rfl
  have hreliable : conn.Reliable := fun n => by
    obtain ⟨conn', hruns, hconn⟩ : ∃ conn', Conn.Runs (Http.Entitled env' req body emptyConn) emptyConn conn' ∧
        conn' = conn := ⟨_, httpApiHandle_runs env' req body emptyConn, rfl⟩
    rw [← hconn]
    exact congrFun hruns.tables.2.2 n
  exact signup_login schema_new (by decide) rfl (by decide) hbody hcreates
    (System.Run.nil.snoc (rfl : conn = (Request.api env' req body).run emptyConn)) hreliable rfl (by decide +kernel)

/-- What a password is accepted with after a signup, with the functions of `hash.c`: the hash that has been made, or the
text that was in the buffer when it could not be made. -/
theorem newHash_opens {urandom : Urandom} {p stale : Bytes} :
    verifyPassword q (copyColumnText ((hashPassword urandom p hashHexSize).getD stale) dbMaxPath) = true ↔
      (urandom.opens = true ∧ urandom.closes = true ∧ bfSelfTest 97 = true ∧
        ∃ salt, urandom.read = some salt ∧ (BfSetting.ofSalt salt).digest p = (BfSetting.ofSalt salt).digest q) ∨
      ¬ (urandom.opens = true ∧ urandom.closes = true ∧ bfSelfTest 97 = true ∧ urandom.read.isSome = true) ∧
        verifyPassword q (copyColumnText stale dbMaxPath) = true := by
  have hfits (s : BfSetting) : copyColumnText (s.hash p) dbMaxPath = s.hash p :=
    List.take_of_length_le (by rw [BfSetting.length_hash]; decide)
  have hmade : (hashPassword urandom p hashHexSize).isSome = true ↔ urandom.opens = true ∧ urandom.closes = true ∧
      bfSelfTest 97 = true ∧ urandom.read.isSome = true :=
    isSome_hashPassword.trans (and_iff_right (Nat.le_refl 61))
  cases hhash : hashPassword urandom p hashHexSize with
  | none =>
      rw [hhash] at hmade
      have hnot : ¬ (urandom.opens = true ∧ urandom.closes = true ∧ bfSelfTest 97 = true ∧
          urandom.read.isSome = true) := fun h => Bool.false_ne_true (hmade.mpr h)
      rw [Option.getD_none, and_iff_right hnot]
      refine (or_iff_right ?_).symm
      rintro ⟨hopens, hcloses, htest, salt, hread, -⟩
      exact hnot ⟨hopens, hcloses, htest, by rw [hread]; rfl⟩
  | some stored =>
      obtain ⟨-, hopens, hcloses, htest, salt, hread, rfl⟩ := hashPassword_eq_some.mp hhash
      rw [Option.getD_some, hfits, verifyPassword_hash]
      constructor
      · rintro ⟨-, -, hdigest⟩
        exact .inl ⟨hopens, hcloses, htest, salt, hread, hdigest⟩
      · rintro (⟨-, -, -, salt', hread', hdigest⟩ | ⟨hnot, -⟩)
        · obtain rfl := Option.some.inj (hread.symm.trans hread')
          exact ⟨four_le_ofSalt salt, htest, hdigest⟩
        · exact absurd ⟨hopens, hcloses, htest, by rw [hread]; rfl⟩ hnot

end OttQuic
