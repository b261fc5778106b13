import OttQuic.Auth.Session
import OttQuic.Http.Request
import OttQuic.Http.Upload
import OttQuic.Json

/-!
# The HTTP API (`api.c`)

`http_api_handle` and the handlers behind it. A handler takes the connection to the database and leaves a
reply, the connection, and its operations on files. The body buffer is not a C string: the handlers that
read it as one also see the memory after it.

The random ids, the password hash, and the replies to requests for static files come from outside.
-/

namespace OttQuic.Http

open CString Db Auth

abbrev httpMaxBody : Nat := 4096

/-- The arguments of `http_send_response`. -/
structure Reply where
  statusLine : Bytes
  headers : Bytes
  body : Bytes
  deriving DecidableEq

/-- What answers the client. -/
inductive Answer where
  | reply (reply : Reply)
  /-- The bytes `handle_upload_request` has written. -/
  | raw (bytes : Bytes)
  deriving DecidableEq

structure ApiResult where
  answer : Answer
  conn : Conn
  files : List FileOp

/-- What the request meets outside the handlers. -/
structure ApiEnv where
  /-- `ctx` and `ctx->db` are not `NULL`. -/
  db : Bool
  verifyPassword : Bytes → Bytes → Bool
  /-- What the buffer holds after `hash_password`: the hash, or when that fails whatever was there. -/
  hashPassword : Bytes → Bytes
  /-- The id `session_generate_id` makes, when it returns `0`. -/
  sessionId : Option Bytes
  /-- What `user_row.nickname` holds when the second query of `handle_login` fails. -/
  staleNickname : Bytes
  /-- `malloc` of the body of an upload. -/
  malloc : Bool
  /-- What the client sends after the bytes read with the header. -/
  incoming : Bytes
  /-- The memory after the body. -/
  after : Bytes
  upload : UploadEnv
  /-- `handle_static_file` reads files only. -/
  staticFile : HttpRequest → Reply

def textReply (status body : String) : Reply :=
  ⟨ascii "HTTP/1.1 " ++ ascii status ++ ascii "\r\n", ascii "Content-Type: text/plain\r\n", ascii body⟩

def ApiResult.ofReply (reply : Reply) (conn : Conn) : ApiResult := ⟨.reply reply, conn, []⟩

def serviceUnavailable : Reply := textReply "503 Service Unavailable" "service-unavailable"

/-- `http_build_cors` into a buffer of 256 bytes. -/
def httpBuildCors (req : HttpRequest) : Bytes :=
  let allowOrigin := (req.header (ascii "origin")).getD (ascii "*")
  snprintf 256 (ascii "Access-Control-Allow-Origin: " ++ allowOrigin ++ ascii "\r\n" ++
    ascii "Access-Control-Allow-Credentials: true\r\n" ++
    ascii "Access-Control-Allow-Headers: Content-Type, Authorization, Cookie\r\n" ++
    ascii "Access-Control-Allow-Methods: GET, POST, DELETE, OPTIONS\r\n")

/-- The reply to `OPTIONS`. -/
def noContent (req : HttpRequest) : Reply := ⟨ascii "HTTP/1.1 204 No Content\r\n", httpBuildCors req, []⟩

/-- `json_extract_string`. -/
def jsonExtractString (json : Bytes) (key : String) (outSize : Nat) : Option Bytes :=
  let pattern := ascii "\"" ++ ascii key ++ ascii "\""
  match strstr pattern json with
  | none => none
  | some p =>
    let p := (p.drop pattern.length).dropWhile fun c => c = 32 ∨ c = 9 ∨ c = 58
    if p.head? ≠ some 34 then none
    else
      match strchr 34 p.tail with
      | none => none
      | some rest =>
        let text := p.tail.take (p.tail.length - rest.length)
        if text.length = 0 ∨ text.length ≥ outSize then none else some text

/-- `json_extract_int_field`: the key is looked for without its quotes. -/
def jsonExtractIntField (json : Bytes) (key : String) : Option Int :=
  match strstr (ascii key) json with
  | none => none
  | some p =>
    let p := (p.drop (ascii key).length).dropWhile fun c => c = 32 ∨ c = 34
    let p := if p.head? = some 58 ∨ p.head? = some 61 then p.tail else p
    (strtol 10 (p.dropWhile fun c => c = 32 ∨ c = 34)).map toInt

/-- The two headers of a reply that opens or closes a session, in a buffer of 512 bytes. -/
def sessionHeaders (contentType cookie : Bytes) (req : HttpRequest) : Option Bytes :=
  let headers := ascii "Content-Type: " ++ contentType ++ ascii "\r\nSet-Cookie: SID=" ++ cookie ++
    ascii "HttpOnly; Path=/; SameSite=Lax\r\n" ++ httpBuildCors req
  if headers.length ≥ 512 then none else some headers

def headerTooLong : Reply := textReply "500 Internal Server Error" "header-too-long"

/-- The body of the reply to a login or signup, in a buffer of 512 bytes. -/
def sessionBody (sid username nickname : Bytes) (isAdmin : Bool) : Bytes :=
  snprintf 512 (ascii "\x7b\"session_id\":\"" ++ sid ++ ascii "\",\"username\":\"" ++ username ++
    ascii "\",\"nickname\":\"" ++ nickname ++ ascii "\",\"is_admin\":" ++
    ascii (if isAdmin then "true" else "false") ++ ascii "\x7d")

/-! ### Sessions -/

def roleText : Role → Bytes
  | .user => ascii "user"
  | .admin => ascii "admin"

/-- `strcasecmp(role, "admin") == 0`. -/
def isAdminRole (role : Role) : Bool := eqIgnoreCase (roleText role) (ascii "admin")

theorem isAdminRole_iff {role : Role} : isAdminRole role = true ↔ role = .admin := by
  cases role <;> decide

/-- `session_login`. -/
def sessionLogin (env : ApiEnv) (conn : Conn) (username password : Bytes) : Option Bytes × Conn :=
  match conn.query fun db stmt => dbGetUserByUsername db stmt username with
  | (.error _, conn) => (none, conn)
  | (.ok user, conn) =>
    if env.verifyPassword password user.passwordHash = false then (none, conn)
    else
      match env.sessionId with
      | none => (none, conn)
      | some sid =>
        match conn.exec fun db stmt => dbCreateSession db stmt user.id sid sessionTtlSeconds with
        | (false, conn) => (none, conn)
        | (true, conn) => (some sid, conn)

def handleLogin (env : ApiEnv) (req : HttpRequest) (conn : Conn) (body : Bytes) : ApiResult :=
  if env.db = false then .ofReply serviceUnavailable conn
  else if req.hasMethod "OPTIONS" then .ofReply (noContent req) conn
  else if req.hasMethod "POST" = false then
    .ofReply (textReply "405 Method Not Allowed" "method-not-allowed") conn
  else
    let body := ofMemory (body.take httpMaxBody)
    match jsonExtractString body "username" 128, jsonExtractString body "password" 128 with
    | some user, some pass =>
      match sessionLogin env conn user pass with
      | (none, conn) => .ofReply (textReply "401 Unauthorized" "login-failed") conn
      | (some sid, conn) =>
        match sessionHeaders (ascii "application/json") (sid ++ ascii "; ") req with
        | none => .ofReply headerTooLong conn
        | some headers =>
          match conn.query fun db stmt => dbGetUserByUsername db stmt user with
          | (.ok row, conn) =>
            let nickname := if row.nickname ≠ [] then row.nickname else user
            .ofReply ⟨ascii "HTTP/1.1 200 OK\r\n", headers,
              sessionBody sid user nickname (isAdminRole row.role)⟩ conn
          | (.error _, conn) =>
            let nickname := if env.staleNickname ≠ [] then env.staleNickname else user
            .ofReply ⟨ascii "HTTP/1.1 200 OK\r\n", headers, sessionBody sid user nickname false⟩ conn
    | _, _ => .ofReply (textReply "400 Bad Request" "bad-json") conn

def handleSignup (env : ApiEnv) (req : HttpRequest) (conn : Conn) (body : Bytes) : ApiResult :=
  if env.db = false then .ofReply serviceUnavailable conn
  else if req.hasMethod "OPTIONS" then .ofReply (noContent req) conn
  else if req.hasMethod "POST" = false then
    .ofReply (textReply "405 Method Not Allowed" "method-not-allowed") conn
  else
    let body := ofMemory (body.take httpMaxBody)
    match jsonExtractString body "username" dbMaxUsername, jsonExtractString body "password" 128,
      jsonExtractString body "nickname" dbMaxNickname with
    | some username, some password, some nickname =>
      match conn.query fun db stmt => dbGetUserByUsername db stmt username with
      | (.ok _, conn) => .ofReply (textReply "409 Conflict" "user-exists") conn
      | (.error _, conn) =>
        let hash := env.hashPassword password
        if hash = [] then .ofReply (textReply "500 Internal Server Error" "hash-failed") conn
        else
          match conn.insert fun db stmt => dbCreateUser db stmt username nickname hash .user with
          | (none, conn) => .ofReply (textReply "500 Internal Server Error" "create-user-failed") conn
          | (some userId, conn) =>
            match env.sessionId with
            | none => .ofReply (textReply "500 Internal Server Error" "session-failed") conn
            | some sid =>
              match conn.exec fun db stmt => dbCreateSession db stmt userId sid sessionTtlSeconds with
              | (false, conn) =>
                .ofReply (textReply "500 Internal Server Error" "session-failed") conn
              | (true, conn) =>
                match sessionHeaders (ascii "application/json") (sid ++ ascii "; ") req with
                | none => .ofReply headerTooLong conn
                | some headers =>
                  .ofReply ⟨ascii "HTTP/1.1 200 OK\r\n", headers,
                    sessionBody sid username nickname false⟩ conn
    | _, _, _ => .ofReply (textReply "400 Bad Request" "bad-json") conn

def handleLogout (env : ApiEnv) (req : HttpRequest) (conn : Conn) : ApiResult :=
  if env.db = false then .ofReply serviceUnavailable conn
  else if req.hasMethod "OPTIONS" then .ofReply (noContent req) conn
  else
    match sessionExtractFromHeaders req (sessionIdLen + 1) with
    | none => .ofReply (textReply "400 Bad Request" "session-missing") conn
    | some sid =>
      -- the result of the logout is not looked at
      match sessionLogout conn sid with
      | (_, conn) =>
        match sessionHeaders (ascii "text/plain") (ascii "; Max-Age=0; ") req with
        | none => .ofReply headerTooLong conn
        | some headers => .ofReply ⟨ascii "HTTP/1.1 200 OK\r\n", headers, ascii "logged-out"⟩ conn

/-! ### Administration -/

/-- `is_admin_user`; a valid session is extended. -/
def isAdminUser (conn : Conn) (req : HttpRequest) : Bool × Conn :=
  match sessionExtractFromHeaders req (sessionIdLen + 1) with
  | none => (false, conn)
  | some sid =>
    match sessionValidateAndExtend conn sid sessionTtlSeconds with
    | (none, conn) => (false, conn)
    | (some userId, conn) =>
      if userId ≤ 0 then (false, conn)
      else
        match conn.query fun db stmt => dbGetUserById db stmt userId with
        | (.error _, conn) => (false, conn)
        | (.ok user, conn) => (isAdminRole user.role, conn)

def adminRequired : Reply := textReply "403 Forbidden" "admin-required"

def invalidVideoId : Reply := textReply "400 Bad Request" "invalid-video-id"

def handleAdminDelete (env : ApiEnv) (req : HttpRequest) (conn : Conn) (memory : Bytes) : ApiResult :=
  if env.db = false then .ofReply serviceUnavailable conn
  else
    match isAdminUser conn req with
    | (false, conn) => .ofReply adminRequired conn
    | (true, conn) =>
      let videoId := (jsonExtractIntField (ofMemory memory) "video_id").getD 0
      if videoId ≤ 0 then .ofReply invalidVideoId conn
      else
        match conn.query fun db stmt => dbGetVideoById db stmt videoId with
        | (.error _, conn) => .ofReply (textReply "404 Not Found" "video-not-found") conn
        | (.ok v, conn) =>
          -- the result of the deletion is not looked at
          match conn.exec fun db stmt => dbDeleteVideoById db stmt videoId with
          | (_, conn) =>
            let unlinked := [v.filePath, v.thumbnailPath].filter fun path => path ≠ []
            let removed := [v.segmentPath].filter fun path => path ≠ []
            ⟨.reply (textReply "200 OK" "deleted"), conn,
              unlinked.map FileOp.unlink ++ removed.map FileOp.removeTree⟩

def handleAdminUpdate (env : ApiEnv) (req : HttpRequest) (conn : Conn) (memory : Bytes) : ApiResult :=
  if env.db = false then .ofReply serviceUnavailable conn
  else
    match isAdminUser conn req with
    | (false, conn) => .ofReply adminRequired conn
    | (true, conn) =>
      let body := ofMemory memory
      let videoId := (jsonExtractIntField body "video_id").getD 0
      if videoId ≤ 0 then .ofReply invalidVideoId conn
      else
        -- a field that is not found is the empty string
        let title := (jsonExtractString body "title" dbMaxTitle).getD []
        let description := (jsonExtractString body "description" dbMaxDescription).getD []
        match conn.exec fun db stmt => dbUpdateVideoMetadata db stmt videoId title description with
        | (false, conn) => .ofReply (textReply "500 Internal Server Error" "update-failed") conn
        | (true, conn) => .ofReply (textReply "200 OK" "updated") conn

def adminListItem (row : VideoRow) : Bytes :=
  ascii "\x7b\"id\":" ++ decimal (toInt row.id) ++ ascii ",\"title\":\"" ++ row.title ++
    ascii "\",\"description\":\"" ++ row.description.getD [] ++ ascii "\",\"file_path\":\"" ++
    row.filePath ++ ascii "\",\"thumbnail_path\":\"" ++ row.thumbnailPath.getD [] ++ ascii "\"\x7d"

def handleAdminList (env : ApiEnv) (req : HttpRequest) (conn : Conn) : ApiResult :=
  if env.db = false then .ofReply serviceUnavailable conn
  else
    match isAdminUser conn req with
    | (false, conn) => .ofReply adminRequired conn
    | (true, conn) =>
      match conn.query fun db stmt => dbSelect stmt db.videos with
      | (.error _, conn) => .ofReply (textReply "500 Internal Server Error" "db-error") conn
      | (.ok videos, conn) =>
        let rows := videos.mergeSort fun a b => b.id ≤ a.id
        match buildList 8192 (ascii "\x7b\"items\":[") (rows.map adminListItem) with
        | none => .ofReply (textReply "500 Internal Server Error" "response-too-large") conn
        | some body =>
          .ofReply ⟨ascii "HTTP/1.1 200 OK\r\n", ascii "Content-Type: application/json\r\n", body⟩ conn

/-! ### Dispatch -/

def handleUpload (env : ApiEnv) (req : HttpRequest) (conn : Conn) (body : Bytes) : ApiResult :=
  if env.db = false then .ofReply serviceUnavailable conn
  else if req.hasMethod "OPTIONS" then .ofReply (noContent req) conn
  else if body = [] then .ofReply (textReply "400 Bad Request" "empty-body") conn
  else
    match req.header (ascii "content-type") with
    | none => .ofReply (textReply "400 Bad Request" "missing-content-type") conn
    | some ct =>
      let result := handleUploadRequest env.upload conn ct body
      ⟨.raw result.response, result.conn, result.files⟩

/-- The body length `http_api_handle` reads off the request. -/
def contentLength (req : HttpRequest) : Nat :=
  match req.header (ascii "content-length") with
  | none => 0
  | some cl => ((strtol 10 cl).getD 0).toNat

/-- `req->path` is `/upload`. -/
def HttpRequest.isUpload (req : HttpRequest) : Bool := req.path = ascii "/upload"

def maxBody (req : HttpRequest) : Nat := if req.isUpload then 200 * 1024 * 1024 else httpMaxBody

/-- The body, of the bytes read with the header and those that come after: nothing when the client stops
before it is complete. -/
def readBody (env : ApiEnv) (req : HttpRequest) (preRead : Bytes) : Option Bytes :=
  let contentLen := contentLength req
  let copied := preRead.take contentLen
  let remaining := contentLen - copied.length
  if env.incoming.length < remaining then none else some (copied ++ env.incoming.take remaining)

/-- `http_api_handle`. -/
def httpApiHandle (env : ApiEnv) (req : HttpRequest) (preRead : Bytes) (conn : Conn) : ApiResult :=
  if contentLength req > maxBody req then
    .ofReply (textReply "413 Payload Too Large" "payload-too-large") conn
  else if req.isUpload ∧ contentLength req > httpMaxBody ∧ env.malloc = false then
    .ofReply (textReply "500 Internal Server Error" "oom") conn
  else
    match readBody env req preRead with
    | none => .ofReply (textReply "400 Bad Request" "body-read-failed") conn
    | some body =>
      if req.path = ascii "/login" then handleLogin env req conn body
      else if req.path = ascii "/signup" then handleSignup env req conn body
      else if req.path = ascii "/logout" then handleLogout env req conn
      else if req.path = ascii "/upload" then handleUpload env req conn body
      else if req.path = ascii "/admin/video/delete" then
        handleAdminDelete env req conn (body ++ env.after)
      else if req.path = ascii "/admin/video/update" then
        handleAdminUpdate env req conn (body ++ env.after)
      else if req.path = ascii "/admin/video/list" then handleAdminList env req conn
      else .ofReply (env.staticFile req) conn

/-- The handler of the route, with the body. -/
def routeHandler (env : ApiEnv) (req : HttpRequest) (conn : Conn) (body : Bytes) : ApiResult :=
  if req.path = ascii "/login" then handleLogin env req conn body
  else if req.path = ascii "/signup" then handleSignup env req conn body
  else if req.path = ascii "/logout" then handleLogout env req conn
  else if req.path = ascii "/upload" then handleUpload env req conn body
  else if req.path = ascii "/admin/video/delete" then handleAdminDelete env req conn (body ++ env.after)
  else if req.path = ascii "/admin/video/update" then handleAdminUpdate env req conn (body ++ env.after)
  else if req.path = ascii "/admin/video/list" then handleAdminList env req conn
  else .ofReply (env.staticFile req) conn

end OttQuic.Http
