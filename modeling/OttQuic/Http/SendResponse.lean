import OttQuic.Http.Admin
import OttQuic.Http.JsonBody
import OttQuic.Http.PrintedRequest

/-!
# Replies on the wire (`http_send_response`, `http_build_cors`)

A reply is put together from its status line, its header lines and its body. The lines for other origins are made in a
buffer of 256 bytes, and what the client has sent as its origin stands among them: a long one cuts off the end of the
lines. `account_reply_iff` says for which requests a reply is well formed.
-/

namespace OttQuic.Http

open CString Db Auth

/-- `session_generate_id`; `random` is what `read_random` reads. -/
def sessionGenerateId (random : Option (Vector UInt8 32)) : Option Bytes :=
  random.map fun bytes => bytes.toList.flatMap fun (b : UInt8) =>
    [(ascii "0123456789abcdef").getD ((b >>> 4) &&& 0xF).toNat 0, (ascii "0123456789abcdef").getD (b &&& 0xF).toNat 0]

/-- `http_send_response`: what is sent, when it does not return `-1` before. -/
def httpSendResponse (reply : Reply) : Option Bytes :=
  let head := reply.statusLine ++ ascii "Content-Length: " ++ decimal reply.body.length ++ ascii "\r\n" ++
    reply.headers ++ ascii "\r\n"
  if head.length ≥ 1024 then none else some (head ++ reply.body)

/-- What the client is sent. -/
def ApiResult.sent (result : ApiResult) : Option Bytes :=
  match result.answer with
  | .reply reply => httpSendResponse reply
  | .raw bytes => some bytes

/-- The value of `Access-Control-Allow-Origin`. -/
def allowOrigin (req : HttpRequest) : Bytes := (req.header (ascii "origin")).getD (ascii "*")

/-- The four lines for other origins. -/
def corsLines (req : HttpRequest) : List Bytes :=
  [ascii "Access-Control-Allow-Origin: " ++ allowOrigin req,
    ascii "Access-Control-Allow-Credentials: true",
    ascii "Access-Control-Allow-Headers: Content-Type, Authorization, Cookie",
    ascii "Access-Control-Allow-Methods: GET, POST, DELETE, OPTIONS"]

/-- A well-formed reply: a status line, header lines, an empty line and as many bytes of body as `Content-Length` says;
`lines` are among the header lines. -/
def IsReply (lines : List Bytes) (bytes : Bytes) : Prop :=
  ∃ (status : Bytes) (headers : List HeaderLine) (body : Bytes),
    bytes = status ++ lineEnd ++ headers.flatMap HeaderLine.print ++ lineEnd ++ body ∧
      ascii "HTTP/1.1 " <+: status ∧ (∀ c ∈ status, IsLineChar c) ∧
      (headers.filter fun header => eqIgnoreCase header.name (ascii "Content-Length")).map HeaderLine.text =
        [ascii "Content-Length: " ++ decimal body.length] ∧
      ∀ line ∈ lines, line ∈ headers.map HeaderLine.text

/-! ### Which replies carry the four lines -/

/-- The session a login opens. -/
def loginSession (env : ApiEnv) (conn : Conn) (body : Bytes) : Option Bytes :=
  let body := ofMemory (body.take httpMaxBody)
  match jsonExtractString body "username" 128, jsonExtractString body "password" 128 with
  | some user, some pass => (sessionLogin env conn user pass).1
  | _, _ => none

/-- The session a signup opens. -/
def signupSession (env : ApiEnv) (conn : Conn) (body : Bytes) : Option Bytes :=
  let body := ofMemory (body.take httpMaxBody)
  match jsonExtractString body "username" dbMaxUsername, jsonExtractString body "password" 128,
    jsonExtractString body "nickname" dbMaxNickname with
  | some username, some password, some nickname =>
    match conn.query fun db stmt => dbGetUserByUsername db stmt username with
    | (.ok _, _) => none
    | (.error _, conn) =>
      if env.hashPassword password = [] then none
      else
        match conn.insert fun db stmt => dbCreateUser db stmt username nickname (env.hashPassword password) .user with
        | (none, _) => none
        | (some userId, conn) =>
          env.sessionId.filter fun sid =>
            (conn.exec fun db stmt => dbCreateSession db stmt userId sid sessionTtlSeconds).1
  | _, _, _ => none

/-- The request is answered as `OPTIONS`, or opens or closes a session. -/
def carriesCors (env : ApiEnv) (req : HttpRequest) (conn : Conn) (body : Bytes) : Bool :=
  env.db && (req.hasMethod "OPTIONS" ||
    if req.path = ascii "/login" then req.hasMethod "POST" && (loginSession env conn body).isSome
    else if req.path = ascii "/signup" then req.hasMethod "POST" && (signupSession env conn body).isSome
    else (sessionExtractFromHeaders req (sessionIdLen + 1)).isSome)

/-- `handle_login`, `handle_signup`, `handle_logout`, or the `OPTIONS` branch of `handle_upload`. -/
def AccountRoute (req : HttpRequest) : Prop :=
  req.path = ascii "/login" ∨ req.path = ascii "/signup" ∨ req.path = ascii "/logout" ∨
    (req.path = ascii "/upload" ∧ req.hasMethod "OPTIONS" = true)

section

variable {xs ls : List Bytes} {s t : Bytes} {req : HttpRequest} {reply : Reply}

/-! ### Lines -/

theorem line_inj {q : UInt8} {a b s t : Bytes} (ha : q ∉ a) (hb : q ∉ b) (h : a ++ q :: s = b ++ q :: t) :
    a = b ∧ s = t := by
  have hsame : a = b := by rw [← takeWhile_append_cons ha, h, takeWhile_append_cons hb]
  rw [hsame] at h
  exact ⟨hsame, (List.cons.inj (List.append_cancel_left h)).2⟩

theorem lines_isPrefix (hxs : ∀ s ∈ xs, 13 ∉ s) (hls : ∀ s ∈ ls, 13 ∉ s)
    (h : xs.flatMap (· ++ lineEnd) <+: ls.flatMap (· ++ lineEnd)) : xs <+: ls := by
  induction xs generalizing ls with
  | nil => exact List.nil_prefix
  | cons x xs ih =>
      obtain ⟨rest, hrest⟩ := h
      cases ls with
      | nil => simp [lineEnd] at hrest
      | cons l ls =>
          have hx := hxs x List.mem_cons_self
          have hl := hls l List.mem_cons_self
          have heq : x ++ 13 :: (10 :: (xs.flatMap (· ++ lineEnd) ++ rest)) =
              l ++ 13 :: (10 :: ls.flatMap (· ++ lineEnd)) := by
            simpa [lineEnd] using hrest
          obtain ⟨hsame, htail⟩ := line_inj hx hl heq
          exact List.cons_prefix_cons.mpr ⟨hsame, ih (fun s hs => hxs s (List.mem_cons_of_mem x hs))
            (fun s hs => hls s (List.mem_cons_of_mem l hs)) ⟨rest, (List.cons.inj htail).2⟩⟩

theorem flatMap_print (headers : List HeaderLine) :
    headers.flatMap HeaderLine.print = (headers.map HeaderLine.text).flatMap (· ++ lineEnd) := by
  rw [List.flatMap_map]
  rfl

theorem decimal_injective {m n : Nat} (h : decimal m = decimal n) : m = n := by
  rw [decimal_eq, decimal_eq] at h
  have htext := String.toList_injective (Utf8.encode_injective h)
  exact Int.ofNat.inj (Int.repr_injective htext)

theorem header_isLine {malloc : Bool} {raw name value : Bytes} (h : httpParseRequest malloc raw = some req)
    (hvalue : req.header name = some value) : ∀ c ∈ value, IsLineChar c := by
  obtain ⟨⟨key, _⟩, hfind, rfl⟩ := Option.map_eq_some_iff.mp hvalue
  have hmem := List.mem_of_find?_eq_some hfind
  rw [httpParseRequest] at h
  split at h
  · cases h
  split_ifs at h
  split at h
  · cases h
  rename_i line lines hlines
  split at h
  · cases h
  rw [← Option.some.inj h] at hmem
  obtain ⟨text, htext, hparse⟩ := List.mem_filterMap.mp (List.mem_of_mem_take hmem)
  obtain ⟨colon, hcolon, hstored⟩ := Option.map_eq_some_iff.mp hparse
  intro c hc
  rw [← (Prod.mk.inj hstored).2] at hc
  have hline : c ∈ text := by
    have hrest := (List.dropWhile_sublist _).subset (List.mem_of_mem_take hc)
    rw [strchr_some hcolon]
    exact List.mem_append_right _ (List.mem_of_mem_tail hrest)
  have htoken : text ∈ blockLines _ := hlines ▸ List.mem_cons_of_mem line htext
  obtain ⟨hcopy, hend⟩ := Tokens.of_mem_tokens htoken hline
  have hraw := List.mem_takeWhile_imp hcopy
  have hreturn := List.of_mem_filter ((List.takeWhile_sublist _).subset hcopy)
  simp only [decide_eq_true_eq, decide_eq_false_iff_not] at hend hraw hreturn
  exact ⟨hreturn, hend, hraw⟩

/-! ### What is sent -/

theorem lineEnd_eq : ascii "\r\n" = lineEnd := by decide

theorem httpBuildCors_eq (req : HttpRequest) :
    httpBuildCors req = ((corsLines req).flatMap (· ++ lineEnd)).take 255 := by
  have hcredentials : ascii "Access-Control-Allow-Credentials: true\r\n" =
      ascii "Access-Control-Allow-Credentials: true" ++ lineEnd := by decide +kernel
  have hheaders : ascii "Access-Control-Allow-Headers: Content-Type, Authorization, Cookie\r\n" =
      ascii "Access-Control-Allow-Headers: Content-Type, Authorization, Cookie" ++ lineEnd := by decide +kernel
  have hmethods : ascii "Access-Control-Allow-Methods: GET, POST, DELETE, OPTIONS\r\n" =
      ascii "Access-Control-Allow-Methods: GET, POST, DELETE, OPTIONS" ++ lineEnd := by decide +kernel
  rw [httpBuildCors, snprintf, hcredentials, hheaders, hmethods, lineEnd_eq]
  simp only [corsLines, allowOrigin, List.flatMap_cons, List.flatMap_nil, List.append_assoc, List.append_nil]

theorem corsLines_length (req : HttpRequest) :
    ((corsLines req).flatMap (· ++ lineEnd)).length = 196 + (allowOrigin req).length := by
  have horigin : (ascii "Access-Control-Allow-Origin: ").length = 29 := by decide
  have hcredentials : (ascii "Access-Control-Allow-Credentials: true").length = 38 := by decide +kernel
  have hheaders : (ascii "Access-Control-Allow-Headers: Content-Type, Authorization, Cookie").length = 65 := by
    decide +kernel
  have hmethods : (ascii "Access-Control-Allow-Methods: GET, POST, DELETE, OPTIONS").length = 56 := by decide +kernel
  have hend : lineEnd.length = 2 := rfl
  simp only [corsLines, List.flatMap_cons, List.flatMap_nil, List.length_append, List.length_nil, horigin, hcredentials,
    hheaders, hmethods, hend]
  omega

theorem exists_corsHeaders (horigin : ∀ c ∈ allowOrigin req, IsLineChar c) :
    ∃ headers : List HeaderLine, headers.map HeaderLine.text = corsLines req ∧
      ∀ header ∈ headers, eqIgnoreCase header.name (ascii "Content-Length") = false := by
  have hfield : ∀ c ∈ 32 :: allowOrigin req, IsLineChar c := List.forall_mem_cons.mpr ⟨by decide, horigin⟩
  let first : HeaderLine := ⟨ascii "Access-Control-Allow-Origin", 32 :: allowOrigin req, by decide,
    forall_mem_of_all (by decide +kernel), hfield⟩
  let second : HeaderLine := ⟨ascii "Access-Control-Allow-Credentials", ascii " true", by decide,
    forall_mem_of_all (by decide +kernel), forall_mem_of_all (by decide +kernel)⟩
  let third : HeaderLine := ⟨ascii "Access-Control-Allow-Headers", ascii " Content-Type, Authorization, Cookie", by decide,
    forall_mem_of_all (by decide +kernel), forall_mem_of_all (by decide +kernel)⟩
  let fourth : HeaderLine := ⟨ascii "Access-Control-Allow-Methods", ascii " GET, POST, DELETE, OPTIONS", by decide,
    forall_mem_of_all (by decide +kernel), forall_mem_of_all (by decide +kernel)⟩
  have hfirst : first.text = ascii "Access-Control-Allow-Origin: " ++ allowOrigin req := by
    have hname : ascii "Access-Control-Allow-Origin: " = ascii "Access-Control-Allow-Origin" ++ [58, 32] := by
      decide +kernel
    rw [hname, List.append_assoc]
    rfl
  have hsecond : second.text = ascii "Access-Control-Allow-Credentials: true" := by decide +kernel
  have hthird : third.text = ascii "Access-Control-Allow-Headers: Content-Type, Authorization, Cookie" := by
    decide +kernel
  have hfourth : fourth.text = ascii "Access-Control-Allow-Methods: GET, POST, DELETE, OPTIONS" := by decide +kernel
  refine ⟨[first, second, third, fourth], ?_, ?_⟩
  · rw [List.map_cons, List.map_cons, List.map_cons, List.map_singleton, hfirst, hsecond, hthird, hfourth, corsLines]
  · have hname : eqIgnoreCase (ascii "Access-Control-Allow-Origin") (ascii "Content-Length") = false := by decide +kernel
    refine List.forall_mem_cons.mpr ⟨hname, List.forall_mem_cons.mpr ⟨by decide +kernel, ?_⟩⟩
    exact List.forall_mem_cons.mpr ⟨by decide +kernel, List.forall_mem_singleton.mpr (by decide +kernel)⟩

theorem exists_lengthHeader (n : Nat) :
    ∃ header : HeaderLine, header.text = ascii "Content-Length: " ++ decimal n ∧
      eqIgnoreCase header.name (ascii "Content-Length") = true := by
  have hfield : ∀ c ∈ 32 :: decimal n, IsLineChar c := by
    refine List.forall_mem_cons.mpr ⟨by decide, fun c hc => ⟨?_, ?_, ?_⟩⟩
    · rintro rfl
      exact not_mem_decimal (c := '\r') (by decide) (by decide) n hc
    · rintro rfl
      exact not_mem_decimal (c := '\n') (by decide) (by decide) n hc
    · rintro rfl
      exact not_mem_decimal (c := '\x00') (by decide) (by decide) n hc
  have hname : ascii "Content-Length: " = ascii "Content-Length" ++ [58, 32] := by decide
  have hself : eqIgnoreCase (ascii "Content-Length") (ascii "Content-Length") = true := by decide
  refine ⟨⟨ascii "Content-Length", 32 :: decimal n, by decide, forall_mem_of_all (by decide), hfield⟩, ?_, hself⟩
  rw [hname, List.append_assoc]
  rfl

/-- A reply whose status line and header lines are complete, up to what is cut off at the end. -/
structure Reply.Printed (reply : Reply) (status : Bytes) (headers : List HeaderLine) : Prop where
  statusLine : reply.statusLine = status ++ lineEnd
  status_isLine : ∀ c ∈ status, IsLineChar c
  status_version : ascii "HTTP/1.1 " <+: status
  lengths : ∀ header ∈ headers, eqIgnoreCase header.name (ascii "Content-Length") = false
  isPrefix : reply.headers <+: headers.flatMap HeaderLine.print
  fits : status.length + reply.headers.length ≤ 900
  body_fits : reply.body.length < 2 ^ 63

/-- What is sent in front of the body. -/
def Reply.head (reply : Reply) : Bytes :=
  reply.statusLine ++ ascii "Content-Length: " ++ decimal reply.body.length ++ ascii "\r\n" ++ reply.headers ++
    ascii "\r\n"

variable {status : Bytes} {headers : List HeaderLine} {lines : List Bytes}

theorem Reply.Printed.send (h : reply.Printed status headers) :
    httpSendResponse reply = some (reply.head ++ reply.body) := by
  have hfits := h.fits
  have hdigits := decimal_length (n := reply.body.length) (by omega) (by have := h.body_fits; omega)
  have hname : (ascii "Content-Length: ").length = 16 := by decide
  have hend : lineEnd.length = 2 := rfl
  have hshort : ¬ reply.head.length ≥ 1024 := by
    simp only [Reply.head, h.statusLine, lineEnd_eq, List.length_append, hname, hend]
    omega
  exact if_neg hshort

theorem Reply.Printed.isReply (h : reply.Printed status headers)
    (hall : reply.headers = headers.flatMap HeaderLine.print)
    (hlines : ∀ line ∈ lines, line ∈ headers.map HeaderLine.text) : IsReply lines (reply.head ++ reply.body) := by
  obtain ⟨header, htext, hname⟩ := exists_lengthHeader reply.body.length
  refine ⟨status, header :: headers, reply.body, ?_, h.status_version, h.status_isLine, ?_, ?_⟩
  · rw [Reply.head, h.statusLine, hall, List.flatMap_cons, HeaderLine.print, htext, lineEnd_eq]
    simp only [List.append_assoc]
  · have hnone : headers.filter (fun header => eqIgnoreCase header.name (ascii "Content-Length")) = [] :=
      List.filter_eq_nil_iff.mpr fun other hother => by simp [h.lengths other hother]
    rw [List.filter_cons, if_pos hname, hnone, List.map_singleton, htext]
  · intro line hline
    exact List.mem_cons_of_mem _ (hlines line hline)

theorem HeaderLine.name_eq (header : HeaderLine) : header.name = header.text.takeWhile fun c => c ≠ 58 := by
  have hcolon : 58 ∉ header.name := fun hmem => (isTokenChar_plain (header.name_isToken 58 hmem)).2 rfl
  rw [HeaderLine.text, takeWhile_append_cons hcolon]

theorem HeaderLine.return_notMem_text (header : HeaderLine) : 13 ∉ header.text := fun hmem =>
  (header.text_isLine 13 hmem).1 rfl

theorem Reply.Printed.of_isReply (h : reply.Printed status headers) (hreply : IsReply lines (reply.head ++ reply.body))
    (hlines : lines ≠ []) :
    ∃ sent : List HeaderLine, reply.headers = sent.flatMap HeaderLine.print ∧
      sent.map HeaderLine.text <+: headers.map HeaderLine.text ∧
      ∀ line ∈ lines, line = ascii "Content-Length: " ++ decimal reply.body.length ∨
        line ∈ sent.map HeaderLine.text := by
  obtain ⟨status', sent, body, heq, -, hstatus, hlength, hin⟩ := hreply
  obtain ⟨header, htext, hname⟩ := exists_lengthHeader reply.body.length
  have hplain {s : Bytes} (hs : ∀ c ∈ s, IsLineChar c) : 13 ∉ s := fun hmem => (hs 13 hmem).1 rfl
  have hactual : reply.head ++ reply.body =
      status ++ 13 :: (10 :: (header.text ++ 13 :: (10 :: (reply.headers ++ lineEnd ++ reply.body)))) := by
    rw [Reply.head, h.statusLine, htext, lineEnd_eq]
    simp [lineEnd]
  -- the status line and the first header line are the same
  have hfirst : sent ≠ [] := by
    rintro rfl
    obtain ⟨line, hline⟩ := List.exists_mem_of_ne_nil _ hlines
    cases hin line hline
  obtain ⟨first, sent, rfl⟩ := List.exists_cons_of_ne_nil hfirst
  have hgiven : status' ++ lineEnd ++ (first :: sent).flatMap HeaderLine.print ++ lineEnd ++ body =
      status' ++ 13 :: (10 :: (first.text ++ 13 :: (10 :: (sent.flatMap HeaderLine.print ++ lineEnd ++ body)))) := by
    simp [HeaderLine.print, lineEnd]
  rw [hactual, hgiven] at heq
  obtain ⟨-, hrest⟩ := line_inj (hplain h.status_isLine) (hplain hstatus) heq
  obtain ⟨hsame, hrest⟩ := line_inj header.return_notMem_text first.return_notMem_text (List.cons.inj hrest).2
  have hbody : reply.headers ++ lineEnd ++ reply.body = sent.flatMap HeaderLine.print ++ lineEnd ++ body :=
    (List.cons.inj hrest).2
  -- so the length is that of the body
  have hnumber : reply.body.length = body.length := by
    have hfirstName : eqIgnoreCase first.name (ascii "Content-Length") = true := by
      rw [first.name_eq, ← hsame, ← header.name_eq]
      exact hname
    rw [List.filter_cons, if_pos hfirstName, List.map_cons] at hlength
    have htexts := (List.cons.inj hlength).1
    rw [← hsame, htext] at htexts
    exact decimal_injective (List.append_cancel_left htexts)
  have hheaders : reply.headers = sent.flatMap HeaderLine.print :=
    List.append_cancel_right (List.append_inj' hbody hnumber).1
  refine ⟨sent, hheaders, ?_, ?_⟩
  · have hreturn (list : List HeaderLine) : ∀ s ∈ list.map HeaderLine.text, 13 ∉ s := by
      intro s hs
      obtain ⟨other, -, rfl⟩ := List.mem_map.mp hs
      exact other.return_notMem_text
    refine lines_isPrefix (hreturn sent) (hreturn headers) ?_
    rw [← flatMap_print, ← flatMap_print, ← hheaders]
    exact h.isPrefix
  · intro line hline
    rcases List.mem_cons.mp (hin line hline) with rfl | hmem
    · exact .inl (hsame.symm.trans htext)
    · exact .inr hmem

/-! ### The four lines -/

/-- The last of the four lines. -/
def methodsLine : Bytes := ascii "Access-Control-Allow-Methods: GET, POST, DELETE, OPTIONS"

/-- The reply of a handler: without the four lines, or with them behind its own header lines. -/
inductive AccountReply (req : HttpRequest) : Bool → Reply → Prop where
  | plain (status body : String) (hstatus : ∀ c ∈ ascii status, IsLineChar c) (hlength : (ascii status).length ≤ 100)
    (hbody : (ascii body).length ≤ 100) : AccountReply req false (textReply status body)
  | cors (status : String) (before : List HeaderLine) (body : Bytes) (hstatus : ∀ c ∈ ascii status, IsLineChar c)
    (hbefore : ∀ header ∈ before,
      eqIgnoreCase header.name (ascii "Content-Length") = false ∧ header.text ≠ methodsLine)
    (hlength : (ascii status).length + (before.flatMap HeaderLine.print).length ≤ 600) (hbody : body.length < 2 ^ 63) :
    AccountReply req true ⟨ascii "HTTP/1.1 " ++ ascii status ++ ascii "\r\n",
      before.flatMap HeaderLine.print ++ httpBuildCors req, body⟩

theorem mem_corsLines_methods (req : HttpRequest) : methodsLine ∈ corsLines req := by
  simp [corsLines, methodsLine]

theorem corsLines_eq (req : HttpRequest) : ∃ front, corsLines req = front ++ [methodsLine] ∧ methodsLine ∉ front := by
  refine ⟨[ascii "Access-Control-Allow-Origin: " ++ allowOrigin req, ascii "Access-Control-Allow-Credentials: true",
    ascii "Access-Control-Allow-Headers: Content-Type, Authorization, Cookie"], rfl, ?_⟩
  intro hmem
  rcases List.mem_cons.mp hmem with horigin | hmem
  · -- the lines differ in the letter behind `Access-Control-Allow-`
    have hletter := congrArg (fun line => (line.take 22).getLast?) horigin
    rw [List.take_append_of_le_length (by decide +kernel)] at hletter
    exact absurd hletter (by decide +kernel)
  · exact absurd hmem (by decide +kernel)

theorem httpVersion_isLine {status : String} (hstatus : ∀ c ∈ ascii status, IsLineChar c) :
    ∀ c ∈ ascii "HTTP/1.1 " ++ ascii status, IsLineChar c :=
  List.forall_mem_append.mpr ⟨forall_mem_of_all (by decide), hstatus⟩

theorem textReply_isReply {status body : String} (hstatus : ∀ c ∈ ascii status, IsLineChar c)
    (hlength : (ascii status).length ≤ 100) (hbody : (ascii body).length ≤ 100) :
    ∃ bytes, httpSendResponse (textReply status body) = some bytes ∧ IsReply [] bytes := by
  have hversion : (ascii "HTTP/1.1 ").length = 9 := by decide
  let header : HeaderLine := ⟨ascii "Content-Type", ascii " text/plain", by decide,
    forall_mem_of_all (by decide), forall_mem_of_all (by decide)⟩
  have hheader : (textReply status body).headers = [header].flatMap HeaderLine.print := by
    change ascii "Content-Type: text/plain\r\n" = _
    decide
  have hshort : ([header].flatMap HeaderLine.print).length = 26 := by decide
  have hprinted : (textReply status body).Printed (ascii "HTTP/1.1 " ++ ascii status) [header] := by
    refine ⟨?_, httpVersion_isLine hstatus, List.prefix_append _ _, ?_, ?_, ?_, ?_⟩
    · rw [textReply, lineEnd_eq]
    · exact List.forall_mem_singleton.mpr (by decide)
    · rw [hheader]
    · rw [hheader, hshort, List.length_append, hversion]
      omega
    · exact Nat.lt_of_le_of_lt hbody (by decide)
  exact ⟨_, hprinted.send, hprinted.isReply hheader (List.forall_mem_nil _)⟩

section

variable {before cors sent : List HeaderLine} (hcors : cors.map HeaderLine.text = corsLines req)

include hcors

theorem flatMap_print_cors : (before ++ cors).flatMap HeaderLine.print =
    before.flatMap HeaderLine.print ++ (corsLines req).flatMap (· ++ lineEnd) := by
  rw [List.flatMap_append, flatMap_print cors, hcors]

theorem cors_printed {status : String} {body : Bytes} (hstatus : ∀ c ∈ ascii status, IsLineChar c)
    (hnames : ∀ header ∈ before ++ cors, eqIgnoreCase header.name (ascii "Content-Length") = false)
    (hlength : (ascii status).length + (before.flatMap HeaderLine.print).length ≤ 600) (hbody : body.length < 2 ^ 63) :
    Reply.Printed ⟨ascii "HTTP/1.1 " ++ ascii status ++ ascii "\r\n",
      before.flatMap HeaderLine.print ++ httpBuildCors req, body⟩ (ascii "HTTP/1.1 " ++ ascii status) (before ++ cors) := by
  have hversion : (ascii "HTTP/1.1 ").length = 9 := by decide
  refine ⟨by rw [lineEnd_eq], httpVersion_isLine hstatus, List.prefix_append _ _, hnames, ?_, ?_, hbody⟩
  · rw [flatMap_print_cors hcors, httpBuildCors_eq]
    exact (List.prefix_append_right_inj _).mpr (List.take_prefix _ _)
  · rw [List.length_append, List.length_append, hversion, httpBuildCors_eq, List.length_take]
    omega

theorem origin_short_of_sent (hbefore : ∀ header ∈ before, header.text ≠ methodsLine)
    (hsent : before.flatMap HeaderLine.print ++ httpBuildCors req = sent.flatMap HeaderLine.print)
    (hlines : sent.map HeaderLine.text <+: (before ++ cors).map HeaderLine.text)
    (hmethods : methodsLine ∈ sent.map HeaderLine.text) : (allowOrigin req).length ≤ 59 := by
  obtain ⟨front, hfront, hnot⟩ := corsLines_eq req
  have hnotBefore : methodsLine ∉ before.map HeaderLine.text ++ front := by
    intro hmem
    rcases List.mem_append.mp hmem with hmem | hmem
    · obtain ⟨header, hheader, htext⟩ := List.mem_map.mp hmem
      exact hbefore header hheader htext
    · exact hnot hmem
  rw [List.map_append, hcors, hfront, ← List.append_assoc, List.prefix_concat_iff] at hlines
  have hwhole := hlines.resolve_right fun hshort => hnotBefore (hshort.subset hmethods)
  rw [flatMap_print sent, hwhole, List.append_assoc, ← hfront, List.flatMap_append, ← flatMap_print] at hsent
  have hcut := congrArg List.length (List.append_cancel_left hsent)
  rw [httpBuildCors_eq, List.length_take, corsLines_length] at hcut
  omega

end

/-- **Which replies are well formed**: those without the four lines, and those for an origin of at most 59 bytes. -/
theorem AccountReply.isReply_iff {carries : Bool} (h : AccountReply req carries reply)
    (horigin : ∀ c ∈ allowOrigin req, IsLineChar c) :
    (∃ bytes, httpSendResponse reply = some bytes ∧ IsReply (if carries then corsLines req else []) bytes) ↔
      (carries = true → (allowOrigin req).length ≤ 59) := by
  cases h with
  | plain status body hstatus hlength hbody =>
      rw [if_neg (by simp)]
      exact iff_of_true (textReply_isReply hstatus hlength hbody) (by simp)
  | cors status before body hstatus hbefore hlength hbody =>
      obtain ⟨cors, hcors, hcorsNames⟩ := exists_corsHeaders horigin
      have hnames : ∀ header ∈ before ++ cors, eqIgnoreCase header.name (ascii "Content-Length") = false :=
        List.forall_mem_append.mpr ⟨fun header hmem => (hbefore header hmem).1, hcorsNames⟩
      have hprinted := cors_printed hcors hstatus hnames hlength hbody
      rw [if_pos rfl]
      constructor
      · rintro ⟨bytes, hsend, hreply⟩ -
        rw [hprinted.send, Option.some_inj] at hsend
        rw [← hsend] at hreply
        obtain ⟨sent, hsent, hlines, hall⟩ := hprinted.of_isReply hreply
          (List.ne_nil_of_mem (mem_corsLines_methods req))
        have hmethods : methodsLine ∈ sent.map HeaderLine.text := by
          refine (hall methodsLine (mem_corsLines_methods req)).resolve_left fun heq => ?_
          have hletter := congrArg List.head? heq
          rw [List.head?_append_of_ne_nil _ (by decide)] at hletter
          exact absurd hletter (by decide +kernel)
        exact origin_short_of_sent hcors (fun header hmem => (hbefore header hmem).2) hsent hlines hmethods
      · intro hshort
        have hsize := corsLines_length req
        refine ⟨_, hprinted.send, hprinted.isReply ?_ ?_⟩
        · rw [flatMap_print_cors hcors, httpBuildCors_eq, List.take_of_length_le (by have := hshort rfl; omega)]
        · intro line hline
          rw [List.map_append, hcors]
          exact List.mem_append_right _ hline

/-! ### The handlers -/

theorem sessionGenerateId_some {random : Option (Vector UInt8 32)} {sid : Bytes}
    (h : sessionGenerateId random = some sid) :
    sid.length = sessionIdLen ∧ ∀ c ∈ sid, IsLineChar c := by
  obtain ⟨bytes, -, rfl⟩ := Option.map_eq_some_iff.mp h
  have hdigit (n : Fin 16) : IsLineChar ((ascii "0123456789abcdef").getD n 0) := by
    revert n
    decide
  have hlow (b : UInt8) : (b &&& 0xF).toNat < 16 := by
    rw [UInt8.toNat_and]
    exact Nat.and_lt_two_pow _ (by decide : (0xF : UInt8).toNat < 2 ^ 4)
  constructor
  · simp [List.length_flatMap]
  · intro c hc
    obtain ⟨b, -, hmem⟩ := List.mem_flatMap.mp hc
    rcases List.mem_cons.mp hmem with rfl | hmem
    · exact hdigit ⟨_, hlow (b >>> 4)⟩
    · rw [List.mem_singleton.mp hmem]
      exact hdigit ⟨_, hlow b⟩

theorem sessionHeaders_eq (req : HttpRequest) {contentType cookie : Bytes} (htype : ∀ c ∈ contentType, IsLineChar c)
    (hcookie : ∀ c ∈ cookie, IsLineChar c) (htypeLength : contentType.length ≤ 30)
    (hcookieLength : cookie.length ≤ 80) :
    ∃ before : List HeaderLine,
      sessionHeaders contentType cookie req = some (before.flatMap HeaderLine.print ++ httpBuildCors req) ∧
      (∀ header ∈ before, eqIgnoreCase header.name (ascii "Content-Length") = false ∧ header.text ≠ methodsLine) ∧
      (before.flatMap HeaderLine.print).length ≤ 256 := by
  have hend : ∀ c ∈ ascii "HttpOnly; Path=/; SameSite=Lax", IsLineChar c := forall_mem_of_all (by decide +kernel)
  let first : HeaderLine := ⟨ascii "Content-Type", 32 :: contentType, by decide, forall_mem_of_all (by decide),
    List.forall_mem_cons.mpr ⟨by decide, htype⟩⟩
  let second : HeaderLine := ⟨ascii "Set-Cookie", ascii " SID=" ++ (cookie ++ ascii "HttpOnly; Path=/; SameSite=Lax"),
    by decide, forall_mem_of_all (by decide), List.forall_mem_append.mpr ⟨forall_mem_of_all (by decide),
      List.forall_mem_append.mpr ⟨hcookie, hend⟩⟩⟩
  have hfirst : first.print = ascii "Content-Type: " ++ (contentType ++ lineEnd) := by
    have hname : ascii "Content-Type: " = ascii "Content-Type" ++ [58, 32] := by decide
    rw [HeaderLine.print, HeaderLine.text, hname, List.append_assoc, List.append_assoc]
    rfl
  have hsecond : second.print =
      ascii "Set-Cookie: SID=" ++ (cookie ++ (ascii "HttpOnly; Path=/; SameSite=Lax" ++ lineEnd)) := by
    have hname : ascii "Set-Cookie: SID=" = ascii "Set-Cookie" ++ 58 :: ascii " SID=" := by decide
    simp only [HeaderLine.print, HeaderLine.text, second, hname, List.append_assoc, List.cons_append]
  have hjoin : ascii "\r\nSet-Cookie: SID=" = lineEnd ++ ascii "Set-Cookie: SID=" := by decide
  have hlast : ascii "HttpOnly; Path=/; SameSite=Lax\r\n" = ascii "HttpOnly; Path=/; SameSite=Lax" ++ lineEnd := by
    decide +kernel
  have htext : ascii "Content-Type: " ++ contentType ++ ascii "\r\nSet-Cookie: SID=" ++ cookie ++
      ascii "HttpOnly; Path=/; SameSite=Lax\r\n" = [first, second].flatMap HeaderLine.print := by
    rw [List.flatMap_cons, List.flatMap_singleton, hfirst, hsecond, hjoin, hlast]
    simp only [List.append_assoc]
  have hlength : ([first, second].flatMap HeaderLine.print).length ≤ 256 := by
    have htypeName : (ascii "Content-Type: ").length = 14 := by decide
    have hcookieName : (ascii "Set-Cookie: SID=").length = 16 := by decide
    have hattributes : (ascii "HttpOnly; Path=/; SameSite=Lax").length = 30 := by decide
    have hend : lineEnd.length = 2 := rfl
    simp only [List.flatMap_cons, List.flatMap_nil, hfirst, hsecond, List.length_append, htypeName, hcookieName,
      hattributes, hend, List.length_nil]
    omega
  have hcors : (httpBuildCors req).length ≤ 255 := List.length_take_le _ _
  refine ⟨[first, second], ?_, ?_, hlength⟩
  · rw [sessionHeaders, htext, if_neg]
    rw [List.length_append]
    omega
  · have hother {header : HeaderLine} {d : UInt8} (hd : header.name.head? = some d) (hne : d ≠ 65) :
        header.text ≠ methodsLine := by
      intro heq
      have hhead := congrArg List.head? heq
      rw [HeaderLine.text, List.head?_append_of_ne_nil _ header.name_ne_nil, hd] at hhead
      exact hne (Option.some.inj (hhead.trans (by decide +kernel)))
    have hfirstName : eqIgnoreCase (ascii "Content-Type") (ascii "Content-Length") = false := by decide
    have hsecondName : eqIgnoreCase (ascii "Set-Cookie") (ascii "Content-Length") = false := by decide
    refine List.forall_mem_cons.mpr ⟨⟨hfirstName, hother (d := 67) rfl (by decide)⟩, ?_⟩
    exact List.forall_mem_singleton.mpr ⟨hsecondName, hother (d := 83) rfl (by decide)⟩

theorem sessionBody_length (sid username nickname : Bytes) (isAdmin : Bool) :
    (sessionBody sid username nickname isAdmin).length < 2 ^ 63 :=
  Nat.lt_of_le_of_lt (List.length_take_le _ _) (by decide)

theorem noContent_accountReply (req : HttpRequest) : AccountReply req true (noContent req) :=
  .cors "204 No Content" [] [] (forall_mem_of_all (by decide)) (List.forall_mem_nil _) (by decide) (by decide)

theorem session_accountReply (req : HttpRequest) {sid body : Bytes}
    (hsid : sid.length = sessionIdLen ∧ ∀ c ∈ sid, IsLineChar c)
    (hbody : body.length < 2 ^ 63) :
    ∃ headers, sessionHeaders (ascii "application/json") (sid ++ ascii "; ") req = some headers ∧
      AccountReply req true ⟨ascii "HTTP/1.1 200 OK\r\n", headers, body⟩ := by
  have hcookie : ∀ c ∈ sid ++ ascii "; ", IsLineChar c :=
    List.forall_mem_append.mpr ⟨hsid.2, forall_mem_of_all (by decide)⟩
  have hlength : (sid ++ ascii "; ").length ≤ 80 := by
    rw [List.length_append, hsid.1]
    decide
  have htype : ∀ c ∈ ascii "application/json", IsLineChar c := forall_mem_of_all (by decide)
  obtain ⟨before, hheaders, hbefore, hbeforeLength⟩ := sessionHeaders_eq req htype hcookie (by decide) hlength
  refine ⟨_, hheaders, .cors "200 OK" before body (forall_mem_of_all (by decide)) hbefore ?_ hbody⟩
  exact Nat.le_trans (Nat.add_le_add_left hbeforeLength _) (by decide)

variable {env : ApiEnv} {conn : Conn} {body : Bytes} {random : Option (Vector UInt8 32)}

theorem sessionLogin_some {user pass sid : Bytes} (h : (sessionLogin env conn user pass).1 = some sid) :
    env.sessionId = some sid := by
  rw [sessionLogin] at h
  split at h
  · cases h
  split_ifs at h
  split at h
  · cases h
  rename_i hid
  split at h
  · cases h
  · rw [hid]
    exact h

theorem unavailable_accountReply (req : HttpRequest) : AccountReply req false serviceUnavailable :=
  .plain "503 Service Unavailable" "service-unavailable" (forall_mem_of_all (by decide)) (by decide) (by decide)

theorem method_accountReply (req : HttpRequest) :
    AccountReply req false (textReply "405 Method Not Allowed" "method-not-allowed") :=
  .plain "405 Method Not Allowed" "method-not-allowed" (forall_mem_of_all (by decide)) (by decide) (by decide)

theorem json_accountReply (req : HttpRequest) : AccountReply req false (textReply "400 Bad Request" "bad-json") :=
  .plain "400 Bad Request" "bad-json" (forall_mem_of_all (by decide)) (by decide) (by decide)

/-- The handler answers with such a reply. -/
def Answers (req : HttpRequest) (carries : Bool) (result : ApiResult) : Prop :=
  ∃ reply, result.answer = .reply reply ∧ AccountReply req carries reply

theorem Answers.checked {carries : Bool} {rest : ApiResult} (h : Answers req carries rest) :
    Answers req (env.db && (req.hasMethod "OPTIONS" || carries))
      (if env.db = false then .ofReply serviceUnavailable conn
        else if req.hasMethod "OPTIONS" then .ofReply (noContent req) conn else rest) := by
  cases env.db with
  | false => exact ⟨_, rfl, unavailable_accountReply req⟩
  | true =>
      rw [if_neg (by simp), Bool.true_and]
      cases req.hasMethod "OPTIONS" with
      | true => exact ⟨_, rfl, noContent_accountReply req⟩
      | false => exact h

theorem Answers.posted {carries : Bool} {rest : ApiResult} (h : Answers req carries rest) :
    Answers req (req.hasMethod "POST" && carries)
      (if req.hasMethod "POST" = false then .ofReply (textReply "405 Method Not Allowed" "method-not-allowed") conn
        else rest) := by
  cases req.hasMethod "POST" with
  | false => exact ⟨_, rfl, method_accountReply req⟩
  | true => exact h

theorem handleLogin_reply (hid : env.sessionId = sessionGenerateId random) :
    Answers req (env.db && (req.hasMethod "OPTIONS" ||
      (req.hasMethod "POST" && (loginSession env conn body).isSome))) (handleLogin env req conn body) := by
  rw [handleLogin]
  refine Answers.checked (Answers.posted ?_)
  rw [loginSession]
  dsimp only
  cases huser : jsonExtractString (ofMemory (body.take httpMaxBody)) "username" 128 with
  | none => exact ⟨_, rfl, json_accountReply req⟩
  | some user =>
  cases hpass : jsonExtractString (ofMemory (body.take httpMaxBody)) "password" 128 with
  | none => exact ⟨_, rfl, json_accountReply req⟩
  | some pass =>
  dsimp only
  cases hlogin : sessionLogin env conn user pass with
  | mk session conn' =>
  cases session with
  | none =>
      exact ⟨_, rfl, .plain "401 Unauthorized" "login-failed" (forall_mem_of_all (by decide)) (by decide) (by decide)⟩
  | some sid =>
      have hsid := sessionGenerateId_some (hid.symm.trans (sessionLogin_some (congrArg Prod.fst hlogin)))
      dsimp only
      cases conn'.query fun db stmt => dbGetUserByUsername db stmt user with
      | mk result conn'' =>
          cases result with
          | ok row =>
              obtain ⟨headers, hheaders, hreply⟩ := session_accountReply req hsid
                (sessionBody_length sid user (if row.nickname ≠ [] then row.nickname else user) (isAdminRole row.role))
              rw [hheaders]
              exact ⟨_, rfl, hreply⟩
          | error rc =>
              obtain ⟨headers, hheaders, hreply⟩ := session_accountReply req hsid
                (sessionBody_length sid user (if env.staleNickname ≠ [] then env.staleNickname else user) false)
              rw [hheaders]
              exact ⟨_, rfl, hreply⟩

theorem handleSignup_reply (hid : env.sessionId = sessionGenerateId random) :
    Answers req (env.db && (req.hasMethod "OPTIONS" ||
      (req.hasMethod "POST" && (signupSession env conn body).isSome))) (handleSignup env req conn body) := by
  rw [handleSignup]
  refine Answers.checked (Answers.posted ?_)
  rw [signupSession]
  dsimp only
  cases huser : jsonExtractString (ofMemory (body.take httpMaxBody)) "username" dbMaxUsername with
  | none => exact ⟨_, rfl, json_accountReply req⟩
  | some username =>
  cases hpass : jsonExtractString (ofMemory (body.take httpMaxBody)) "password" 128 with
  | none => exact ⟨_, rfl, json_accountReply req⟩
  | some password =>
  cases hnick : jsonExtractString (ofMemory (body.take httpMaxBody)) "nickname" dbMaxNickname with
  | none => exact ⟨_, rfl, json_accountReply req⟩
  | some nickname =>
  dsimp only
  cases conn.query fun db stmt => dbGetUserByUsername db stmt username with
  | mk result conn₁ =>
  cases result with
  | ok row => exact ⟨_, rfl, .plain "409 Conflict" "user-exists"
      (forall_mem_of_all (by decide)) (by decide) (by decide)⟩
  | error rc =>
  dsimp only
  by_cases hhash : env.hashPassword password = []
  · rw [if_pos hhash, if_pos hhash]
    exact ⟨_, rfl, .plain "500 Internal Server Error" "hash-failed"
      (forall_mem_of_all (by decide)) (by decide) (by decide)⟩
  rw [if_neg hhash, if_neg hhash]
  cases conn₁.insert fun db stmt => dbCreateUser db stmt username nickname (env.hashPassword password) .user with
  | mk inserted conn₂ =>
  cases inserted with
  | none =>
      exact ⟨_, rfl,
        .plain "500 Internal Server Error" "create-user-failed" (forall_mem_of_all (by decide)) (by decide) (by decide)⟩
  | some userId =>
  have hfailed : AccountReply req false (textReply "500 Internal Server Error" "session-failed") :=
    .plain "500 Internal Server Error" "session-failed" (forall_mem_of_all (by decide)) (by decide) (by decide)
  dsimp only
  cases hsession : env.sessionId with
  | none => exact ⟨_, rfl, hfailed⟩
  | some sid =>
  have hsid := sessionGenerateId_some (hid.symm.trans hsession)
  dsimp only
  rw [Option.filter_some]
  cases conn₂.exec fun db stmt => dbCreateSession db stmt userId sid sessionTtlSeconds with
  | mk created conn₃ =>
  cases created with
  | false => exact ⟨_, rfl, hfailed⟩
  | true =>
      obtain ⟨headers, hheaders, hreply⟩ :=
        session_accountReply req hsid (sessionBody_length sid username nickname false)
      dsimp only
      rw [hheaders]
      exact ⟨_, rfl, hreply⟩

theorem handleLogout_reply :
    Answers req (env.db && (req.hasMethod "OPTIONS" ||
      (sessionExtractFromHeaders req (sessionIdLen + 1)).isSome)) (handleLogout env req conn) := by
  rw [handleLogout]
  refine Answers.checked ?_
  cases hsession : sessionExtractFromHeaders req (sessionIdLen + 1) with
  | none => exact ⟨_, rfl, .plain "400 Bad Request" "session-missing"
      (forall_mem_of_all (by decide)) (by decide) (by decide)⟩
  | some sid =>
      obtain ⟨before, hheaders, hbefore, hlength⟩ := sessionHeaders_eq req
        (forall_mem_of_all (by decide) : ∀ c ∈ ascii "text/plain", IsLineChar c)
        (forall_mem_of_all (by decide) : ∀ c ∈ ascii "; Max-Age=0; ", IsLineChar c) (by decide) (by decide)
      dsimp only
      rw [hheaders]
      refine ⟨_, rfl, .cors "200 OK" before (ascii "logged-out") (forall_mem_of_all (by decide)) hbefore ?_ (by decide)⟩
      exact Nat.le_trans (Nat.add_le_add_left hlength _) (by decide)

theorem handleUpload_reply (hoptions : req.hasMethod "OPTIONS" = true) :
    Answers req env.db (handleUpload env req conn body) := by
  rw [handleUpload]
  cases hdb : env.db with
  | false => exact ⟨_, rfl, unavailable_accountReply req⟩
  | true =>
      rw [if_neg (by simp), if_pos hoptions]
      exact ⟨_, rfl, noContent_accountReply req⟩

theorem routeHandler_reply (hroute : AccountRoute req) (hid : env.sessionId = sessionGenerateId random) :
    Answers req (carriesCors env req conn body) (routeHandler env req conn body) := by
  have hlogin : ascii "/signup" ≠ ascii "/login" := by decide
  have hlogout : ascii "/logout" ≠ ascii "/login" ∧ ascii "/logout" ≠ ascii "/signup" := by decide
  have hupload : ascii "/upload" ≠ ascii "/login" ∧ ascii "/upload" ≠ ascii "/signup" ∧
      ascii "/upload" ≠ ascii "/logout" := by decide
  rw [routeHandler, carriesCors]
  rcases hroute with hpath | hpath | hpath | ⟨hpath, hoptions⟩
  · rw [hpath, if_pos rfl, if_pos rfl]
    exact handleLogin_reply hid
  · rw [hpath, if_neg hlogin, if_pos rfl, if_neg hlogin, if_pos rfl]
    exact handleSignup_reply hid
  · rw [hpath, if_neg hlogout.1, if_neg hlogout.2, if_pos rfl, if_neg hlogout.1, if_neg hlogout.2]
    exact handleLogout_reply
  · rw [hpath, if_neg hupload.1, if_neg hupload.2.1, if_neg hupload.2.2, if_pos rfl, hoptions, Bool.true_or,
      Bool.and_true]
    exact handleUpload_reply hoptions

theorem allowOrigin_isLine {malloc : Bool} {raw : Bytes} (hreq : httpParseRequest malloc raw = some req) :
    ∀ c ∈ allowOrigin req, IsLineChar c := by
  rw [allowOrigin]
  cases hvalue : req.header (ascii "origin") with
  | none => exact forall_mem_of_all (by decide)
  | some value => exact header_isLine hreq hvalue

/-- **A reply to an account request is well formed, with its four lines in full, for an origin of at most 59 bytes**, and
for every origin when the reply does not carry them. -/
theorem account_reply_iff (malloc : Bool) (raw : Bytes) (req : HttpRequest) (env : ApiEnv)
    (random : Option (Vector UInt8 32)) (conn : Conn) (body : Bytes) (hreq : httpParseRequest malloc raw = some req)
    (hroute : AccountRoute req) (hid : env.sessionId = sessionGenerateId random) :
    (∃ bytes, (routeHandler env req conn body).sent = some bytes ∧
        IsReply (if carriesCors env req conn body then corsLines req else []) bytes) ↔
      (carriesCors env req conn body = true → (allowOrigin req).length ≤ 59) := by
  obtain ⟨reply, hanswer, hreply⟩ : Answers req (carriesCors env req conn body) (routeHandler env req conn body) :=
    routeHandler_reply hroute hid
  have hsent : (routeHandler env req conn body).sent = httpSendResponse reply := by rw [ApiResult.sent, hanswer]
  rw [hsent]
  exact hreply.isReply_iff (allowOrigin_isLine hreq)

/-- The request of a browser that asks before it logs in. -/
def sampleOptions (origin : Bytes) : HttpRequest :=
  ⟨ascii "OPTIONS", ascii "/login", ascii "HTTP/1.1", [(ascii "origin", origin)]⟩

/-- An origin of 16 bytes. -/
theorem account_reply_sixteen :
    ((∃ bytes, (routeHandler sampleApiEnv (sampleOptions (ascii "http://localhost")) emptyConn []).sent = some bytes ∧
        IsReply (if carriesCors sampleApiEnv (sampleOptions (ascii "http://localhost")) emptyConn [] then
          corsLines (sampleOptions (ascii "http://localhost")) else []) bytes) ↔
      (carriesCors sampleApiEnv (sampleOptions (ascii "http://localhost")) emptyConn [] = true →
        (allowOrigin (sampleOptions (ascii "http://localhost"))).length ≤ 59)) :=
  account_reply_iff true (ascii "OPTIONS /login HTTP/1.1\r\nOrigin: http://localhost\r\n\r\n") _ sampleApiEnv none emptyConn []
    (by decide) (.inl (by decide)) rfl

/-- The lines for an origin of 60 bytes do not fit. -/
theorem account_reply_cut :
    ¬ ∀ (malloc : Bool) (raw : Bytes) (req : HttpRequest) (env : ApiEnv) (random : Option (Vector UInt8 32))
      (conn : Conn)
      (body : Bytes), httpParseRequest malloc raw = some req → AccountRoute req →
        env.sessionId = sessionGenerateId random →
          ∃ bytes, (routeHandler env req conn body).sent = some bytes ∧
            IsReply (if carriesCors env req conn body then corsLines req else []) bytes := by
  intro h
  have hparse : httpParseRequest true
      (ascii "OPTIONS /login HTTP/1.1\r\nOrigin: " ++ List.replicate 60 97 ++ ascii "\r\n\r\n") =
      some (sampleOptions (List.replicate 60 97)) := by
    decide +kernel
  have hcarries : carriesCors sampleApiEnv (sampleOptions (List.replicate 60 97)) emptyConn [] = true := by decide
  have hsent := h true _ _ sampleApiEnv none emptyConn [] hparse (.inl (by decide)) rfl
  rw [hcarries] at hsent
  have hshort := ((noContent_accountReply _).isReply_iff (allowOrigin_isLine hparse)).mp hsent rfl
  exact absurd hshort (by decide)

end

end OttQuic.Http
