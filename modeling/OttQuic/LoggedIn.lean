import OttQuic.Auth.Lifetime
import OttQuic.Http.SessionCookie
import OttQuic.Provenance

/-!
# From a login to the next request

A login answers with a cookie, and the browser sends it back with every request. `login_known` follows the session on its
way: from the random bytes into the reply and the table, past the requests of everyone else, and from the cookies of a
later request back to the account that has logged in.
-/

namespace OttQuic

open Auth CString Db Http Transition

/-- The header line of a reply that opens a session. -/
def setCookie (sid : Bytes) : Bytes := ascii "Set-Cookie: SID=" ++ sid ++ ascii "; HttpOnly; Path=/; SameSite=Lax\r\n"

/-- The request sends the cookie back: among those it carries, it is the first that is named `SID`. -/
structure SendsBack (req : HttpRequest) (sid : Bytes) : Prop where
  authorization : req.header (ascii "authorization") = none
  cookie : ∃ front pair back, req.header (ascii "cookie") = some (cookieText [] (front ++ pair :: back)) ∧
    (∀ other ∈ front, other.isSid = false) ∧ pair.isSid = true ∧ pair.value = sid

variable {conn conn' : Conn} {rs : List Request} {env : ApiEnv} {req : HttpRequest} {preRead body sid : Bytes}
  {random : Option (Vector UInt8 32)} {reply : Reply}

/-! ### The cookie -/

theorem SendsBack.extract (h : SendsBack req sid) (hne : sid ≠ []) (hlength : sid.length ≤ sessionIdLen) :
    sessionExtractFromHeaders req (sessionIdLen + 1) = some sid := by
  obtain ⟨front, pair, back, hcookie, hfront, hsid, hvalue⟩ := h.cookie
  rw [sessionExtractFromHeaders, h.authorization, hcookie]
  show extractCookieLoop (sessionIdLen + 1) _ _ = some sid
  let text := cookieText [] (front ++ pair :: back)
  let n := text.length + (cookieOffset front + 4) + sid.length
  have hfull : ([] ++ text).take n = text := List.take_of_length_le (by simp only [List.nil_append, n]; omega)
  have hpairs : front ++ pair :: back ≠ [] := by simp
  have hfuel : (([] ++ cookieText [] (front ++ pair :: back)).take n).length < text.length + 1 := by
    rw [hfull]
    exact Nat.lt_succ_self _
  have hloop := extractCookieLoop_text (n := n) hne (Nat.lt_succ_of_le hlength) (List.forall_mem_nil _)
    (List.forall_mem_nil _) hpairs hfuel
  rw [hfull] at hloop
  refine hloop.mpr ⟨front, pair, back, rfl, hfront, hsid, ?_⟩
  rw [ite_self, List.append_nil, hvalue]
  exact List.take_of_length_le (by simp only [List.length_nil, n]; omega)

/-! ### The login -/

theorem sessionLogin_ok {username password : Bytes} (h : sessionLogin env conn username password = (some sid, conn')) :
    ∃ row ∈ conn.db.users, row.username = username ∧ env.verifyPassword password row.read.passwordHash = true ∧
      env.sessionId = some sid ∧ ⟨toInt row.id, sid, conn.now + sessionTtlSeconds⟩ ∈ conn'.db.sessions := by
  unfold sessionLogin at h
  split at h
  · cases h
  rename_i account conn₁ hquery
  obtain ⟨hget, rfl⟩ := Prod.mk.inj hquery
  obtain ⟨row, hrow, hname, rfl⟩ := dbGetUserByUsername_ok hget
  split at h
  · cases h
  rename_i hverify
  split at h
  · cases h
  rename_i generated hsid
  split at h
  · cases h
  rename_i conn₂ hcreate
  obtain ⟨hgenerated, rfl⟩ := Prod.mk.inj h
  obtain rfl := Option.some.inj hgenerated
  refine ⟨row, hrow, hname, by simpa using hverify, hsid, ?_⟩
  unfold Conn.exec at hcreate
  split at hcreate
  · rename_i db hok
    cases hcreate
    obtain ⟨-, -, rfl⟩ := dbCreateSession_ok hok
    exact List.mem_append_right _ (List.mem_singleton_self _)
  · cases hcreate

theorem sessionHeaders_cookie {headers : Bytes}
    (h : sessionHeaders (ascii "application/json") (sid ++ ascii "; ") req = some headers) :
    setCookie sid <:+: headers := by
  have htype : ascii "\r\nSet-Cookie: SID=" = ascii "\r\n" ++ ascii "Set-Cookie: SID=" := by decide
  have hrest : ascii "; HttpOnly; Path=/; SameSite=Lax\r\n" = ascii "; " ++ ascii "HttpOnly; Path=/; SameSite=Lax\r\n" := by
    decide
  unfold sessionHeaders at h
  simp only at h
  split_ifs at h
  refine ⟨ascii "Content-Type: " ++ ascii "application/json" ++ ascii "\r\n", httpBuildCors req, ?_⟩
  rw [← Option.some.inj h, setCookie, htype, hrest]
  simp only [List.append_assoc]

theorem not_ok {other : Reply} {result : ApiResult} (hok : reply.statusLine = ascii "HTTP/1.1 200 OK\r\n")
    (hreply : result.answer = .reply reply) (hresult : ApiResult.ofReply other conn = result) :
    other.statusLine = ascii "HTTP/1.1 200 OK\r\n" := by
  rw [← hresult] at hreply
  rw [Answer.reply.inj hreply]
  exact hok

theorem handleLogin_ok (hpath : req.path = ascii "/login") (hbody : readBody env req preRead = some body)
    (hreply : (handleLogin env req conn body).answer = .reply reply)
    (hok : reply.statusLine = ascii "HTTP/1.1 200 OK\r\n") :
    ∃ sid row, env.sessionId = some sid ∧ LogsIn env req preRead conn row ∧
      ⟨toInt row.id, sid, conn.now + sessionTtlSeconds⟩ ∈ (handleLogin env req conn body).conn.db.sessions ∧
      setCookie sid <:+: reply.headers := by
  generalize hresult : handleLogin env req conn body = result at hreply ⊢
  unfold handleLogin at hresult
  split at hresult
  · exact absurd (not_ok hok hreply hresult) (by decide)
  split at hresult
  · exact absurd (not_ok hok hreply hresult) (show ascii "HTTP/1.1 204 No Content\r\n" ≠ _ by decide)
  split at hresult
  · exact absurd (not_ok hok hreply hresult) (by decide)
  rename_i hpost
  simp only at hresult
  split at hresult
  · rename_i user pass husername hpassword
    split at hresult
    · exact absurd (not_ok hok hreply hresult) (by decide)
    rename_i sid conn₁ hlogin
    obtain ⟨row, hrow, hname, hverify, hsid, hsession⟩ := sessionLogin_ok hlogin
    have hlogs : LogsIn env req preRead conn row :=
      ⟨hpath, by simpa using hpost, hrow, body, pass, hbody, by rw [hname]; exact husername, hpassword, hverify⟩
    split at hresult
    · exact absurd (not_ok hok hreply hresult) (by decide)
    rename_i headers hheaders
    have hcookie := sessionHeaders_cookie hheaders
    split at hresult
    all_goals
      rename_i hquery
      obtain ⟨-, rfl⟩ := Prod.mk.inj hquery
      rw [← hresult] at hreply ⊢
      rw [← Answer.reply.inj hreply]
      exact ⟨sid, row, hsid, hlogs, hsession, hcookie⟩
  · exact absurd (not_ok hok hreply hresult) (by decide)

theorem httpApiHandle_login (hpath : req.path = ascii "/login")
    (hreply : (httpApiHandle env req preRead conn).answer = .reply reply)
    (hok : reply.statusLine = ascii "HTTP/1.1 200 OK\r\n") :
    ∃ body, readBody env req preRead = some body ∧
      httpApiHandle env req preRead conn = handleLogin env req conn body := by
  generalize hresult : httpApiHandle env req preRead conn = result at hreply ⊢
  unfold httpApiHandle at hresult
  split at hresult
  · exact absurd (not_ok hok hreply hresult) (by decide)
  split at hresult
  · exact absurd (not_ok hok hreply hresult) (by decide)
  split at hresult
  · exact absurd (not_ok hok hreply hresult) (by decide)
  rename_i body hbody
  exact ⟨body, hbody, hresult.symm⟩

/-! ### The way of a session -/

theorem validate_live {session : SessionRow} (hschema : Schema conn.db) (hreliable : conn.Reliable)
    (hmem : session ∈ conn.db.sessions) (hid : toInt session.userId = session.userId) (hlive : conn.now < session.expiresAt) :
    (sessionValidateAndExtend conn session.sessionId sessionTtlSeconds).1 = some session.userId := by
  let lease : Lease := ⟨session.userId, session.expiresAt - sessionTtlSeconds⟩
  have hexpires : session.expiresAt - sessionTtlSeconds + sessionTtlSeconds = session.expiresAt := Int.sub_add_cancel ..
  have hrow : lease.row session.sessionId sessionTtlSeconds = session := by
    show SessionRow.mk _ _ (session.expiresAt - sessionTtlSeconds + sessionTtlSeconds) = session
    rw [hexpires]
  have hback : Backs sessionTtlSeconds conn.now session.sessionId conn.db (some lease) := by
    left
    rw [hrow]
    exact rowsOf_eq_singleton hschema.sessions hmem
  have hcurrent : lease.Current sessionTtlSeconds conn.now := by
    show conn.now < session.expiresAt - sessionTtlSeconds + sessionTtlSeconds
    rwa [hexpires]
  obtain ⟨db', n, hvalidate, -⟩ :=
    validate_current hreliable hback hcurrent ⟨hid, hschema.sessionUsers session hmem⟩ (by decide)
  rw [hvalidate]

/-- **Who has logged in is known.** A login that is answered with `200` sets a cookie. With it every later request is
taken for one of the account that has logged in, in spite of what other requests do that do not have it, for as long as a
session lives. -/
theorem login_known (hschema : Schema conn.db) (hfit : IdsFit conn.db)
    (hrandom : env.sessionId = sessionGenerateId random) (hpath : req.path = ascii "/login")
    (hreply : (httpApiHandle env req preRead conn).answer = .reply reply)
    (hok : reply.statusLine = ascii "HTTP/1.1 200 OK\r\n")
    (hrun : requests.Run conn (.api env req preRead :: rs) conn') :
    ∃ sid row, LogsIn env req preRead conn row ∧ setCookie sid <:+: reply.headers ∧
      ((∀ request ∈ rs, ¬ request.Carries sid) → conn'.now < conn.now + sessionTtlSeconds → conn'.Reliable →
        ∀ later : HttpRequest, SendsBack later sid →
          sessionExtractFromHeaders later (sessionIdLen + 1) = some sid ∧
            (sessionValidateAndExtend conn' sid sessionTtlSeconds).1 = some row.id) := by
  obtain ⟨body, hbody, hhandle⟩ := httpApiHandle_login hpath hreply hok
  rw [hhandle] at hreply
  obtain ⟨sid, row, hsid, hlogs, hsession, hcookie⟩ := handleLogin_ok hpath hbody hreply hok
  obtain ⟨hlength, -⟩ := sessionGenerateId_some (hrandom.symm.trans hsid)
  refine ⟨sid, row, hlogs, hcookie, fun hothers hlive hreliable later hsends => ?_⟩
  obtain ⟨mid, hstep, hrest⟩ := System.run_cons_iff.mp hrun
  have hmid : mid = (handleLogin env req conn body).conn := by
    rw [← hhandle]
    exact hstep
  have hid : toInt row.id = row.id := hschema.toInt_userId hfit hlogs.account
  rw [← hmid, hid] at hsession
  have hstays : ⟨row.id, sid, conn.now + sessionTtlSeconds⟩ ∈ conn'.db.sessions :=
    (session_kept hsession hrest hlive).resolve_right fun ⟨request, hmem, hcarries⟩ =>
      hothers request hmem hcarries
  have hne : sid ≠ [] := by
    rintro rfl
    cases hlength
  exact ⟨hsends.extract hne (Nat.le_of_eq hlength),
    validate_live (requests_schema hrun hschema) hreliable hstays hid hlive⟩

/-- The administrator logs in and comes back after a minute. -/
theorem login_known_root :
    let env : ApiEnv := { sampleApiEnv with
      verifyPassword := fun password hash => password = hash
      sessionId := sessionGenerateId (some (.replicate 32 0)) }
    let login : HttpRequest := ⟨ascii "POST", ascii "/login", ascii "HTTP/1.1", [(ascii "content-length", ascii "35")]⟩
    let body := ascii "\x7b\"username\":\"root\",\"password\":\"pw\"\x7d"
    ∃ reply sid, (httpApiHandle env login body rootConn).answer = .reply reply ∧ setCookie sid <:+: reply.headers ∧
      ∀ later : HttpRequest, SendsBack later sid →
        (sessionValidateAndExtend (Request.run (Request.run rootConn (.api env login body)) (.wait 60)) sid
          sessionTtlSeconds).1 = some 1 := by
  intro env login body
  let result := httpApiHandle env login body rootConn
  obtain ⟨reply, hreply, hok⟩ : ∃ reply, result.answer = .reply reply ∧
      reply.statusLine = ascii "HTTP/1.1 200 OK\r\n" := by
    let reply : Reply := result.answer.casesOn (fun reply => reply) fun _ => noContent login
    have hreply : result.answer = .reply reply ∧ reply.statusLine = ascii "HTTP/1.1 200 OK\r\n" := by decide +kernel
    exact ⟨reply, hreply⟩
  have hrun : requests.Run rootConn [.api env login body, .wait 60]
      (Request.run (Request.run rootConn (.api env login body)) (.wait 60)) := (System.Run.nil.snoc rfl).snoc rfl
  have hrandom : env.sessionId = sessionGenerateId (some (.replicate 32 0)) := rfl
  obtain ⟨sid, row, hlogs, hcookie, hknown⟩ :=
    login_known rootConn_schema ⟨by decide, by decide⟩ hrandom rfl hreply hok hrun
  have hrow : row.id = 1 := by
    obtain rfl := List.mem_singleton.mp hlogs.account
    rfl
  have hreliable : (Request.run (Request.run rootConn (.api env login body)) (.wait 60)).Reliable := fun n => by
    rw [(Request.clock _ _).2, (Request.clock _ _).2]
    rfl
  refine ⟨reply, sid, hreply, hcookie, fun later hsends => ?_⟩
  rw [← hrow]
  exact (hknown (by simp [Request.Carries]) (by decide +kernel) hreliable later hsends).2

end OttQuic
