import OttQuic.Basic
import OttQuic.Lib.CString

/-!
# HTTP requests and the session they carry (`http.c`, `session.c`)

A parsed request, `http_get_header`, and `session_extract_from_headers`: a bearer token of the
`Authorization` header, or else the `SID` cookie.
-/

namespace OttQuic.Http

open CString

/-- `http_request_t`; the header names are in lower case. -/
structure HttpRequest where
  method : Bytes
  path : Bytes
  version : Bytes
  headers : List (Bytes × Bytes)
  deriving DecidableEq

/-- `http_get_header`. -/
def HttpRequest.header (req : HttpRequest) (name : Bytes) : Option Bytes :=
  (req.headers.find? fun header => eqIgnoreCase header.1 name).map Prod.snd

/-- `strcasecmp(req->method, method) == 0`. -/
def HttpRequest.hasMethod (req : HttpRequest) (method : String) : Bool :=
  eqIgnoreCase req.method (ascii method)

/-- `extract_bearer`. -/
def extractBearer (auth : Bytes) (outSize : Nat) : Option Bytes :=
  if startsIgnoreCase auth (ascii "Bearer ") then
    let token := auth.drop 7
    if token.length ≥ outSize then none else some token
  else none

/-- The loop of `extract_cookie`, one pair at a time. -/
def extractCookieLoop (outSize : Nat) : Nat → Bytes → Option Bytes
  | 0, _ => none
  | fuel + 1, p =>
    if p = [] then none
    else
      let p := p.dropWhile fun c => c = 32 ∨ c = 9 ∨ c = 59
      if startsIgnoreCase p (ascii "SID=") then
        let value := (p.drop 4).takeWhile fun c => c ≠ 59
        if value.length ≥ outSize then none else some value
      else
        match strchr 59 p with
        | some next => extractCookieLoop outSize fuel next.tail
        | none => none

/-- `extract_cookie`; every pass of the loop goes on to a shorter string. -/
def extractCookie (cookie : Bytes) (outSize : Nat) : Option Bytes :=
  extractCookieLoop outSize (cookie.length + 1) cookie

/-- `session_extract_from_headers`. -/
def sessionExtractFromHeaders (req : HttpRequest) (outSize : Nat) : Option Bytes :=
  match (req.header (ascii "authorization")).bind fun auth => extractBearer auth outSize with
  | some session => some session
  | none => (req.header (ascii "cookie")).bind fun cookie => extractCookie cookie outSize

example : sessionExtractFromHeaders
    ⟨[], [], [], [(ascii "cookie", ascii "foo=1; SID=COOKIE123; bar=2")]⟩ 65 =
      some (ascii "COOKIE123") := by
  decide

end OttQuic.Http
