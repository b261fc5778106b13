import OttQuic.Http.Api
import OttQuic.Http.RequestLine
import OttQuic.Lib.Scan
import OttQuic.Server.Opening

/-!
# The body of an API request (`http_api_handle`)

The body comes in two parts: what was read ahead with the header, and what `http_read_exact` reads after it. The
handler is called once both together have the length the header gives. `body_assembled` says that the handler sees the
bytes behind the header, however the stream is split.
-/

namespace OttQuic.Server

open CString Http WebSocket Scan

/-- What `http_api_handle` does before a handler. -/
inductive Dispatch where
  /-- It answers itself. -/
  | reply (reply : Reply)
  /-- It calls the handler of the route, with a body of this length. -/
  | handler (body : Bytes)
  deriving DecidableEq

/-- `http_api_handle` up to the dispatch; `http_read_exact` is the loop of `read_exact`. -/
def httpApiDispatch (malloc : Bool) (req : HttpRequest) (preRead : Bytes) (io : WsInput) : Dispatch :=
  let contentLen := contentLength req
  if contentLen > maxBody req then .reply (textReply "413 Payload Too Large" "payload-too-large")
  else if req.isUpload ∧ contentLen > httpMaxBody ∧ malloc = false then
    .reply (textReply "500 Internal Server Error" "oom")
  else
    let toCopy := if preRead.length > contentLen then contentLen else preRead.length
    let remaining := if contentLen > toCopy then contentLen - toCopy else 0
    match readExact io remaining with
    | none => .reply (textReply "400 Bad Request" "body-read-failed")
    | some (more, _) => .handler (preRead.take toCopy ++ more)

/-- The handler call of a connection's first request: the request and the body, when a handler is called. -/
def handlerCall (malloc db : Bool) (io : WsInput) : Option (HttpRequest × Bytes) :=
  match opening true db io with
  | .api request preRead io =>
    match httpApiDispatch malloc request preRead io with
    | .reply _ => none
    | .handler body => some (request, body)
  | _ => none

/-- The header lines of a block, before the parser cuts them to its fields. -/
def headerLines (block : Bytes) : List (Bytes × Bytes) :=
  (blockLines (block.take (block.length - emptyLine.length))).tail.filterMap fun line =>
    (strchr 58 line).map fun colon =>
      (line.take (line.length - colon.length), colon.tail.dropWhile fun c => c = 32 ∨ c = 9)

/-- The number that decimal digits write. -/
def decimalValue (digits : Bytes) : Nat := digits.foldl (fun n c => n * 10 + (c.toNat - 48)) 0

/-- A request for the API whose header gives the length of its body in decimal. -/
structure BodyRequest extends HeaderBlock where
  fits : text.length ≤ wsMaxHttpBuffer
  noNul : 0 ∉ text
  headers_fit : (headerLines text).length ≤ httpMaxHeaders
  request : HttpRequest
  accepted : httpParseRequest true text = some request
  plain : validateWebsocketRequest request = false
  name : Bytes
  digits : Bytes
  blanks : Bytes
  digits_ne_nil : digits ≠ []
  digits_isDigit : ∀ c ∈ digits, isDigit c = true
  digits_fit : digits.length < httpMaxHeaderVal
  blanks_isBlank : ∀ c ∈ blanks, isBlank c = true
  contentLength_eq : (headerLines text).find? (fun header => eqIgnoreCase header.1 (ascii "content-length")) =
    some (name, digits ++ blanks)
  within : decimalValue digits ≤ maxBody request

section

variable {io : WsInput} {req : HttpRequest} {preRead : Bytes}

/-! ### The two parts of the body -/

theorem readExact_eq (hflows : io.Flows) (n : Nat) :
    (readExact io n).map Prod.fst = if n ≤ io.incoming.length then some (io.incoming.take n) else none := by
  split_ifs with hn
  · have hlength : (io.incoming.take n).length = n := by rw [List.length_take, Nat.min_eq_left hn]
    obtain ⟨io', hread, -⟩ := readExact_flows hflows (List.take_append_drop n io.incoming).symm
    rw [hlength] at hread
    rw [hread]
    rfl
  · rw [Option.map_eq_none_iff, ← Option.not_isSome_iff_eq_none]
    intro hsome
    obtain ⟨⟨bytes, io'⟩, hread⟩ := Option.isSome_iff_exists.mp hsome
    obtain ⟨hin, hlength, -⟩ := readExact_some hread
    rw [hin, List.length_append] at hn
    omega

theorem httpApiDispatch_eq (malloc : Bool) (req : HttpRequest) (preRead : Bytes) (hflows : io.Flows)
    (hlimit : contentLength req ≤ maxBody req) :
    httpApiDispatch malloc req preRead io =
      if req.isUpload ∧ contentLength req > httpMaxBody ∧ malloc = false then
        .reply (textReply "500 Internal Server Error" "oom")
      else if contentLength req ≤ preRead.length + io.incoming.length then
        .handler ((preRead ++ io.incoming).take (contentLength req))
      else .reply (textReply "400 Bad Request" "body-read-failed") := by
  have hcopy : (if preRead.length > contentLength req then contentLength req else preRead.length) =
      min (contentLength req) preRead.length := by
    split_ifs <;> omega
  have hremaining : (if contentLength req > min (contentLength req) preRead.length then
      contentLength req - min (contentLength req) preRead.length else 0) = contentLength req - preRead.length := by
    split_ifs <;> omega
  have hread := readExact_eq hflows (contentLength req - preRead.length)
  rw [httpApiDispatch]
  dsimp only
  rw [if_neg (by omega), hcopy, hremaining]
  refine if_congr Iff.rfl rfl ?_
  by_cases henough : contentLength req ≤ preRead.length + io.incoming.length
  · rw [if_pos (by omega)] at hread
    obtain ⟨⟨more, io'⟩, hsome, rfl⟩ := Option.map_eq_some_iff.mp hread
    rw [hsome, if_pos henough]
    dsimp only
    rw [List.take_append, ← List.take_eq_take_min]
  · rw [if_neg (by omega)] at hread
    rw [Option.map_eq_none_iff.mp hread, if_neg henough]

/-- What becomes of a request. -/
def Dispatch.result (env : ApiEnv) (req : HttpRequest) (conn : Db.Conn) : Dispatch → ApiResult
  | .reply answer => .ofReply answer conn
  | .handler body => routeHandler env req conn body

/-- **`http_api_handle`** answers itself, or calls the handler of the route with the body. -/
theorem httpApiHandle_eq (env : ApiEnv) (req : HttpRequest) (preRead : Bytes) (conn : Db.Conn) (hflows : io.Flows)
    (hin : env.incoming = io.incoming) :
    httpApiHandle env req preRead conn = (httpApiDispatch env.malloc req preRead io).result env req conn := by
  have hhandle : httpApiHandle env req preRead conn =
      if contentLength req > maxBody req then
        .ofReply (textReply "413 Payload Too Large" "payload-too-large") conn
      else if req.isUpload ∧ contentLength req > httpMaxBody ∧ env.malloc = false then
        .ofReply (textReply "500 Internal Server Error" "oom") conn
      else
        (readBody env req preRead).elim (.ofReply (textReply "400 Bad Request" "body-read-failed") conn)
          (routeHandler env req conn) := by
    rw [httpApiHandle]
    cases readBody env req preRead with
    | none => rfl
    | some body => rfl
  have hbody : readBody env req preRead =
      if contentLength req ≤ preRead.length + io.incoming.length then
        some ((preRead ++ io.incoming).take (contentLength req))
      else none := by
    rw [readBody, hin, List.length_take, List.take_append]
    have hremaining : contentLength req - min (contentLength req) preRead.length =
        contentLength req - preRead.length := by omega
    rw [hremaining]
    split_ifs
    · omega
    · rfl
    · rfl
    · omega
  by_cases hlimit : contentLength req ≤ maxBody req
  · rw [hhandle, if_neg (by omega), httpApiDispatch_eq env.malloc req preRead hflows hlimit, hbody]
    by_cases hupload : req.isUpload ∧ contentLength req > httpMaxBody ∧ env.malloc = false
    · rw [if_pos hupload, if_pos hupload, Dispatch.result]
    · rw [if_neg hupload, if_neg hupload]
      by_cases henough : contentLength req ≤ preRead.length + io.incoming.length
      · rw [if_pos henough, if_pos henough, Option.elim_some, Dispatch.result]
      · rw [if_neg henough, if_neg henough, Option.elim_none, Dispatch.result]
  · rw [hhandle, if_pos (by omega), httpApiDispatch]
    dsimp only
    rw [if_pos (by omega), Dispatch.result]

/-! ### The length of the body -/

theorem readDigits_eq_decimalValue {digits : Bytes} (hdigits : ∀ c ∈ digits, isDigit c = true) :
    readDigits 10 0 digits = decimalValue digits := by
  have hfold (value : Nat) : readDigits 10 value digits =
      digits.foldl (fun n c => n * 10 + (c.toNat - 48)) value := by
    induction digits generalizing value with
    | nil => rfl
    | cons c digits ih =>
        rw [readDigits_digit (hdigits c List.mem_cons_self), List.foldl_cons]
        exact ih (fun d hd => hdigits d (List.mem_cons_of_mem c hd)) _
  exact hfold 0

theorem isDigit_of_isBlank {c : UInt8} (hc : isBlank c = true) : isDigit c = false := by
  rcases of_decide_eq_true hc with rfl | rfl <;> decide

theorem strtol_digits {digits blanks : Bytes} (hne : digits ≠ []) (hdigits : ∀ c ∈ digits, isDigit c = true)
    (hblanks : ∀ c ∈ blanks, isBlank c = true) (hsmall : decimalValue digits < 2 ^ 63) :
    strtol 10 (digits ++ blanks) = some (decimalValue digits : Int) := by
  obtain ⟨d, rest, rfl⟩ := List.exists_cons_of_ne_nil hne
  have hd := hdigits d List.mem_cons_self
  obtain ⟨hspace, hplus, hminus⟩ := isDigit_plain hd
  have hvalue : readDigits 10 0 (d :: rest ++ blanks) = decimalValue (d :: rest) := by
    rw [readDigits_append hdigits, readDigits_eq_decimalValue hdigits]
    cases blanks with
    | nil => rfl
    | cons c blanks => exact readDigits_stop (isDigit_of_isBlank (hblanks c List.mem_cons_self))
  have hnumber : readNumber 10 (d :: rest ++ blanks) = some (false, readDigits 10 0 (d :: rest ++ blanks)) := by
    have hdigit : digit 10 d = some (d.toNat - 48) := by rw [digit_ten, if_pos hd]
    simp [readNumber, hspace, hplus, hminus, hdigit]
  rw [strtol_eq, hnumber, hvalue]
  simp only [Option.map_some, clamp, Bool.false_eq_true, if_false]
  congr 1
  omega

end

namespace BodyRequest

variable (r : BodyRequest)

theorem headers_eq : r.request.headers = (headerLines r.text).map fun header =>
    ((header.1.take (httpMaxHeaderKey - 1)).map toLower, header.2.take (httpMaxHeaderVal - 1)) := by
  have hlines : (headerLines r.text).map (fun header =>
      ((header.1.take (httpMaxHeaderKey - 1)).map toLower, header.2.take (httpMaxHeaderVal - 1))) =
      (blockLines (r.text.take (r.text.length - emptyLine.length))).tail.filterMap parseHeader := by
    rw [headerLines, List.map_filterMap]
    refine List.filterMap_congr fun line _ => ?_
    rw [Option.map_map]
    rfl
  have hcount := congrArg List.length hlines
  rw [List.length_map] at hcount
  have haccepted := r.accepted
  rw [httpParseRequest, r.first] at haccepted
  dsimp only at haccepted
  rw [if_neg (by simp)] at haccepted
  split at haccepted
  · cases haccepted
  · rename_i line lines hblock
    split at haccepted
    · cases haccepted
    · rw [hblock, List.tail_cons] at hlines hcount
      rw [hlines, ← Option.some.inj haccepted]
      exact List.take_of_length_le (hcount ▸ r.headers_fit)

theorem contentLength_request : contentLength r.request = decimalValue r.digits := by
  have hsmall : decimalValue r.digits < 2 ^ 63 := by
    refine Nat.lt_of_le_of_lt r.within ?_
    rw [maxBody]
    split_ifs <;> decide
  have hvalue : (r.digits ++ r.blanks).take (httpMaxHeaderVal - 1) =
      r.digits ++ r.blanks.take (httpMaxHeaderVal - 1 - r.digits.length) := by
    rw [List.take_append, List.take_of_length_le (Nat.le_sub_one_of_lt r.digits_fit)]
  have hheader : r.request.header (ascii "content-length") =
      some (r.digits ++ r.blanks.take (httpMaxHeaderVal - 1 - r.digits.length)) := by
    have hname : (ascii "content-length").length < httpMaxHeaderKey - 1 := by decide
    rw [HttpRequest.header, r.headers_eq, List.find?_map, Option.map_map]
    simp only [Function.comp_def, eqIgnoreCase_toLower, eqIgnoreCase_take hname]
    rw [r.contentLength_eq, Option.map_some, hvalue]
  rw [contentLength, hheader]
  dsimp only
  rw [strtol_digits r.digits_ne_nil r.digits_isDigit (fun c hc => r.blanks_isBlank c (List.mem_of_mem_take hc)) hsmall,
    Option.getD_some, Int.toNat_natCast]

end BodyRequest

/-- **The body is assembled.** However the stream is split, the handler is called with the bytes behind the header, as
many as the header says; when fewer arrive no handler is called. The one other way not to call it is that the body of a
large upload is not allocated. -/
theorem body_assembled (r : BodyRequest) (split : Segmentation) (rest : Bytes) (malloc : Bool) :
    handlerCall malloc true (fresh split (r.text ++ rest)) =
      if decimalValue r.digits ≤ rest.length ∧
          ¬ (r.request.isUpload ∧ decimalValue r.digits > httpMaxBody ∧ malloc = false) then
        some (r.request, rest.take (decimalValue r.digits))
      else none := by
  obtain ⟨io, hread, hin, hflows⟩ := readHttpRequest_eq split r.toHeaderBlock rest r.fits
  set k := readAhead split r.text.length (r.text ++ rest).length
  have hopen : opening true true (fresh split (r.text ++ rest)) = .api r.request (rest.take k) io := by
    rw [opening, hread]
    dsimp only
    rw [httpParseRequest_append, r.accepted]
    dsimp only
    rw [if_pos r.plain, preReadBody_append r.noNul, if_pos rfl]
  have hlength : (rest.take k).length + io.incoming.length = rest.length := by
    rw [hin, ← List.length_append, List.take_append_drop]
  rw [handlerCall, hopen]
  dsimp only
  rw [httpApiDispatch_eq malloc _ _ hflows (r.contentLength_request ▸ r.within), r.contentLength_request, hlength, hin,
    List.take_append_drop]
  by_cases hoom : r.request.isUpload ∧ decimalValue r.digits > httpMaxBody ∧ malloc = false
  · rw [if_pos hoom, if_neg fun h => h.2 hoom]
  · rw [if_neg hoom]
    by_cases henough : decimalValue r.digits ≤ rest.length
    · rw [if_pos henough, if_pos ⟨henough, hoom⟩]
    · rw [if_neg henough, if_neg fun h => henough h.1]

/-- A login with a body of four bytes. -/
def sampleLogin : BodyRequest where
  text := ascii "POST /login HTTP/1.1\r\nContent-Length: 04 \r\n\r\n"
  first := by decide
  fits := by decide
  noNul := by decide
  headers_fit := by decide
  request := ⟨ascii "POST", ascii "/login", ascii "HTTP/1.1", [(ascii "content-length", ascii "04 ")]⟩
  accepted := by decide
  plain := by decide
  name := ascii "Content-Length"
  digits := ascii "04"
  blanks := ascii " "
  digits_ne_nil := by decide
  digits_isDigit := by decide +kernel
  digits_fit := by decide
  blanks_isBlank := by decide +kernel
  contentLength_eq := by decide
  within := by decide

/-- It arrives in pieces of seven bytes, with more behind it; and in one piece, but not the whole body. -/
theorem body_assembled_login :
    handlerCall true true (fresh ⟨fun _ => 7, fun _ => Nat.zero_lt_succ 6⟩
        (ascii "POST /login HTTP/1.1\r\nContent-Length: 04 \r\n\r\nbody, and more")) =
          some (sampleLogin.request, ascii "body") ∧
      handlerCall true true (fresh ⟨fun _ => 1000, fun _ => Nat.zero_lt_succ 999⟩
        (ascii "POST /login HTTP/1.1\r\nContent-Length: 04 \r\n\r\nbod")) = none := by
  have hdigits : decimalValue sampleLogin.digits = 4 := by decide
  have hupload : sampleLogin.request.isUpload = false := by decide
  constructor
  · refine (body_assembled sampleLogin _ (ascii "body, and more") true).trans ?_
    rw [hdigits, hupload, if_pos (by decide)]
    rfl
  · refine (body_assembled sampleLogin _ (ascii "bod") true).trans ?_
    rw [hdigits, if_neg (by decide)]

end OttQuic.Server
