import OttQuic.Http.ParseRequest
import OttQuic.WebSocket.ReadFrame
import OttQuic.WebSocket.Sha1

/-!
# The first request of a connection (`read_http_request`, `websocket_handle_client`)

A connection begins with a request, which is read up to its empty line. The `recv` that brings the end of the request
may bring bytes that follow it; these are in the buffer, and not on the socket any more. `readHttpRequest_eq` says how
many there are, for every way the stream is split.

`opening` is what the connection then is: a request for the HTTP API, which is given the bytes read ahead, or an
upgrade, whose frames are read from the socket.
-/

namespace OttQuic.Server

open CString Http WebSocket Tokens

abbrev wsMaxHttpBuffer : Nat := 8192

def wsGuid : Bytes := ascii "258EAFA5-E914-47DA-95CA-C5AB0DC85B11"

/-! ### The upgrade -/

/-- `header_contains_token`; a value is shorter than the copy it is cut from. -/
def headerContainsToken (value token : Bytes) : Bool :=
  (tokens (fun c => c = 44) value).any fun part => eqIgnoreCase (part.dropWhile fun c => c = 32 ∨ c = 9) token

/-- `validate_websocket_request`, when it returns `0`. -/
def validateWebsocketRequest (req : HttpRequest) : Bool :=
  req.hasMethod "GET" &&
    ((req.header (ascii "upgrade")).any fun upgrade => eqIgnoreCase upgrade (ascii "websocket")) &&
    ((req.header (ascii "connection")).any fun connection => headerContainsToken connection (ascii "Upgrade")) &&
    (req.header (ascii "sec-websocket-version") = some (ascii "13")) &&
    (req.header (ascii "sec-websocket-key")).isSome

def base64Table : Bytes := ascii "ABCDEFGHIJKLMNOPQRSTUVWXYZabcdefghijklmnopqrstuvwxyz0123456789+/"

/-- The characters of the three bytes from `i` on. -/
def base64Group (data : Bytes) (i : Nat) : Bytes :=
  let triple : UInt32 := ((data.getD i 0).toUInt32 <<< 16) ||| ((data.getD (i + 1) 0).toUInt32 <<< 8) |||
    (data.getD (i + 2) 0).toUInt32
  let entry (shift : UInt32) : UInt8 := base64Table.getD ((triple >>> shift) &&& 0x3F).toNat 0
  [entry 18, entry 12, if i + 1 < data.length then entry 6 else 61, if i + 2 < data.length then entry 0 else 61]

/-- `base64_encode`. -/
def base64Encode (data : Bytes) (outSize : Nat) : Option Bytes :=
  if outSize < (data.length + 2) / 3 * 4 + 1 then none
  else some ((List.range ((data.length + 2) / 3)).flatMap fun group => base64Group data (group * 3))

/-- `websocket_calculate_accept_key`. -/
def websocketCalculateAcceptKey (stack : Vector UInt8 64) (clientKey : Bytes) (outSize : Nat) : Option Bytes :=
  if clientKey.length + wsGuid.length ≥ 128 then none
  else base64Encode (sha1Compute stack (clientKey ++ wsGuid)) outSize

/-- What `perform_handshake` writes. -/
def performHandshake (stack : Vector UInt8 64) (req : HttpRequest) : Option Bytes :=
  match req.header (ascii "sec-websocket-key") with
  | none => none
  | some clientKey =>
    match websocketCalculateAcceptKey stack clientKey 64 with
    | none => none
    | some acceptValue =>
      let response := ascii "HTTP/1.1 101 Switching Protocols\r\nUpgrade: websocket\r\nConnection: Upgrade\r\n" ++
        ascii "Sec-WebSocket-Accept: " ++ acceptValue ++ ascii "\r\n\r\n"
      if response.length ≥ 256 then none else some response

/-! ### The request -/

/-- `buffer_contains_clrf`. -/
def bufferContainsClrf (buf : Bytes) : Bool := (strstr emptyLine buf).isSome

/-- The loop of `read_http_request`; every pass reads a byte or returns. -/
def readHttpRequestLoop : Nat → Bytes → WsInput → Option (Bytes × WsInput)
  | 0, _, _ => none
  | fuel + 1, buffer, io =>
    if buffer.length < wsMaxHttpBuffer then
      match ioRead io (wsMaxHttpBuffer - buffer.length) with
      | none => none
      | some (got, io) =>
        if bufferContainsClrf (buffer ++ got) then some (buffer ++ got, io)
        else readHttpRequestLoop fuel (buffer ++ got) io
    else none

/-- `read_http_request`: the buffer, as far as it is filled. -/
def readHttpRequest (io : WsInput) : Option (Bytes × WsInput) := readHttpRequestLoop (wsMaxHttpBuffer + 1) [] io

/-- The bytes behind the header, as `websocket_handle_client` finds them: its `strstr` ends at a NUL. -/
def preReadBody (buffer : Bytes) : Bytes :=
  match strstr emptyLine (ofMemory buffer) with
  | some separator => buffer.drop ((ofMemory buffer).length - separator.length + 4)
  | none => []

/-- What a connection is after its request. -/
inductive Opening where
  /-- `400 Bad Request`, and the connection is closed. -/
  | badRequest
  /-- `http_api_handle`, with the bytes read ahead. -/
  | api (request : HttpRequest) (preRead : Bytes) (io : WsInput)
  | upgrade (request : HttpRequest) (io : WsInput)

/-- `websocket_handle_client` up to the handshake; `db` is whether there is a database. -/
def opening (malloc db : Bool) (io : WsInput) : Opening :=
  match readHttpRequest io with
  | none => .badRequest
  | some (buffer, io) =>
    match httpParseRequest malloc buffer with
    | none => .badRequest
    | some request =>
      if validateWebsocketRequest request = false then
        if db then .api request (preReadBody buffer) io else .badRequest
      else .upgrade request io

/-! ### The stream -/

/-- A way the stream is split: how many bytes each `recv` finds at most. -/
abbrev Segmentation : Type := { arrivals : Nat → Nat // ∀ i, 0 < arrivals i }

/-- The socket at the start of a connection. -/
def fresh (split : Segmentation) (stream : Bytes) : WsInput := ⟨stream, split.val, 0⟩

/-- A stream up to the end of its first empty line. -/
structure HeaderBlock where
  text : Bytes
  first : strstr emptyLine text = some emptyLine

/-- How many bytes are read beyond the first `need` of `avail`, when the reads go on from the `i`-th with `total`
bytes in the buffer. -/
def readAheadFrom (arrivals : Nat → Nat) (need avail : Nat) : Nat → Nat → Nat → Nat
  | 0, _, total => total - need
  | fuel + 1, i, total =>
    if need ≤ total then total - need
    else readAheadFrom arrivals need avail fuel (i + 1)
      (total + min (arrivals i) (min (wsMaxHttpBuffer - total) (avail - total)))

/-- How many bytes the `recv` that ends the first `need` bytes brings beyond them. -/
def readAhead (split : Segmentation) (need avail : Nat) : Nat :=
  readAheadFrom split.val need avail (wsMaxHttpBuffer + 1) 0 0

section

variable {split : Segmentation} {block : HeaderBlock} {rest buffer : Bytes} {io : WsInput} {fuel n : Nat}

theorem bufferContainsClrf_take (block : HeaderBlock) (rest : Bytes) (n : Nat) :
    bufferContainsClrf ((block.text ++ rest).take n) = true ↔ block.text.length ≤ n := by
  rw [bufferContainsClrf]
  constructor
  · intro hsome
    by_contra hshort
    obtain ⟨found, hfound⟩ := Option.isSome_iff_exists.mp hsome
    rw [List.take_append_of_le_length (by omega)] at hfound
    have hblock := strstr_append_right (t := block.text.drop n) hfound
    rw [List.take_append_drop, block.first, Option.some_inj] at hblock
    have hbytes := (strstr_some hfound).2.length_le
    have hlength := congrArg List.length hblock
    rw [List.length_append, List.length_drop] at hlength
    omega
  · intro hle
    rw [List.take_append, List.take_of_length_le hle, strstr_append_right block.first]
    rfl

theorem readAheadFrom_of_le {arrivals : Nat → Nat} {need avail i total : Nat} (h : need ≤ total) :
    readAheadFrom arrivals need avail fuel i total = total - need := by
  cases fuel with
  | zero => rfl
  | succ fuel => exact if_pos h

theorem ioRead_stream (hio : buffer ++ io.incoming = block.text ++ rest) (harrivals : io.arrivals = split.val)
    (hbuffer : buffer.length < block.text.length) (hroom : buffer.length < wsMaxHttpBuffer) :
    ∃ n io', 0 < n ∧ n = min (split.val io.reads) (min (wsMaxHttpBuffer - buffer.length)
        ((block.text ++ rest).length - buffer.length)) ∧
      ioRead io (wsMaxHttpBuffer - buffer.length) = some (io.incoming.take n, io') ∧
      buffer ++ io.incoming.take n = (block.text ++ rest).take (buffer.length + n) ∧
      io'.incoming = (block.text ++ rest).drop (buffer.length + n) ∧ io'.arrivals = split.val ∧
      io'.reads = io.reads + 1 := by
  have hlength := congrArg List.length hio
  simp only [List.length_append] at hlength
  have hpos := split.property io.reads
  have hn : ¬ min (io.arrivals io.reads) (min (wsMaxHttpBuffer - buffer.length) io.incoming.length) = 0 := by
    rw [harrivals]
    omega
  refine ⟨min (io.arrivals io.reads) (min (wsMaxHttpBuffer - buffer.length) io.incoming.length), _, by omega, ?_,
    if_neg hn, ?_, ?_, harrivals, rfl⟩
  · rw [harrivals, List.length_append]
    omega
  · rw [← hio, List.take_length_add_append]
  · rw [← hio, List.drop_length_add_append]

theorem readHttpRequestLoop_eq (hio : buffer ++ io.incoming = block.text ++ rest) (harrivals : io.arrivals = split.val)
    (hbuffer : buffer.length < block.text.length) (hfits : block.text.length ≤ wsMaxHttpBuffer)
    (hfuel : wsMaxHttpBuffer < fuel + buffer.length) :
    let k := readAheadFrom split.val block.text.length (block.text ++ rest).length fuel io.reads buffer.length
    ∃ io', readHttpRequestLoop fuel buffer io = some (block.text ++ rest.take k, io') ∧ io'.incoming = rest.drop k ∧
      io'.arrivals = split.val := by
  induction fuel generalizing buffer io with
  | zero => omega
  | succ fuel ih =>
      intro k
      obtain ⟨n, io', hn, heq, hread, htake, hdrop, harrivals', hreads⟩ :=
        ioRead_stream hio harrivals hbuffer (Nat.lt_of_lt_of_le hbuffer hfits)
      have hk : k = readAheadFrom split.val block.text.length (block.text ++ rest).length fuel (io.reads + 1)
          (buffer.length + n) := by
        rw [heq]
        exact if_neg (by omega)
      rw [readHttpRequestLoop, if_pos (by omega), hread]
      dsimp only
      rw [htake]
      split_ifs with hcontains
      · have hle := (bufferContainsClrf_take block rest _).mp hcontains
        rw [readAheadFrom_of_le hle] at hk
        refine ⟨io', ?_, ?_, harrivals'⟩
        · rw [List.take_append, List.take_of_length_le hle, hk]
        · rw [hdrop, List.drop_append, List.drop_of_length_le hle, List.nil_append, hk]
      · have hshort : buffer.length + n < block.text.length :=
          Nat.lt_of_not_le fun hle => hcontains ((bufferContainsClrf_take block rest _).mpr hle)
        have hlength : ((block.text ++ rest).take (buffer.length + n)).length = buffer.length + n := by
          rw [List.length_take, List.length_append]
          omega
        have hrest := ih (by rw [hdrop, List.take_append_drop]) harrivals' (by omega) (by omega)
        rw [hlength, hreads, ← hk] at hrest
        exact hrest

theorem readHttpRequestLoop_eq_none (hio : buffer ++ io.incoming = block.text ++ rest)
    (hlong : wsMaxHttpBuffer < block.text.length) : readHttpRequestLoop fuel buffer io = none := by
  induction fuel generalizing buffer io with
  | zero => rfl
  | succ fuel ih =>
      rw [readHttpRequestLoop]
      split_ifs with hroom
      · cases hread : ioRead io (wsMaxHttpBuffer - buffer.length) with
        | none => rfl
        | some result =>
            obtain ⟨got, io'⟩ := result
            obtain ⟨hin, -, hgot, -⟩ := ioRead_some hread
            have hio' : buffer ++ got ++ io'.incoming = block.text ++ rest := by rw [List.append_assoc, ← hin, hio]
            have hbytes : buffer ++ got = (block.text ++ rest).take (buffer ++ got).length := by
              rw [← hio', List.take_left']
              rfl
            have hnot : ¬ bufferContainsClrf (buffer ++ got) = true := by
              rw [hbytes, bufferContainsClrf_take, List.length_append]
              omega
            dsimp only
            rw [if_neg hnot]
            exact ih hio'
      · rfl

end

/-- **`read_http_request`** reads a block that fits, and a part of what follows it. -/
theorem readHttpRequest_eq (split : Segmentation) (block : HeaderBlock) (rest : Bytes)
    (hfits : block.text.length ≤ wsMaxHttpBuffer) :
    let k := readAhead split block.text.length (block.text ++ rest).length
    ∃ io, readHttpRequest (fresh split (block.text ++ rest)) = some (block.text ++ rest.take k, io) ∧
      io.incoming = rest.drop k ∧ io.Flows := by
  have hpos : 0 < block.text.length := by
    have hlength := (strstr_some block.first).1.length_le
    exact Nat.lt_of_lt_of_le (by decide) hlength
  have hstart : [] ++ (fresh split (block.text ++ rest)).incoming = block.text ++ rest := rfl
  have hfuel : wsMaxHttpBuffer < wsMaxHttpBuffer + 1 + ([] : Bytes).length := Nat.lt_succ_self wsMaxHttpBuffer
  obtain ⟨io, hread, hin, harrivals⟩ := readHttpRequestLoop_eq hstart rfl hpos hfits hfuel
  refine ⟨io, hread, hin, ?_⟩
  rw [WsInput.Flows, harrivals]
  exact split.property

theorem readHttpRequest_eq_none (split : Segmentation) (block : HeaderBlock) (rest : Bytes)
    (hlong : wsMaxHttpBuffer < block.text.length) : readHttpRequest (fresh split (block.text ++ rest)) = none :=
  readHttpRequestLoop_eq_none rfl hlong

theorem HeaderBlock.strstr_append (block : HeaderBlock) (rest : Bytes) :
    strstr emptyLine (block.text ++ rest) = some (emptyLine ++ rest) := strstr_append_right block.first

theorem HeaderBlock.four_le_length (block : HeaderBlock) : 4 ≤ block.text.length :=
  (strstr_some block.first).1.length_le

theorem httpParseRequest_append (malloc : Bool) (block : HeaderBlock) (rest : Bytes) :
    httpParseRequest malloc (block.text ++ rest) = httpParseRequest malloc block.text := by
  have hlength := block.four_le_length
  have hempty : emptyLine.length = 4 := by decide
  have hfront : (block.text ++ rest).take ((block.text ++ rest).length - (emptyLine ++ rest).length) =
      block.text.take (block.text.length - emptyLine.length) := by
    rw [List.length_append, List.length_append, Nat.add_sub_add_right, List.take_append_of_le_length (by omega)]
  rw [httpParseRequest, httpParseRequest, block.strstr_append, block.first]
  dsimp only
  rw [hfront]

theorem preReadBody_append {block : HeaderBlock} (hnul : 0 ∉ block.text) (rest : Bytes) :
    preReadBody (block.text ++ rest) = rest := by
  have hlength := block.four_le_length
  have hempty : emptyLine.length = 4 := by decide
  have hsize : (block.text ++ ofMemory rest).length - (emptyLine ++ ofMemory rest).length + 4 = block.text.length := by
    rw [List.length_append, List.length_append]
    omega
  rw [preReadBody, ofMemory_append hnul, block.strstr_append]
  dsimp only
  rw [hsize, List.drop_left]

end OttQuic.Server
