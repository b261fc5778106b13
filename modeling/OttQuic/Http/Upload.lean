import OttQuic.Db.Conn
import OttQuic.Lib.CString

/-!
# Uploads (`upload.c`)

`parse_multipart` finds the file, the title and the description in a multipart body;
`handle_upload_request` stores the file, makes the row of the video, and has it cut into segments. What it
does to files is a list of operations, in order.
-/

namespace OttQuic.Http

open CString Db

/-- What a handler does to the file system. -/
inductive FileOp where
  | write (path data : Bytes) (ok : Bool)
  /-- `video_extract_thumbnail`. -/
  | thumbnail (videoPath thumbPath : Bytes)
  /-- `tools/segment_video.sh`. -/
  | segment (videoId : Int) (videoPath : Bytes) (rc : Int)
  | unlink (path : Bytes)
  /-- `rm -rf`. -/
  | removeTree (path : Bytes)
  deriving DecidableEq

/-- The calls of `handle_upload_request` that may fail, and what they return. -/
structure UploadEnv where
  /-- The `n`-th `malloc` of `parse_multipart`. -/
  malloc : Nat → Bool
  dirs : Bool
  time : Int
  writeOk : Bool
  /-- `(int)duration`. -/
  duration : Int
  segmentRc : Int

/-- `find_bytes`: from the first occurrence of `needle` on. -/
def findBytes (needle haystack : Bytes) : Option Bytes :=
  if haystack = [] ∨ needle = [] then none else strstr needle haystack

/-- The out parameters of `parse_multipart`. `file` is the block `*out_file` points to; `title` and
`description` are what the two buffers hold before the NUL that ends them. -/
structure Multipart where
  file : Option Bytes
  fileLen : Nat
  title : Bytes
  description : Bytes
  /-- The number of `malloc` calls so far. -/
  mallocs : Nat
  deriving DecidableEq

/-- What `parse_multipart` does with one part: its header block and its data. -/
def Multipart.part (m : Multipart) (malloc : Nat → Bool) (titleLen descLen : Nat) (hdr data : Bytes) :
    Multipart :=
  let hdr := ofMemory (hdr.take 511)
  let disp := strstr (ascii "Content-Disposition:") hdr
  let name := (disp.bind (strstr (ascii "name=\""))).map (List.drop 6)
  let filename := disp.bind (strstr (ascii "filename=\""))
  let named (word : String) : Bool := (name.map fun name => (ascii word).isPrefixOf name) = some true
  if filename.isSome then
    if malloc m.mallocs then
      { m with
        file := some data
        fileLen := if data.length > 0 then data.length else m.fileLen
        mallocs := m.mallocs + 1 }
    else { m with file := none, mallocs := m.mallocs + 1 }
  else if named "title" then { m with title := data.take (titleLen - 1) }
  else if named "description" then { m with description := data.take (descLen - 1) }
  else m

/-- The loop of `parse_multipart` from `p` on. -/
def parseMultipartLoop (malloc : Nat → Bool) (boundary : Bytes) (titleLen descLen : Nat) :
    Nat → Bytes → Multipart → Multipart
  | 0, _, m => m
  | fuel + 1, p, m =>
    match findBytes boundary p with
    | none => m
    | some b =>
      let p := b.drop boundary.length
      if p.length < 2 ∨ (ascii "--").isPrefixOf p then m
      else
        match findBytes (ascii "\r\n\r\n") p with
        | none => m
        | some hdrEnd =>
          let hdr := p.take (p.length - hdrEnd.length)
          let dataStart := hdrEnd.drop 4
          match findBytes boundary dataStart with
          | none => m
          | some next =>
            let data := dataStart.take (dataStart.length - next.length)
            -- the line end before the boundary is not data
            let data := if data.length ≥ 2 ∧ data.drop (data.length - 2) = ascii "\r\n"
              then data.take (data.length - 2) else data
            parseMultipartLoop malloc boundary titleLen descLen fuel next
              (m.part malloc titleLen descLen hdr data)

/-- `parse_multipart`, when it returns `0`; every pass of its loop goes on to a shorter rest of the
body. -/
def parseMultipart (malloc : Nat → Bool) (body boundary : Bytes) (titleLen descLen : Nat) :
    Option Multipart :=
  let m := parseMultipartLoop malloc boundary titleLen descLen (body.length + 1) body ⟨none, 0, [], [], 0⟩
  if m.file.isSome ∧ m.fileLen > 0 then some m else none

/-- The boundary `handle_upload_request` reads off a content type. -/
inductive Boundary where
  | multipartRequired
  | invalid
  | found (boundary : Bytes)
  deriving DecidableEq

/-- The search for `=` cannot fail: the text it starts at has one. -/
def uploadBoundary (contentType : Bytes) : Boundary :=
  match strstr (ascii "multipart/form-data; boundary=") contentType with
  | none => .multipartRequired
  | some ct =>
    let boundary := ascii "--" ++ (ct.drop 30).take 100
    let boundary := (boundary.reverse.dropWhile fun c => c = 13 ∨ c = 10).reverse
    if boundary.length < 4 ∨ boundary.length ≥ 127 then .invalid else .found boundary

abbrev maxUploadBytes : Nat := 2 * 1024 * 1024 * 1024

def uploadReply (status : String) (body : Bytes) : Bytes :=
  ascii status ++ ascii "Content-Type: application/json\r\nAccess-Control-Allow-Origin: *\r\n" ++
    ascii "Access-Control-Allow-Credentials: true\r\n\r\n" ++ body

def uploadError (status message : String) : Bytes :=
  uploadReply status (ascii "\x7b\"status\":\"error\",\"message\":\"" ++ ascii message ++ ascii "\"\x7d")

/-- What `handle_upload_request` leaves: the bytes it writes to the client, the connection, and what it
has done to files. -/
structure UploadResult where
  response : Bytes
  conn : Conn
  files : List FileOp

/-- `handle_upload_request` from a body that has been parsed. -/
def storeUpload (env : UploadEnv) (conn : Conn) (m : Multipart) : UploadResult :=
  if env.dirs = false then ⟨[], conn, []⟩
  else
    let baseName := ascii "video_" ++ decimal env.time
    let videoPath := ascii "data/videos/" ++ baseName ++ ascii ".mp4"
    let thumbPath := ascii "data/thumbs/" ++ baseName ++ ascii ".jpg"
    let written := FileOp.write videoPath ((m.file.getD []).take m.fileLen) env.writeOk
    if env.writeOk = false then ⟨[], conn, [written]⟩
    else
      let title := if ofMemory m.title = [] then baseName else ofMemory m.title
      let description := if ofMemory m.description = [] then ascii "uploaded" else ofMemory m.description
      let files := [written, .thumbnail videoPath thumbPath]
      match conn.insert fun db stmt =>
        dbCreateVideo db stmt title (some description) videoPath (some thumbPath) none env.duration with
      | (none, conn) => ⟨[], conn, files ++ [.unlink videoPath, .unlink thumbPath]⟩
      | (some videoId, conn) =>
        let files := files ++ [.segment videoId videoPath env.segmentRc]
        if env.segmentRc ≠ 0 then
          match conn.exec fun db stmt => dbDeleteVideoById db stmt videoId with
          | (_, conn) => ⟨[], conn, files ++ [.unlink videoPath, .unlink thumbPath]⟩
        else
          let segmentDir := ascii "data/segments/" ++ decimal videoId
          match conn.exec fun db stmt => dbUpdateVideoSegmentPath db stmt videoId segmentDir with
          | (_, conn) =>
            ⟨uploadReply "HTTP/1.1 200 OK\r\n"
              (ascii "\x7b\"status\":\"ok\",\"video_id\":" ++ decimal videoId ++ ascii "\x7d"), conn, files⟩

/-- `handle_upload_request`. -/
def handleUploadRequest (env : UploadEnv) (conn : Conn) (contentType body : Bytes) : UploadResult :=
  if body = [] then ⟨[], conn, []⟩
  else if body.length > maxUploadBytes then
    ⟨uploadError "HTTP/1.1 413 Payload Too Large\r\n" "payload-too-large", conn, []⟩
  else
    match uploadBoundary contentType with
    | .multipartRequired =>
      ⟨uploadError "HTTP/1.1 400 Bad Request\r\n" "multipart-required", conn, []⟩
    | .invalid => ⟨uploadError "HTTP/1.1 400 Bad Request\r\n" "invalid-boundary", conn, []⟩
    | .found boundary =>
      match parseMultipart env.malloc body boundary 128 256 with
      | none => ⟨uploadError "HTTP/1.1 400 Bad Request\r\n" "invalid-multipart", conn, []⟩
      | some m => storeUpload env conn m

end OttQuic.Http
