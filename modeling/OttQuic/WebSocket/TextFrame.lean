import OttQuic.Db.Conn
import OttQuic.Json
import OttQuic.Quic.Engine
import OttQuic.WebSocket.Command
import OttQuic.WebSocket.Io

/-!
# Text frames (`handle_text_frame`)

Most commands build one text and send it (`commandReply`). `ws_init` and `ws_segment` send the bytes of a
file first, and `ws_segment` tries twice. What the commands find in files, in the QUIC engine and at the
allocator comes from outside, and the database is the connection of the request.
-/

namespace OttQuic.WebSocket

open CString Db

/-- `ORDER BY w.updated_at DESC`: rows with the same time may come in any order. -/
structure LatestFirst where
  order : List (VideoRow × WatchRow) → List (VideoRow × WatchRow)
  perm (rows : List (VideoRow × WatchRow)) : (order rows).Perm rows
  sorted (rows : List (VideoRow × WatchRow)) :
    (order rows).Pairwise fun a b => b.2.updatedAt ≤ a.2.updatedAt

/-- Rows with the same time stay in their order. -/
def LatestFirst.stable : LatestFirst where
  order rows := rows.mergeSort fun a b => b.2.updatedAt ≤ a.2.updatedAt
  perm rows := List.mergeSort_perm rows _
  sorted rows := by
    refine (List.pairwise_mergeSort (fun a b c hab hbc => ?_) (fun a b => ?_) rows).imp of_decide_eq_true
    · rw [decide_eq_true_eq] at hab hbc ⊢
      exact Int.le_trans hbc hab
    · rw [Bool.or_eq_true, decide_eq_true_eq, decide_eq_true_eq]
      exact Int.le_total b.2.updatedAt a.2.updatedAt

/-- What a text frame meets outside. -/
structure TextEnv where
  /-- `malloc` of the text. -/
  malloc : Bool
  /-- `ctx && ctx->quic_engine`. -/
  quicEngine : Bool
  /-- `ctx && ctx->db`. -/
  db : Bool
  conn : Conn
  /-- `quic_engine_get_connection_state`. -/
  connectionState : UInt64 → Option QuicConnectionState
  /-- The number taken from `ctx->next_packet_number`. -/
  packetNumber : UInt32
  /-- `quic_engine_send_to_connection` returns `0`. -/
  quicSend : QuicPacket → Bool
  /-- `send_video_chunk` returns `0`. -/
  sendVideoChunk : Bytes → WsCommand → Bool
  /-- The size that `stat` finds. -/
  fileSize : Bytes → Option Nat
  /-- What the `n`-th call of `send_ws_file` reads; nothing when it fails before it sends. -/
  readFile : Nat → Bytes → Option Bytes
  /-- The text of `segment_info.json`, when it is read and both buffers are allocated. -/
  segmentInfo : Bytes → Option Bytes
  /-- `%.2f` of the duration `video_probe_duration` finds. -/
  probedDuration : Bytes → Bytes
  /-- How the database prints a time. -/
  datetime : Int → Bytes
  /-- How the database orders the rows of `list_continue`. -/
  latestFirst : LatestFirst

/-- `ws_frame_t`; its payload is `NULL` when it is empty. -/
structure WsFrame where
  opcode : UInt8
  fin : Bool
  payload : Bytes
  deriving DecidableEq

/-- The text of `send_json_response`, cut to 255 bytes. -/
def jsonResponse (type status message : Bytes) : Bytes :=
  snprintf 256 (ascii "\x7b\"type\":\"" ++ type ++ ascii "\",\"status\":\"" ++ status ++
    ascii "\",\"message\":\"" ++ message ++ ascii "\"\x7d")

def errorResponse (status message : String) : Bytes :=
  jsonResponse (ascii "error") (ascii status) (ascii message)

def dbMissing : Bytes := errorResponse "unavailable" "db-missing"

def tooLarge : Bytes := errorResponse "internal_error" "response-too-large"

/-- A text made by `snprintf` in a buffer of `size` bytes, or the error when it does not fit. -/
def fitted (size : Nat) (text : Bytes) : Bytes := if text.length ≥ size then tooLarge else text

/-- `send_json_response`. -/
def sendJsonResponse (io : WsIo) (type status message : Bytes) : Bool × WsIo :=
  wsSendFrame io 0x1 (jsonResponse type status message)

/-! ### Commands with one reply -/

def stateText : QuicConnectionState → String
  | .connecting => "connecting"
  | .closed => "closed"
  | .idle => "idle"
  | .connected => "unknown"

def quicSendReply (env : TextEnv) (cmd : WsCommand) : Bytes :=
  if env.quicEngine = false then errorResponse "unavailable" "quic-engine-missing"
  else
    match env.connectionState cmd.connectionId with
    | none => errorResponse "connection-not-found" "quic-connection-not-found"
    | some state =>
      if state ≠ .connected then
        jsonResponse (ascii "error") (ascii "connection-not-ready")
          (ascii "quic-connection-not-ready(" ++ ascii (stateText state) ++ ascii ")")
      else
        let payload := cmd.payload.take quicMaxPayload
        let packet : QuicPacket :=
          { flags := quicFlagData
            connectionId := cmd.connectionId
            packetNumber := env.packetNumber
            streamId := cmd.streamId
            offset := cmd.offset
            payload := ⟨payload, Nat.lt_of_le_of_lt (List.length_take_le ..) (by decide)⟩ }
        if env.quicSend packet then
          jsonResponse (ascii "quic_send") (ascii "ok") (ascii "sent-pn-" ++ decimal env.packetNumber.toNat)
        else errorResponse "quic_send_failed" "connection-not-found"

/-- The part of a list item that all lists have; the numbers come from `sqlite3_column_int`. -/
def videoItem (row : VideoRow) : Bytes :=
  ascii "\x7b\"id\":" ++ decimal (toInt row.id) ++ ascii ",\"title\":\"" ++ row.title ++
    ascii "\",\"description\":\"" ++ row.description.getD [] ++ ascii "\",\"thumbnail_path\":\"" ++
    row.thumbnailPath.getD [] ++ ascii "\",\"duration\":" ++ decimal (toInt row.duration)

def listVideosReply (env : TextEnv) (conn : Conn) : Bytes × Conn :=
  if env.db = false then (dbMissing, conn)
  else
    match conn.query fun db stmt => dbSelect stmt db.videos with
    | (.error _, conn) => (errorResponse "db_error" "list-failed", conn)
    | (.ok videos, conn) =>
      let rows := (videos.mergeSort fun a b => b.id ≤ a.id).take 20
      let items := rows.map fun row => videoItem row ++ ascii "\x7d"
      ((buildList 4096 (ascii "\x7b\"type\":\"videos\",\"items\":[") items).getD tooLarge, conn)

def listContinueReply (env : TextEnv) (userId : Int) (conn : Conn) : Bytes × Conn :=
  if env.db = false then (dbMissing, conn)
  else if userId ≤ 0 then (errorResponse "unauthorized" "login-required", conn)
  else
    match conn.query fun db stmt => dbSelect stmt (db.watchHistory, db.videos) with
    | (.error _, conn) => (errorResponse "db_error" "list-continue-failed", conn)
    | (.ok (watched, videos), conn) =>
      let watched := watched.filter fun w => w.userId = userId ∧ w.lastPosition > 10
      let rows := watched.filterMap fun w =>
        (videos.find? fun row => row.id = w.videoId).map fun row => (row, w)
      let items := ((env.latestFirst.order rows).take 10).map fun (row, w) =>
        videoItem row ++ ascii ",\"position\":" ++ decimal (toInt w.lastPosition) ++ ascii "\x7d"
      ((buildList 4096 (ascii "\x7b\"type\":\"continue_videos\",\"items\":[") items).getD tooLarge, conn)

def videoDetailReply (env : TextEnv) (cmd : WsCommand) (conn : Conn) : Bytes × Conn :=
  if env.db = false then (dbMissing, conn)
  else
    match conn.query fun db stmt => dbSelect stmt (db.videos.find? fun row => row.id = cmd.videoId) with
    | (.error _, conn) => (errorResponse "db_error" "detail-prepare-failed", conn)
    | (.ok none, conn) => (errorResponse "not_found" "video-not-found", conn)
    | (.ok (some row), conn) =>
      (fitted 1024 (ascii "\x7b\"type\":\"video_detail\",\"id\":" ++ decimal cmd.videoId ++
        ascii ",\"title\":\"" ++ row.title ++ ascii "\",\"description\":\"" ++ row.description.getD [] ++
        ascii "\",\"file_path\":\"" ++ row.filePath ++ ascii "\",\"thumbnail_path\":\"" ++
        row.thumbnailPath.getD [] ++ ascii "\",\"duration\":" ++ decimal (toInt row.duration) ++
        ascii ",\"upload_date\":\"" ++ env.datetime row.uploadDate ++ ascii "\"\x7d"), conn)

/-- The file a video row names, below `data/videos` unless it is absolute. -/
def videoPath (video : DbVideo) : Bytes :=
  if video.filePath.head? = some 47 then video.filePath
  else snprintf 512 (ascii "data/videos/" ++ video.filePath)

def streamStartReply (env : TextEnv) (cmd : WsCommand) (conn : Conn) : Bytes × Conn :=
  if env.db = false then (dbMissing, conn)
  else
    match conn.query fun db stmt => dbGetVideoById db stmt cmd.videoId with
    | (.error _, conn) => (errorResponse "not_found" "video-not-found", conn)
    | (.ok video, conn) =>
      match env.fileSize (videoPath video) with
      | none => (errorResponse "not_found" "file-missing", conn)
      | some size =>
        (fitted 256 (ascii "\x7b\"type\":\"stream_start\",\"status\":\"ok\",\"id\":" ++
          decimal cmd.videoId ++ ascii ",\"total_bytes\":" ++ decimal size ++
          ascii ",\"chunk_size\":" ++ decimal cmd.chunkLength.toNat ++
          ascii ",\"duration\":" ++ env.probedDuration (videoPath video) ++
          ascii ",\"connection_id\":" ++ decimal cmd.connectionId.toNat ++
          ascii ",\"stream_id\":" ++ decimal cmd.streamId.toNat ++ ascii "\x7d"), conn)

def streamChunkReply (env : TextEnv) (cmd : WsCommand) (conn : Conn) : Bytes × Conn :=
  if env.db = false then (dbMissing, conn)
  else
    match conn.query fun db stmt => dbGetVideoById db stmt cmd.videoId with
    | (.error _, conn) => (errorResponse "not_found" "video-not-found", conn)
    | (.ok video, conn) =>
      if env.sendVideoChunk (videoPath video) cmd then
        (fitted 128 (ascii "\x7b\"type\":\"stream_chunk\",\"status\":\"ok\",\"offset\":" ++
          decimal cmd.offset.toNat ++ ascii ",\"length\":" ++ decimal cmd.length.toNat ++
          ascii "\x7d"), conn)
      else (errorResponse "stream_failed" "chunk-send-failed", conn)

def watchGetReply (env : TextEnv) (cmd : WsCommand) (userId : Int) (conn : Conn) : Bytes × Conn :=
  if env.db = false then (dbMissing, conn)
  else if userId ≤ 0 then (errorResponse "unauthorized" "login-required", conn)
  else
    match conn.query fun db stmt => dbGetWatchHistory db stmt userId cmd.videoId with
    | (.error _, conn) =>
      (jsonResponse (ascii "watch_get") (ascii "not_found") (ascii "history-missing"), conn)
    | (.ok history, conn) =>
      (fitted 256 (ascii "\x7b\"type\":\"watch_get\",\"status\":\"ok\",\"user_id\":" ++ decimal userId ++
        ascii ",\"video_id\":" ++ decimal cmd.videoId ++ ascii ",\"position\":" ++
        decimal history.lastPosition ++ ascii "\x7d"), conn)

def watchUpdateReply (env : TextEnv) (cmd : WsCommand) (userId : Int) (conn : Conn) : Bytes × Conn :=
  if env.db = false then (dbMissing, conn)
  else if userId ≤ 0 then (errorResponse "unauthorized" "login-required", conn)
  else
    match conn.exec fun db stmt => dbUpsertWatchHistory db stmt userId cmd.videoId cmd.position with
    | (false, conn) => (errorResponse "db_error" "watch-update-failed", conn)
    | (true, conn) =>
      (fitted 128 (ascii "\x7b\"type\":\"watch_update\",\"status\":\"ok\",\"user_id\":" ++
        decimal userId ++ ascii ",\"position\":" ++ decimal cmd.position ++ ascii "\x7d"), conn)

/-- The text with which a command other than `ws_init` and `ws_segment` is answered. -/
def commandReply (env : TextEnv) (cmd : WsCommand) (userId : Int) (conn : Conn) : Bytes × Conn :=
  match cmd.type with
  | .ping => (jsonResponse (ascii "pong") (ascii "ok") (ascii "alive"), conn)
  | .quicSend => (quicSendReply env cmd, conn)
  | .listVideos => listVideosReply env conn
  | .listContinue => listContinueReply env userId conn
  | .videoDetail => videoDetailReply env cmd conn
  | .streamStart => streamStartReply env cmd conn
  | .streamChunk => streamChunkReply env cmd conn
  | .watchGet => watchGetReply env cmd userId conn
  | .watchUpdate => watchUpdateReply env cmd userId conn
  | .unknown | .streamSeek | .streamStop | .wsInit | .wsSegment =>
    (errorResponse "bad_request" "unsupported", conn)

/-! ### Commands that send a file -/

/-- `send_ws_file`: the magic, the index, and what the file holds. -/
def sendWsFile (io : WsIo) (content : Option Bytes) (magic : String) (index : UInt32) : Bool × WsIo :=
  match content with
  | none => (false, io)
  | some content =>
    if content = [] then (false, io)
    else
      wsSendFrame io 0x2 (ascii magic ++
        [(index >>> 24).toUInt8, (index >>> 16).toUInt8, (index >>> 8).toUInt8, index.toUInt8] ++ content)

def segmentDir (videoId : Int) : Bytes := ascii "data/segments/" ++ decimal videoId

/-- `%05d`. -/
def decimal5 (n : Int) : Bytes :=
  let sign := if n < 0 then ascii "-" else []
  let digits := decimal n.natAbs
  sign ++ List.replicate (5 - sign.length - digits.length) 48 ++ digits

def segmentPath (videoId index : Int) : Bytes :=
  segmentDir videoId ++ ascii "/chunk-stream0-" ++ decimal5 index ++ ascii ".m4s"

/-- The text of `segment_info.json` after its opening brace. -/
def infoContent (info : Bytes) : Bytes :=
  let blank (c : UInt8) : Bool := c = 32 ∨ c = 10 ∨ c = 13 ∨ c = 9
  let content := (ofMemory info).dropWhile blank
  if content.head? = some 123 then content.tail.dropWhile blank else content

/-- The first of the 1000 segments that is missing. -/
def countSegments (env : TextEnv) (videoId : Int) : Nat :=
  ((List.range 1000).find? fun (i : Nat) => (env.fileSize (segmentPath videoId i)).isNone).getD 0

/-- What `ws_init` sends after the init segment. -/
def wsInitReply (env : TextEnv) (cmd : WsCommand) (conn : Conn) : Bytes × Conn :=
  match env.segmentInfo (segmentDir cmd.videoId ++ ascii "/segment_info.json") with
  | some info =>
    (ascii "\x7b\"type\":\"ws_init\",\"status\":\"ok\"," ++ infoContent info, conn)
  | none =>
    let text (duration : Int) : Bytes :=
      ascii "\x7b\"type\":\"ws_init\",\"status\":\"ok\",\"duration\":" ++ decimal duration ++
        ascii ",\"total_segments\":" ++ decimal (countSegments env cmd.videoId) ++ ascii "\x7d"
    let reply (duration : Int) : Bytes :=
      if (text duration).length < 256 then text duration
      else jsonResponse (ascii "ws_init") (ascii "ok") (ascii "init-sent")
    if env.db = false then (reply 0, conn)
    else
      match conn.query fun db stmt => dbGetVideoById db stmt cmd.videoId with
      | (.ok video, conn) => (reply video.duration, conn)
      | (.error _, conn) => (reply 0, conn)

def handleWsInit (env : TextEnv) (io : WsIo) (cmd : WsCommand) (conn : Conn) : Bool × WsIo × Conn :=
  let path := segmentDir cmd.videoId ++ ascii "/init-stream0.m4s"
  match sendWsFile io (env.readFile 0 path) "INIT" 0 with
  | (false, io) =>
    let (ok, io) := sendJsonResponse io (ascii "ws_segment") (ascii "error") (ascii "init-missing")
    (ok, io, conn)
  | (true, io) =>
    let (reply, conn) := wsInitReply env cmd conn
    let (ok, io) := wsSendFrame io 0x1 reply
    (ok, io, conn)

/-- The loop of `ws_segment`, with the number of attempts left. -/
def sendSegment (env : TextEnv) (path : Bytes) (index : UInt32) : Nat → Nat → WsIo → Bool × WsIo
  | 0, _, io => (false, io)
  | left + 1, retries, io =>
    match sendWsFile io (env.readFile retries path) "SEGM" index with
    | (true, io) => (true, io)
    | (false, io) => sendSegment env path index left (retries + 1) io

def handleWsSegment (env : TextEnv) (io : WsIo) (cmd : WsCommand) : Bool × WsIo :=
  match sendSegment env (segmentPath cmd.videoId cmd.segmentIndex) (UInt32.ofInt cmd.segmentIndex) 2 0 io with
  | (true, io) => sendJsonResponse io (ascii "ws_segment") (ascii "ok") (ascii "segment-sent")
  | (false, io) =>
    let payload := ascii "\x7b\"type\":\"ws_segment\",\"status\":\"error\",\"segment\":" ++
      decimal cmd.segmentIndex ++ ascii ",\"message\":\"segment-missing\"\x7d"
    if payload.length < 160 then wsSendFrame io 0x1 payload
    else sendJsonResponse io (ascii "ws_segment") (ascii "error") (ascii "segment-missing")

/-- `handle_text_frame`: whether it returns `0`, and the connection to the database. -/
def handleTextFrame (env : TextEnv) (io : WsIo) (frame : WsFrame) (userId : Int) : Bool × WsIo × Conn :=
  let answer (text : Bytes) (conn : Conn) : Bool × WsIo × Conn :=
    let (ok, io) := wsSendFrame io 0x1 text
    (ok, io, conn)
  if frame.payload = [] then answer (errorResponse "bad_request" "empty-payload") env.conn
  else if env.malloc = false then answer (errorResponse "internal_error" "alloc-failed") env.conn
  else
    match parseCommand (ofMemory frame.payload) with
    | none => answer (errorResponse "bad_request" "unknown-command") env.conn
    | some cmd =>
      if cmd.type = .wsInit then handleWsInit env io cmd env.conn
      else if cmd.type = .wsSegment then
        let (ok, io) := handleWsSegment env io cmd
        (ok, io, env.conn)
      else
        let (text, conn) := commandReply env cmd userId env.conn
        answer text conn

end OttQuic.WebSocket
