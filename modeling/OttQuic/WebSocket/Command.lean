import OttQuic.Lib.CString
import OttQuic.Quic.Packet

/-!
# Commands (`parse_command`)

The JSON reader of `websocket.c` looks for a key by its quoted text and reads what follows the next
colon. `parseCommand` is the command a text frame stands for, with the fields its type does not read at
zero.
-/

namespace OttQuic.WebSocket

open CString

/-- `ws_command_type`. -/
inductive WsCommandType where
  | unknown
  | ping
  | quicSend
  | listVideos
  | videoDetail
  | streamStart
  | streamChunk
  | watchGet
  | watchUpdate
  | streamSeek
  | streamStop
  | wsInit
  | wsSegment
  | listContinue
  deriving DecidableEq

/-- `ws_command_t`. -/
structure WsCommand where
  type : WsCommandType
  connectionId : UInt64
  streamId : UInt32
  offset : UInt32
  payload : Bytes
  videoId : Int
  chunkLength : UInt32
  length : UInt32
  position : Int
  segmentIndex : Int
  deriving DecidableEq

/-- The command with no field set. -/
def WsCommand.ofType (type : WsCommandType) : WsCommand := ⟨type, 0, 0, 0, [], 0, 0, 0, 0, 0⟩

/-- `json_find_value`. -/
def jsonFindValue (json : Bytes) (key : String) : Option Bytes :=
  let pattern := ascii "\"" ++ ascii key ++ ascii "\""
  match strstr pattern json with
  | none => none
  | some pos => (strchr 58 (pos.drop pattern.length)).map fun pos => pos.tail.dropWhile isSpace

/-- `json_extract_string_field`; a text that does not fit is cut. -/
def jsonExtractStringField (json : Bytes) (key : String) (outSize : Nat) : Option Bytes :=
  match jsonFindValue json key with
  | none => none
  | some value =>
    if value.head? ≠ some 34 then none
    else
      (strchr 34 value.tail).map fun rest =>
        (value.tail.take (value.tail.length - rest.length)).take (outSize - 1)

def jsonExtractUint64Field (json : Bytes) (key : String) : Option UInt64 :=
  (jsonFindValue json key).bind (strtoull 10)

def jsonExtractUint32Field (json : Bytes) (key : String) : Option UInt32 :=
  match jsonExtractUint64Field json key with
  | none => none
  | some value => if value.toNat > 2 ^ 32 - 1 then none else some value.toUInt32

def jsonExtractInt (json : Bytes) (key : String) : Option Int :=
  ((jsonFindValue json key).bind (strtol 10)).map toInt

/-- The pairs of `hex_to_bytes`, each read by `strtol` in base 16. -/
def hexPairs : Bytes → Option Bytes
  | a :: b :: hex =>
    match strtol 16 [a, b], hexPairs hex with
    | some value, some rest => some (UInt8.ofInt value :: rest)
    | _, _ => none
  | _ => some []

/-- `hex_to_bytes`. -/
def hexToBytes (hex : Bytes) (maxLen : Nat) : Option Bytes :=
  if hex.length = 0 then some []
  else if hex.length % 2 ≠ 0 then none
  else if hex.length / 2 > maxLen then none
  else hexPairs hex

/-- `parse_command`. -/
def parseCommand (text : Bytes) : Option WsCommand :=
  match jsonExtractStringField text "type" 32 with
  | none => none
  | some type =>
    if type = ascii "ping" then some (.ofType .ping)
    else if type = ascii "quic_send" then
      match jsonExtractUint64Field text "connection_id" with
      | none => none
      | some connectionId =>
        let cmd := { WsCommand.ofType .quicSend with
          connectionId := connectionId
          streamId := (jsonExtractUint32Field text "stream_id").getD 1
          offset := (jsonExtractUint32Field text "offset").getD 0 }
        match jsonExtractStringField text "payload_hex" (quicMaxPayload * 2 + 1) with
        | none => some cmd
        | some hex => (hexToBytes hex quicMaxPayload).map fun payload => { cmd with payload := payload }
    else if type = ascii "list_videos" then some (.ofType .listVideos)
    else if type = ascii "list_continue" then some (.ofType .listContinue)
    else if type = ascii "video_detail" then
      (jsonExtractInt text "video_id").map fun videoId =>
        { WsCommand.ofType .videoDetail with videoId := videoId }
    else if type = ascii "watch_get" then
      (jsonExtractInt text "video_id").map fun videoId =>
        { WsCommand.ofType .watchGet with videoId := videoId }
    else if type = ascii "watch_update" then
      match jsonExtractInt text "video_id", jsonExtractInt text "position" with
      | some videoId, some position =>
        some { WsCommand.ofType .watchUpdate with videoId := videoId, position := position }
      | _, _ => none
    else if type = ascii "stream_start" then
      (jsonExtractInt text "video_id").map fun videoId =>
        { WsCommand.ofType .streamStart with videoId := videoId }
    else if type = ascii "stream_chunk" then
      match jsonExtractInt text "video_id", jsonExtractUint32Field text "offset",
        jsonExtractUint32Field text "length", jsonExtractUint64Field text "connection_id" with
      | some videoId, some offset, some length, some connectionId =>
        some { WsCommand.ofType .streamChunk with
          videoId := videoId
          offset := offset
          length := length
          connectionId := connectionId
          streamId := (jsonExtractUint32Field text "stream_id").getD 1 }
      | _, _, _, _ => none
    else if type = ascii "ws_init" then
      (jsonExtractInt text "video_id").map fun videoId =>
        { WsCommand.ofType .wsInit with videoId := videoId }
    else if type = ascii "ws_segment" then
      match jsonExtractInt text "video_id", jsonExtractInt text "segment" with
      | some videoId, some segmentIndex =>
        some { WsCommand.ofType .wsSegment with videoId := videoId, segmentIndex := segmentIndex }
      | _, _ => none
    else none

example : parseCommand (ascii "\x7b\"type\":\"quic_send\",\"connection_id\":7,\"payload_hex\":\"4a4B\"\x7d") =
    some { WsCommand.ofType .quicSend with connectionId := 7, streamId := 1, payload := ascii "JK" } := by
  decide +kernel

theorem toInt_jsonExtractInt {text : Bytes} {key : String} {n : Int} (h : jsonExtractInt text key = some n) :
    toInt n = n := by
  rw [jsonExtractInt, Option.map_eq_some_iff] at h
  obtain ⟨m, -, rfl⟩ := h
  exact toInt_toInt m

theorem parseCommand_videoId {text : Bytes} {cmd : WsCommand} (h : parseCommand text = some cmd) :
    toInt cmd.videoId = cmd.videoId := by
  have hread {f : Int → WsCommand} (hf : ∀ n, (f n).videoId = n)
      (hmap : (jsonExtractInt text "video_id").map f = some cmd) : toInt cmd.videoId = cmd.videoId := by
    obtain ⟨n, hn, rfl⟩ := Option.map_eq_some_iff.mp hmap
    rw [hf]
    exact toInt_jsonExtractInt hn
  rw [parseCommand] at h
  cases hfield : jsonExtractStringField text "type" 32 with
  | none => exact absurd (hfield ▸ h) (by simp)
  | some type =>
      rw [hfield] at h
      dsimp only at h
      by_cases hping : type = ascii "ping"
      · rw [if_pos hping] at h
        exact Option.some.inj h ▸ rfl
      rw [if_neg hping] at h
      by_cases hquicSend : type = ascii "quic_send"
      · rw [if_pos hquicSend] at h
        split at h
        · cases h
        · split at h
          · exact Option.some.inj h ▸ rfl
          · obtain ⟨payload, -, rfl⟩ := Option.map_eq_some_iff.mp h
            rfl
      rw [if_neg hquicSend] at h
      by_cases hlistVideos : type = ascii "list_videos"
      · rw [if_pos hlistVideos] at h
        exact Option.some.inj h ▸ rfl
      rw [if_neg hlistVideos] at h
      by_cases hlistContinue : type = ascii "list_continue"
      · rw [if_pos hlistContinue] at h
        exact Option.some.inj h ▸ rfl
      rw [if_neg hlistContinue] at h
      by_cases hvideoDetail : type = ascii "video_detail"
      · rw [if_pos hvideoDetail] at h
        exact hread (fun _ => rfl) h
      rw [if_neg hvideoDetail] at h
      by_cases hwatchGet : type = ascii "watch_get"
      · rw [if_pos hwatchGet] at h
        exact hread (fun _ => rfl) h
      rw [if_neg hwatchGet] at h
      by_cases hwatchUpdate : type = ascii "watch_update"
      · rw [if_pos hwatchUpdate] at h
        split at h
        · rename_i hvideoId _
          exact Option.some.inj h ▸ toInt_jsonExtractInt hvideoId
        · cases h
      rw [if_neg hwatchUpdate] at h
      by_cases hstreamStart : type = ascii "stream_start"
      · rw [if_pos hstreamStart] at h
        exact hread (fun _ => rfl) h
      rw [if_neg hstreamStart] at h
      by_cases hstreamChunk : type = ascii "stream_chunk"
      · rw [if_pos hstreamChunk] at h
        split at h
        · rename_i hvideoId _ _ _
          exact Option.some.inj h ▸ toInt_jsonExtractInt hvideoId
        · cases h
      rw [if_neg hstreamChunk] at h
      by_cases hwsInit : type = ascii "ws_init"
      · rw [if_pos hwsInit] at h
        exact hread (fun _ => rfl) h
      rw [if_neg hwsInit] at h
      by_cases hwsSegment : type = ascii "ws_segment"
      · rw [if_pos hwsSegment] at h
        split at h
        · rename_i hvideoId _
          exact Option.some.inj h ▸ toInt_jsonExtractInt hvideoId
        · cases h
      rw [if_neg hwsSegment] at h
      cases h

end OttQuic.WebSocket
