import OttQuic.Lib.Transition
import OttQuic.Web.Watch

/-!
# The page and the server

The two parties and the socket between them, which keeps the order of the messages in each direction. The
server answers one request after the other with what it finds in its files at that time. The browser runs
the handlers of the page in any order.

Beside the replies only the handlers that are set run: those of the video element and the media source
need a media source, and a timer has to be waiting.
-/

namespace OttQuic.Web

open CString Transition

/-! ### The server -/

/-- What the server finds when it answers. -/
structure Files where
  initSegment : Option Bytes
  segment : Int → Option Bytes
  /-- The reply to `ws_init`, of `segment_info.json` or of the files that are there. -/
  info : InitInfo
  /-- The last position of the user, `0` if there is none. -/
  position : Option Int

/-- The bytes that `send_ws_file` sends. -/
def fileMessage (magic : String) (index : UInt32) (content : Bytes) : Bytes :=
  ascii magic ++
    [(index >>> 24).toUInt8, (index >>> 16).toUInt8, (index >>> 8).toUInt8, index.toUInt8] ++ content

/-- The file with what comes after it, or the error. An empty file is an error. -/
def fileReplies (content : Option Bytes) (magic : String) (index : UInt32) (next : Reply) : List Reply :=
  match content with
  | none => [.other]
  | some content => if content = [] then [.other] else [.binary (fileMessage magic index content), next]

/-- The replies to a request, in their order. -/
def serve (files : Files) : Request → List Reply
  | .watchGet => [match files.position with | some position => .watchGet position | none => .other]
  | .wsInit => fileReplies files.initSegment "INIT" 0 (.wsInit files.info)
  | .wsSegment segment =>
    fileReplies (files.segment (toInt segment)) "SEGM" (UInt32.ofInt (toInt segment)) .other

/-! ### The system -/

/-- The page with the requests on their way, and the replies on theirs. -/
structure Stream where
  page : Watch
  replies : List Reply

inductive Event where
  /-- The server answers the next request. -/
  | serve (files : Files)
  /-- The page receives the next reply. -/
  | message (b : Browser)
  | updateend (buffer : Nat) (b : Browser)
  | sourceopen (b : Browser)
  | waiting (b : Browser)
  | playing (isTrusted : Bool)
  | pause (isTrusted : Bool) (b : Browser)
  | ended
  | seeking (b : Browser)
  | seeked (b : Browser)
  /-- The interval that removes old parts of the buffer. -/
  | cleanup (b : Browser)
  /-- The `n`-th of the timers that wait. -/
  | timer (n : Nat) (b : Browser)

/-- The handler of the video element or the media source that an event calls. -/
def Event.handle (page : Watch) : Event → Option Watch
  | .updateend buffer b => if buffer < page.created then some (page.onUpdateend b buffer) else none
  | .sourceopen b => some (page.onSourceopen b)
  | .waiting b => some (page.onwaiting b)
  | .playing isTrusted => some (page.onplaying isTrusted)
  | .pause isTrusted b => some (page.onpause b isTrusted)
  | .ended => some page.onended
  | .seeking b => some (page.onseeking b)
  | .seeked b => some (page.onseeked b)
  | .cleanup b => some (page.cleanupBuffer b)
  | .timer n b => page.timers[n]?.map fun timer => Watch.runTimer { page with timers := page.timers.eraseIdx n } b timer
  | .serve _ | .message _ => none

variable (startTimeParam : Option Nat)

def step (stream : Stream) : Event → Option Stream
  | .serve files =>
    match stream.page.requests with
    | [] => none
    | request :: requests =>
      some ⟨{ stream.page with requests := requests }, stream.replies ++ serve files request⟩
  | .message b =>
    match stream.replies with
    | [] => none
    | reply :: replies => some ⟨stream.page.onmessage b startTimeParam reply, replies⟩
  | event =>
    if stream.page.mediaSource then
      (event.handle stream.page).map fun page => { stream with page := page }
    else none

/-- The runs on one connection. -/
def streaming : System Stream Event := System.ofPartial ⟨Watch.initial, []⟩ (step startTimeParam)

end OttQuic.Web
