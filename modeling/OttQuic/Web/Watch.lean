import OttQuic.Basic
import OttQuic.Lib.BigEndian
import OttQuic.Lib.CString

/-!
# The player (`watch.js`)

What the page keeps about its stream, and its functions that read or change it. Times are in seconds; they
are numbers of JavaScript, which are IEEE doubles, and every operation on them rounds. The browser runs one
handler after the other: `Browser` is what a handler finds when it looks at the video element and the media
source, and how the calls it makes end. Timers and listeners that are set stay in the state until they run.
The socket is open: what the page sends is on its way to the server in `requests`.

`log` is a history that the page does not keep: every call of `reloadFromSegment` with the segment it
chose, and every message sent, the last one first.
-/

namespace OttQuic.Web

open CString BigEndian

/-! ### Messages -/

/-- What the page sends, apart from `watch_update`, which has nothing to do with the stream. -/
inductive Request where
  | watchGet
  | wsInit
  | wsSegment (segment : Int)
  deriving DecidableEq

/-- An entry of `segment_info.json`. -/
structure SegmentInfo where
  index : Int
  start : Float
  stop : Float
  duration : Float
  deriving DecidableEq

/-- The reply to `ws_init`. A field that JavaScript takes as false is not there. -/
structure InitInfo where
  codecString : Option String
  videoCodec : Option String
  totalSegments : Option Int
  segments : Option (List SegmentInfo)
  /-- `total_duration || duration`. -/
  duration : Option Float
  deriving DecidableEq

/-- What the page receives. -/
inductive Reply where
  /-- The init segment or a segment, with its header. -/
  | binary (data : Bytes)
  | watchGet (position : Int)
  | wsInit (info : InitInfo)
  /-- A message that changes nothing that the page keeps. -/
  | other
  deriving DecidableEq

/-! ### What a handler finds -/

inductive ReadyState where
  | closed
  | «open»
  | ended
  deriving DecidableEq

inductive AppendError where
  | quotaExceeded
  | invalidState
  | other
  deriving DecidableEq

structure Browser where
  /-- `mediaSource.readyState`. -/
  readyState : ReadyState
  /-- `sourceBuffer.updating`. -/
  updating : Bool
  /-- `sourceBuffer.buffered`. -/
  buffered : List (Float × Float)
  currentTime : Float
  paused : Bool
  /-- `video.readyState`. -/
  videoReadyState : Nat
  /-- How `sourceBuffer.appendBuffer` fails. -/
  append : Option AppendError
  /-- Whether `sourceBuffer.remove` fails. -/
  removeFails : Bool
  /-- Whether a type with this codec is supported and `addSourceBuffer` succeeds. -/
  addSourceBuffer : String → Bool

/-- Some range holds the time. -/
def Browser.inBuffer (b : Browser) (time : Float) : Bool := b.buffered.any fun range => range.1 ≤ time ∧ time ≤ range.2

/-! ### The state -/

/-- A callback of `setTimeout`. -/
inductive Timer where
  /-- In `requestSegment`, after one second with a full buffer. -/
  | request
  /-- After the init segment that was waiting for the source buffer. -/
  | afterInit
  /-- `appendNext` after a failed one. -/
  | append
  /-- In `onseeking`, when the target is in the buffer. -/
  | recheck (seekTime : Float)
  deriving DecidableEq

/-- A listener that a source buffer calls at the next `updateend`, after its own one. -/
inductive Listener where
  | onClear
  | onEnd
  deriving DecidableEq

inductive Action where
  /-- A call of `reloadFromSegment`. -/
  | seek (seekTime : Float) (targetSegment : Int)
  | send (request : Request)
  deriving DecidableEq

structure Watch where
  /-- Not `null`: the handlers of the video element are set. -/
  mediaSource : Bool
  mediaSourceReady : Bool
  /-- The source buffers that were created are numbered. -/
  sourceBuffer : Option Nat
  created : Nat
  bufferValid : Bool
  videoCodecString : Option String
  segmentQueue : List Bytes
  appending : Bool
  cleaningBuffer : Bool
  retryCount : Nat
  nextSegment : Int
  maxSegments : Int
  requesting : Bool
  seeking : Bool
  seekTargetTime : Float
  segmentDuration : Float
  segmentInfo : List SegmentInfo
  userPaused : Bool
  pendingInitSegment : Option Bytes
  desiredStartTime : Float
  timers : List Timer
  listeners : List (Nat × Listener)
  requests : List Request
  log : List Action
  deriving DecidableEq

namespace Watch

/-- The page when the socket opens: it asks for the last position. -/
def initial : Watch where
  mediaSource := false
  mediaSourceReady := false
  sourceBuffer := none
  created := 0
  bufferValid := false
  videoCodecString := none
  segmentQueue := []
  appending := false
  cleaningBuffer := false
  retryCount := 0
  nextSegment := 0
  maxSegments := 100
  requesting := false
  seeking := false
  seekTargetTime := 0
  segmentDuration := 2
  segmentInfo := []
  userPaused := false
  pendingInitSegment := none
  desiredStartTime := 0
  timers := []
  listeners := []
  requests := [.watchGet]
  log := [.send .watchGet]

variable (s : Watch) (b : Browser)

/-- `send`. -/
def send (request : Request) : Watch :=
  { s with requests := s.requests ++ [request], log := .send request :: s.log }

def setTimeout (timer : Timer) : Watch := { s with timers := s.timers ++ [timer] }

def isSourceBufferValid : Bool := s.sourceBuffer.isSome && s.bufferValid && s.mediaSource && b.readyState = .open

def findSegmentForTime (time : Float) : Int :=
  match s.segmentInfo.getLast? with
  | some last =>
    match s.segmentInfo.find? fun seg => seg.start ≤ time ∧ time < seg.stop with
    | some seg => seg.index
    | none => if last.stop ≤ time then s.segmentInfo.length - 1 else 0
  -- `toUInt64` cuts the fraction off, and takes a negative quotient to `0`
  | none => max 0 (min (time / s.segmentDuration).toUInt64.toNat (s.maxSegments - 1))

/-! ### The media source -/

def resetMediaSource : Watch :=
  { s with
    segmentQueue := []
    appending := false
    nextSegment := 0
    pendingInitSegment := none
    requesting := false
    seeking := false
    seekTargetTime := 0
    retryCount := 0
    sourceBuffer := none
    bufferValid := false
    mediaSource := false }

def setupMediaSource : Watch := { s with mediaSource := true, segmentQueue := [], appending := false }

def recoverStream : Watch :=
  let s := s.resetMediaSource.setupMediaSource
  send { s with
    desiredStartTime := b.currentTime
    seekTargetTime := b.currentTime
    nextSegment := s.findSegmentForTime b.currentTime
    pendingInitSegment := none
    requesting := false } .wsInit

def startStream (position : Float) : Watch :=
  let s := { s.resetMediaSource.setupMediaSource with desiredStartTime := position }
  let s :=
    if position > 0 then
      { s with seekTargetTime := position, seeking := true, nextSegment := s.findSegmentForTime position }
    else { s with nextSegment := 0, seekTargetTime := 0, seeking := false }
  s.send .wsInit

/-- `createSourceBuffer`, and whether there is a source buffer. -/
def createSourceBuffer : Bool × Watch :=
  if s.mediaSource = false ∨ b.readyState ≠ .open then (false, s)
  else if s.sourceBuffer.isSome then (true, s)
  else if b.addSourceBuffer (s.videoCodecString.getD "avc1.64001f") then
    (true, { s with sourceBuffer := some s.created, created := s.created + 1, bufferValid := true })
  else (false, s)

/-! ### The source buffer -/

/-- `cleanupBuffer`: what lies more than ten seconds behind is removed. -/
def cleanupBuffer : Watch :=
  if s.cleaningBuffer then s
  else if s.isSourceBufferValid b = false then s
  else if b.updating then s
  else
    match s.sourceBuffer, b.buffered with
    | some buffer, (start, _) :: _ =>
      let removeEnd := max start (b.currentTime - 10)
      if removeEnd > start + 1 ∧ b.removeFails = false then
        { s with cleaningBuffer := true, listeners := s.listeners ++ [(buffer, .onEnd)] }
      else s
    | _, _ => s

/-- `appendNext`. -/
def appendNext : Watch :=
  if s.isSourceBufferValid b = false ∨ b.updating ∨ s.appending then s
  else
    match s.segmentQueue with
    | [] => s
    | seg :: queue =>
      if b.readyState = .ended then s.recoverStream b
      else
        match b.append with
        | none => { s with appending := true, segmentQueue := queue, retryCount := 0 }
        | some .quotaExceeded =>
          if s.retryCount < 5 then
            -- the segment is put back
            let s := { s with appending := false, retryCount := s.retryCount + 1, segmentQueue := seg :: queue }
            (s.cleanupBuffer b).setTimeout .append
          else setTimeout { s with appending := false, segmentQueue := queue, retryCount := 0 } .append
        | some .invalidState => recoverStream { s with appending := false, segmentQueue := queue } b
        | some .other => { s with appending := false, segmentQueue := queue }

/-- `appendSegment`: of five segments that wait the oldest is dropped. -/
def appendSegment (buffer : Bytes) : Watch :=
  if s.sourceBuffer = none ∨ s.bufferValid = false then s
  else
    let queue := if s.segmentQueue.length ≥ 5 then s.segmentQueue.tail else s.segmentQueue
    if buffer = [] then { s with segmentQueue := queue }
    else appendNext { s with segmentQueue := queue ++ [buffer] } b

/-- The end of `requestSegment`. -/
def sendSegmentRequest : Watch := send { s with requesting := true } (.wsSegment s.nextSegment)

/-- `requestSegment`. The end of the stream and the playback are up to the browser. -/
def requestSegment : Watch :=
  if s.requesting then s
  else if s.isSourceBufferValid b = false then s
  else if s.nextSegment ≥ s.maxSegments then s
  else
    match b.buffered.head?, b.buffered.getLast? with
    | some first, some last =>
      let bufferedAhead := last.2 - b.currentTime
      if b.currentTime < first.1 - 0.5 then { s with seekTargetTime := 0 }
      else if bufferedAhead > 15 then
        if s.userPaused then s else setTimeout { s with requesting := true } .request
      else s.sendSegmentRequest
    | _, _ => s.sendSegmentRequest

/-- `reloadFromSegment`. -/
def reloadFromSegment (seekTime : Float) : Watch :=
  let targetSegment := s.findSegmentForTime seekTime
  let s := { s with
    seeking := true
    segmentQueue := []
    nextSegment := targetSegment
    requesting := false
    log := .seek seekTime targetSegment :: s.log }
  match s.sourceBuffer with
  | some buffer =>
    if b.updating = false ∧ b.buffered ≠ [] then
      if b.removeFails then s.recoverStream b
      else { s with listeners := s.listeners ++ [(buffer, .onClear)] }
    else s.send .wsInit
  | none => s.send .wsInit

/-! ### Events of the source buffer -/

/-- The end of the `updateend` handler. -/
def processQueue : Watch :=
  if s.segmentQueue ≠ [] then s.appendNext b
  else if s.nextSegment < s.maxSegments ∧ s.requesting = false then s.requestSegment b
  else s

/-- The source buffer's own listener. -/
def handleUpdateend : Watch :=
  let s := { s with appending := false }
  if b.paused ∧ s.userPaused = false then
    -- without a source buffer the handler throws
    if s.sourceBuffer = none then s
    else if b.buffered = [] then s.processQueue b
    else if s.seekTargetTime > 0 ∧ (b.currentTime - s.seekTargetTime).abs > 0.5 then
      if b.inBuffer s.seekTargetTime then { s with seekTargetTime := 0 } else s
    else processQueue { s with seekTargetTime := if s.seekTargetTime > 0 then 0 else s.seekTargetTime } b
  else s.processQueue b

/-- `onClear` and `onEnd` throw without a source buffer. -/
def runListener (listener : Nat × Listener) : Watch :=
  if s.sourceBuffer = none then s
  else
    match listener.2 with
    | .onClear => s.send .wsInit
    | .onEnd => appendNext { s with cleaningBuffer := false } b

/-- The event `updateend` of a source buffer, be it the current one or not. -/
def onUpdateend (buffer : Nat) : Watch :=
  let called := s.listeners.filter fun listener => listener.1 = buffer
  let s := { s with listeners := s.listeners.filter fun listener => listener.1 ≠ buffer }
  called.foldl (fun s listener => s.runListener b listener) (s.handleUpdateend b)

/-- The init segment that waited goes to the new source buffer. -/
def appendPendingInit : Watch :=
  match s.createSourceBuffer b with
  | (false, s) => s
  | (true, s) =>
    match s.pendingInitSegment with
    | none => s
    | some init => setTimeout { s.appendSegment b init with pendingInitSegment := none } .afterInit

/-- The event `sourceopen`. -/
def onSourceopen : Watch :=
  let s := { s with mediaSourceReady := true }
  if s.videoCodecString.isSome then s.appendPendingInit b else s

/-! ### Messages -/

/-- An init segment goes to the source buffer, or waits for one. -/
def receiveInit (payload : Bytes) : Watch :=
  let s :=
    if s.isSourceBufferValid b then { s.appendSegment b payload with pendingInitSegment := none }
    else { s with pendingInitSegment := some payload }
  { s with requesting := false }

/-- `handleBinary`. The number in the header is a 32-bit integer with a sign. -/
def handleBinary (data : Bytes) : Watch :=
  if data.length < 8 then s
  else
    let magic := data.take 4
    let idx := toInt (ofBigEndian ((data.drop 4).take 4))
    let payload := data.drop 8
    if magic = ascii "INIT" then
      let s := s.receiveInit b payload
      if s.isSourceBufferValid b then s.requestSegment b else s
    else if magic = ascii "SEGM" then
      appendSegment { s with nextSegment := idx + 1, requesting := false } b payload
    else s

/-- `getCodecMimeString`. -/
def getCodecMimeString (videoCodec : String) : String :=
  (([("hevc", "hvc1.1.6.L120.90"), ("h265", "hvc1.1.6.L120.90"), ("h264", "avc1.64001f"),
    ("avc", "avc1.64001f"), ("avc1", "avc1.64001f"), ("av1", "av01.0.12M.08"),
    ("av01", "av01.0.12M.08")].find? fun codec => codec.1 = videoCodec.toLower).map Prod.snd).getD "avc1.64001f"

/-- What the reply to `ws_init` says about the codec and the segments. -/
def readInfo (info : InitInfo) : Watch :=
  let s := { s with
    videoCodecString := (info.codecString.or (info.videoCodec.map getCodecMimeString)).or s.videoCodecString
    maxSegments := info.totalSegments.getD s.maxSegments }
  match info.segments with
  | some segments =>
    let first := (segments.head?.map SegmentInfo.duration).getD 0
    { s with
      segmentInfo := segments
      segmentDuration := if first != 0 then first else s.segmentDuration }
  | none =>
    match info.duration, info.totalSegments with
    | some duration, some totalSegments => { s with segmentDuration := duration / Float.ofInt totalSegments }
    | _, _ => s

/-- With the segments known, the page starts from the segment of the position it was asked for. -/
def startFrom (info : InitInfo) : Watch :=
  let s := s.readInfo info
  if info.segments.isSome ∧ s.desiredStartTime > 0 then
    { s with
      nextSegment := s.findSegmentForTime s.desiredStartTime
      seekTargetTime := if s.seekTargetTime ≤ 0 then s.desiredStartTime else s.seekTargetTime }
  else s

/-- The reply to `ws_init`. -/
def handleInit (info : InitInfo) : Watch :=
  let s := s.startFrom info
  if s.mediaSourceReady ∧ s.sourceBuffer = none then s.appendPendingInit b else s

/-- `socket.onmessage`. The parameter `t` of the page is a time in whole seconds, if it is there. -/
def onmessage (startTimeParam : Option Nat) : Reply → Watch
  | .binary data => s.handleBinary b data
  | .watchGet position =>
    s.startStream (match startTimeParam with | some time => Float.ofNat time | none => Float.ofInt position)
  | .wsInit info => s.handleInit b info
  | .other => s

/-! ### Events of the video element -/

def onwaiting : Watch := if s.requesting = false ∧ s.nextSegment < s.maxSegments then s.requestSegment b else s

/-- `isTrusted` is whether the event comes from the user. -/
def onplaying (isTrusted : Bool) : Watch := if isTrusted then { s with userPaused := false } else s

def onpause (isTrusted : Bool) : Watch :=
  if isTrusted then { s with userPaused := true }
  else if s.seeking = false ∧ s.sourceBuffer.isSome ∧
      b.buffered.any fun range => range.1 ≤ b.currentTime ∧ b.currentTime < range.2 - 0.5 then
    { s with userPaused := true }
  else s

def onended : Watch := { s with userPaused := true }

def onseeking : Watch :=
  let seekTime := b.currentTime
  let s := { s with userPaused := false, seekTargetTime := seekTime }
  if s.sourceBuffer.isSome ∧ b.inBuffer seekTime then
    if b.videoReadyState ≥ 3 then { s with seekTargetTime := 0 } else s.setTimeout (.recheck seekTime)
  else s.reloadFromSegment b seekTime

def onseeked : Watch :=
  if s.sourceBuffer = none ∨ b.buffered = [] then s
  else if s.seekTargetTime > 0 ∧ (b.currentTime - s.seekTargetTime).abs > 0.5 then
    if b.inBuffer s.seekTargetTime then { s with seekTargetTime := 0 } else s
  else if s.seekTargetTime > 0 then { s with seekTargetTime := 0 }
  else s

/-! ### Timers -/

def runTimer : Timer → Watch
  | .request => requestSegment { s with requesting := false } b
  | .afterInit => if s.isSourceBufferValid b then s.requestSegment b else s
  | .append => s.appendNext b
  | .recheck seekTime =>
    if b.videoReadyState ≥ 3 ∨ s.userPaused then s else s.reloadFromSegment b seekTime

end Watch

end OttQuic.Web
