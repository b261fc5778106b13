import OttQuic.WebSocket.TextFrame

/-!
# The frames a client is sent (`websocket_handle_client`)

After the upgrade the server sends the `ready` message and then answers one client frame after the other.
Only the `ready` message's failure ends the connection: the retry of `ws_segment`, the error replies, the
echo of a text frame that was not handled, and the answers of the main loop all send their frame whatever
became of the one before.

`clientDialogue` says of the frames of a client what the server offers the socket, and what next after each
frame that was sent or refused. `output_well_framed_iff` says for which answers of the socket the output is well
framed: behind a frame that is torn it must take nothing of what the server then still offers.
-/

namespace OttQuic.WebSocket

open CString Framing

/-- The main loop, on the frames the client sends until a read fails. -/
def clientLoop (userId : Int) : List (WsFrame × TextEnv) → WsIo → WsIo
  | [], io => io
  | (frame, env) :: rest, io =>
    if frame.opcode = 0x1 then
      match handleTextFrame env io frame userId with
      | (ok, io, _) =>
        if ok = false ∧ frame.payload ≠ [] then
          clientLoop userId rest (wsSendFrame io 0x1 frame.payload).2
        else clientLoop userId rest io
    else if frame.opcode = 0x2 ∨ frame.opcode = 0x0 then
      let opcode := if frame.opcode ≠ 0 then frame.opcode else 0x1
      clientLoop userId rest (wsSendFrame io opcode frame.payload).2
    else if frame.opcode = 0x8 then (wsSendFrame io 0x8 frame.payload).2
    else if frame.opcode = 0x9 then clientLoop userId rest (wsSendFrame io 0xA frame.payload).2
    else (wsSendFrame io 0x8 []).2

/-- `websocket_handle_client` after the handshake. -/
def websocketHandleClient (answers : Nat → Nat) (userId : Int) (frames : List (WsFrame × TextEnv)) :
    WsIo :=
  match sendJsonResponse (.fresh answers) (ascii "ready") (ascii "ok") (ascii "websocket-ready") with
  | (false, io) => io
  | (true, io) => clientLoop userId frames io

/-! ### What the server offers -/

/-- A frame for `ws_send_frame`. -/
structure OutFrame where
  opcode : UInt8
  payload : Bytes
  deriving DecidableEq

def OutFrame.bytes (frame : OutFrame) : Bytes := wsFrame frame.opcode frame.payload

/-- How a socket takes the frame, from its write `i` on. -/
def OutFrame.taken (answers : Nat → Nat) (i : Nat) (frame : OutFrame) : Nat × Nat :=
  takeFrame answers i (frameHeader frame.opcode frame.payload.length).length frame.payload.length

/-- A text. -/
def offerText (text : Bytes) (sent refused : Dialogue OutFrame) : Dialogue OutFrame :=
  .offer ⟨0x1, text⟩ sent refused

/-- A file, if there is something to send. -/
def offerFile (content : Option Bytes) (magic : String) (index : UInt32) (sent refused : Dialogue OutFrame) :
    Dialogue OutFrame :=
  if content.getD [] = [] then refused
  else
    .offer ⟨0x2, ascii magic ++
      [(index >>> 24).toUInt8, (index >>> 16).toUInt8, (index >>> 8).toUInt8, index.toUInt8] ++ content.getD []⟩
      sent refused

def offerInit (env : TextEnv) (cmd : WsCommand) (sent refused : Dialogue OutFrame) : Dialogue OutFrame :=
  offerFile (env.readFile 0 (segmentDir cmd.videoId ++ ascii "/init-stream0.m4s")) "INIT" 0
    (offerText (wsInitReply env cmd env.conn).1 sent refused)
    (offerText (jsonResponse (ascii "ws_segment") (ascii "error") (ascii "init-missing")) sent refused)

/-- The error reply of `ws_segment`. -/
def segmentMissing (cmd : WsCommand) : Bytes :=
  let payload := ascii "\x7b\"type\":\"ws_segment\",\"status\":\"error\",\"segment\":" ++
    decimal cmd.segmentIndex ++ ascii ",\"message\":\"segment-missing\"\x7d"
  if payload.length < 160 then payload
  else jsonResponse (ascii "ws_segment") (ascii "error") (ascii "segment-missing")

/-- The file is offered twice at most, and then the error. -/
def offerSegment (env : TextEnv) (cmd : WsCommand) (sent refused : Dialogue OutFrame) : Dialogue OutFrame :=
  let path := segmentPath cmd.videoId cmd.segmentIndex
  let index := UInt32.ofInt cmd.segmentIndex
  let confirm := offerText (jsonResponse (ascii "ws_segment") (ascii "ok") (ascii "segment-sent")) sent refused
  offerFile (env.readFile 0 path) "SEGM" index confirm
    (offerFile (env.readFile 1 path) "SEGM" index confirm (offerText (segmentMissing cmd) sent refused))

/-- What a text frame is answered with. -/
def offerAnswer (env : TextEnv) (frame : WsFrame) (userId : Int) (sent refused : Dialogue OutFrame) :
    Dialogue OutFrame :=
  if frame.payload = [] then offerText (errorResponse "bad_request" "empty-payload") sent refused
  else if env.malloc = false then offerText (errorResponse "internal_error" "alloc-failed") sent refused
  else
    match parseCommand (ofMemory frame.payload) with
    | none => offerText (errorResponse "bad_request" "unknown-command") sent refused
    | some cmd =>
      if cmd.type = .wsInit then offerInit env cmd sent refused
      else if cmd.type = .wsSegment then offerSegment env cmd sent refused
      else offerText (commandReply env cmd userId env.conn).1 sent refused

/-- What the frames of a client are answered with: a text frame is echoed when an answer to it was refused, and
whatever becomes of an answer, the next frame gets its own. -/
def loopDialogue (userId : Int) : List (WsFrame × TextEnv) → Dialogue OutFrame
  | [] => .done
  | (frame, env) :: rest =>
    let next := loopDialogue userId rest
    if frame.opcode = 0x1 then
      offerAnswer env frame userId next (if frame.payload = [] then next else offerText frame.payload next next)
    else if frame.opcode = 0x2 then .offer ⟨0x2, frame.payload⟩ next next
    else if frame.opcode = 0x0 then offerText frame.payload next next
    else if frame.opcode = 0x8 then .offer ⟨0x8, frame.payload⟩ .done .done
    else if frame.opcode = 0x9 then .offer ⟨0xA, frame.payload⟩ next next
    else .offer ⟨0x8, []⟩ .done .done

/-- All of it, from the `ready` message on. -/
def clientDialogue (userId : Int) (frames : List (WsFrame × TextEnv)) : Dialogue OutFrame :=
  offerText (jsonResponse (ascii "ready") (ascii "ok") (ascii "websocket-ready")) (loopDialogue userId frames) .done

/-! ### The server sends it -/

/-- The frames of a dialogue are sent. -/
def sendDialogue : Dialogue OutFrame → WsIo → WsIo
  | .done, io => io
  | .offer frame sent refused, io =>
    match wsSendFrame io frame.opcode frame.payload with
    | (true, io) => sendDialogue sent io
    | (false, io) => sendDialogue refused io

variable {cmd : WsCommand} {env : TextEnv} {sent refused : Dialogue OutFrame}

theorem OutFrame.bytes_ne_nil (frame : OutFrame) : frame.bytes ≠ [] := by
  refine List.append_ne_nil_of_left_ne_nil (List.ne_nil_of_length_pos ?_) _
  rw [frameHeader_length]
  split_ifs <;> omega

theorem sendDialogue_frames (d : Dialogue OutFrame) (io : WsIo) :
    (sendDialogue d io).frames = io.frames ++ d.log OutFrame.bytes (OutFrame.taken io.answers) io.writes ∧
      (sendDialogue d io).sent =
        io.sent ++ (d.log OutFrame.bytes (OutFrame.taken io.answers) io.writes).flatMap Attempt.written := by
  induction d generalizing io with
  | done => simp [sendDialogue, Dialogue.log]
  | offer frame sent refused ihSent ihRefused =>
      rw [sendDialogue, wsSendFrame_eq, Dialogue.log]
      have htaken : io.taken frame.opcode frame.payload = OutFrame.taken io.answers io.writes frame := rfl
      rw [htaken]
      by_cases hall : (wsFrame frame.opcode frame.payload).length ≤ (OutFrame.taken io.answers io.writes frame).1
      · have hnot : ¬ (OutFrame.taken io.answers io.writes frame).1 < frame.bytes.length := Nat.not_lt.mpr hall
        rw [decide_eq_true hall]
        simp only
        rw [(ihSent _).1, (ihSent _).2, if_neg hnot]
        simp [OutFrame.bytes, Attempt.written]
      · have hshort : (OutFrame.taken io.answers io.writes frame).1 < frame.bytes.length := Nat.lt_of_not_le hall
        rw [decide_eq_false hall]
        simp only
        rw [(ihRefused _).1, (ihRefused _).2, if_pos hshort]
        simp [OutFrame.bytes, Attempt.written]

theorem sendDialogue_offer (frame : OutFrame) (io : WsIo) :
    sendDialogue (.offer frame sent refused) io =
      sendDialogue (bif (wsSendFrame io frame.opcode frame.payload).1 then sent else refused)
        (wsSendFrame io frame.opcode frame.payload).2 := by
  rw [sendDialogue]
  rcases wsSendFrame io frame.opcode frame.payload with ⟨_ | _, io'⟩ <;> rfl

theorem sendDialogue_offerFile (content : Option Bytes) (magic : String) (index : UInt32) (io : WsIo) :
    sendDialogue (offerFile content magic index sent refused) io =
      sendDialogue (bif (sendWsFile io content magic index).1 then sent else refused)
        (sendWsFile io content magic index).2 := by
  cases content with
  | none => rfl
  | some content =>
      rw [offerFile, sendWsFile, Option.getD_some]
      by_cases hempty : content = []
      · rw [if_pos hempty, if_pos hempty]
        rfl
      · rw [if_neg hempty, if_neg hempty]
        exact sendDialogue_offer _ io

theorem sendDialogue_offerInit (io : WsIo) :
    sendDialogue (offerInit env cmd sent refused) io =
      sendDialogue (bif (handleWsInit env io cmd env.conn).1 then sent else refused)
        (handleWsInit env io cmd env.conn).2.1 := by
  rw [offerInit, sendDialogue_offerFile]
  unfold handleWsInit
  simp only
  rcases sendWsFile io (env.readFile 0 (segmentDir cmd.videoId ++ ascii "/init-stream0.m4s")) "INIT" 0 with ⟨_ | _, io'⟩
  · exact sendDialogue_offer _ io'
  · exact sendDialogue_offer _ io'

theorem sendDialogue_offerSegment (io : WsIo) :
    sendDialogue (offerSegment env cmd sent refused) io =
      sendDialogue (bif (handleWsSegment env io cmd).1 then sent else refused) (handleWsSegment env io cmd).2 := by
  have hmissing (io : WsIo) : wsSendFrame io 0x1 (segmentMissing cmd) =
      if (ascii "\x7b\"type\":\"ws_segment\",\"status\":\"error\",\"segment\":" ++ decimal cmd.segmentIndex ++
          ascii ",\"message\":\"segment-missing\"\x7d").length < 160 then
        wsSendFrame io 0x1 (ascii "\x7b\"type\":\"ws_segment\",\"status\":\"error\",\"segment\":" ++
          decimal cmd.segmentIndex ++ ascii ",\"message\":\"segment-missing\"\x7d")
      else sendJsonResponse io (ascii "ws_segment") (ascii "error") (ascii "segment-missing") := by
    simp only [segmentMissing]
    split_ifs <;> rfl
  rw [offerSegment, sendDialogue_offerFile]
  unfold handleWsSegment sendSegment
  simp only [← hmissing]
  rcases sendWsFile io (env.readFile 0 (segmentPath cmd.videoId cmd.segmentIndex)) "SEGM"
    (UInt32.ofInt cmd.segmentIndex) with ⟨_ | _, io'⟩
  · rw [cond_false, sendDialogue_offerFile]
    unfold sendSegment
    dsimp only
    rcases sendWsFile io' (env.readFile 1 (segmentPath cmd.videoId cmd.segmentIndex)) "SEGM"
      (UInt32.ofInt cmd.segmentIndex) with ⟨_ | _, io''⟩
    · exact sendDialogue_offer _ io''
    · exact sendDialogue_offer _ io''
  · exact sendDialogue_offer _ io'

/-- **A text frame** is answered by the frames of its dialogue. -/
theorem sendDialogue_offerAnswer (frame : WsFrame) (userId : Int) (io : WsIo) :
    sendDialogue (offerAnswer env frame userId sent refused) io =
      sendDialogue (bif (handleTextFrame env io frame userId).1 then sent else refused)
        (handleTextFrame env io frame userId).2.1 := by
  rw [offerAnswer, handleTextFrame]
  by_cases hempty : frame.payload = []
  · rw [if_pos hempty, if_pos hempty]
    exact sendDialogue_offer _ io
  rw [if_neg hempty, if_neg hempty]
  by_cases hmalloc : env.malloc = false
  · rw [if_pos hmalloc, if_pos hmalloc]
    exact sendDialogue_offer _ io
  rw [if_neg hmalloc, if_neg hmalloc]
  cases parseCommand (ofMemory frame.payload) with
  | none => exact sendDialogue_offer _ io
  | some cmd =>
      simp only
      by_cases hinit : cmd.type = .wsInit
      · rw [if_pos hinit, if_pos hinit]
        exact sendDialogue_offerInit io
      rw [if_neg hinit, if_neg hinit]
      by_cases hsegment : cmd.type = .wsSegment
      · rw [if_pos hsegment, if_pos hsegment]
        exact sendDialogue_offerSegment io
      · rw [if_neg hsegment, if_neg hsegment]
        exact sendDialogue_offer _ io

/-- **The main loop** sends its dialogue, whatever the client sends. -/
theorem clientLoop_eq (userId : Int) (frames : List (WsFrame × TextEnv)) (io : WsIo) :
    clientLoop userId frames io = sendDialogue (loopDialogue userId frames) io := by
  induction frames generalizing io with
  | nil => rfl
  | cons head rest ih =>
      obtain ⟨frame, env⟩ := head
      have hnext (opcode : UInt8) (payload : Bytes) (io : WsIo) :
          sendDialogue (.offer ⟨opcode, payload⟩ (loopDialogue userId rest) (loopDialogue userId rest)) io =
            clientLoop userId rest (wsSendFrame io opcode payload).2 := by
        rw [sendDialogue_offer, Bool.cond_self, ih]
      have hlast (opcode : UInt8) (payload : Bytes) :
          sendDialogue (.offer ⟨opcode, payload⟩ .done .done) io = (wsSendFrame io opcode payload).2 := by
        rw [sendDialogue_offer, Bool.cond_self]
        rfl
      rw [clientLoop, loopDialogue]
      by_cases htext : frame.opcode = 0x1
      · rw [if_pos htext, if_pos htext, sendDialogue_offerAnswer]
        rcases handleTextFrame env io frame userId with ⟨_ | _, io', conn'⟩
        · -- the answer is refused, and the payload is sent back
          simp only [true_and, cond_false]
          by_cases hempty : frame.payload = []
          · rw [if_neg (not_not_intro hempty), if_pos hempty, ih]
          · rw [if_pos hempty, if_neg hempty]
            exact (hnext 0x1 frame.payload io').symm
        · simp only [Bool.true_eq_false, false_and, if_false, cond_true, ih]
      rw [if_neg htext, if_neg htext]
      by_cases hbinary : frame.opcode = 0x2
      · rw [if_pos (.inl hbinary), if_pos hbinary, hnext, hbinary]
        rfl
      rw [if_neg hbinary]
      by_cases hcontinued : frame.opcode = 0x0
      · rw [if_pos (.inr hcontinued), if_pos hcontinued, offerText, hnext, hcontinued]
        rfl
      rw [if_neg (not_or_intro hbinary hcontinued), if_neg hcontinued]
      by_cases hclose : frame.opcode = 0x8
      · rw [if_pos hclose, if_pos hclose, hlast]
      rw [if_neg hclose, if_neg hclose]
      by_cases hping : frame.opcode = 0x9
      · rw [if_pos hping, if_pos hping, hnext]
      · rw [if_neg hping, if_neg hping, hlast]

theorem websocketHandleClient_eq (answers : Nat → Nat) (userId : Int) (frames : List (WsFrame × TextEnv)) :
    websocketHandleClient answers userId frames = sendDialogue (clientDialogue userId frames) (.fresh answers) := by
  rw [clientDialogue, offerText, sendDialogue_offer, websocketHandleClient, sendJsonResponse]
  rcases wsSendFrame (.fresh answers) 0x1 (jsonResponse (ascii "ready") (ascii "ok") (ascii "websocket-ready"))
    with ⟨_ | _, io⟩
  · rfl
  · exact clientLoop_eq userId frames io

/-- **When the output is well framed.** For every client and every socket, no byte of a frame follows a
torn frame if and only if behind a frame that it tears the socket takes nothing of what the server then still
offers. What it has accepted is then a prefix of the frames that were begun, in order. -/
theorem output_well_framed_iff (answers : Nat → Nat) (userId : Int) (frames : List (WsFrame × TextEnv)) :
    let io := websocketHandleClient answers userId frames
    (WellFramed io.frames ↔ (clientDialogue userId frames).Clean OutFrame.bytes (OutFrame.taken answers) 0) ∧
      (WellFramed io.frames →
        io.sent <+: (io.frames.filter fun a => 0 < a.accepted).flatMap Attempt.frame) := by
  intro io
  obtain ⟨hframes, hsent⟩ := sendDialogue_frames (clientDialogue userId frames) (.fresh answers)
  rw [← websocketHandleClient_eq] at hframes hsent
  have hlog : io.frames = (clientDialogue userId frames).log OutFrame.bytes (OutFrame.taken answers) 0 := hframes
  refine ⟨?_, fun hframed => ?_⟩
  · rw [hlog]
    exact Dialogue.wellFramed_log_iff OutFrame.bytes_ne_nil
  · have hwire : io.sent = io.frames.flatMap Attempt.written := by
      rw [hlog]
      exact hsent
    rw [hwire]
    exact hframed.isPrefix

/-- No database, no engine and no file. -/
def sampleTextEnv : TextEnv where
  malloc := true
  quicEngine := false
  db := false
  conn := ⟨⟨[], [], [], [], 0, 0, 0⟩, 0, fun _ => true, 0⟩
  connectionState _ := none
  packetNumber := 1
  quicSend _ := false
  sendVideoChunk _ _ := false
  fileSize _ := none
  readFile _ _ := none
  segmentInfo _ := none
  probedDuration _ := []
  datetime _ := []
  latestFirst := .stable

/-- A text that is no command: the header of the error reply is sent, its payload times out, and then
the echo of the text goes out behind the header. -/
theorem output_torn_by_echo :
    ¬ ∀ (answers : Nat → Nat) (userId : Int) (frames : List (WsFrame × TextEnv)),
      WellFramed (websocketHandleClient answers userId frames).frames := by
  intro h
  let answers (i : Nat) : Nat := if i = 3 then 0 else 1000
  have hframed := h answers 0 [(⟨0x1, true, ascii "hi"⟩, sampleTextEnv)]
  exact absurd hframed (by decide +kernel)

end OttQuic.WebSocket
