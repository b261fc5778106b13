import OttQuic.Server.Base64

/-!
# The frames behind an upgrade (`websocket_handle_client`)

The frames of a client are read from the socket. What the `recv` of the request has brought beyond its end stays in the
buffer of `read_http_request`, and is not read as frames. `FramesIn` says which frames a client has sent, and
`upgrade_frames_iff` when those are the ones the server handles.
-/

namespace OttQuic.Server

open CString Http WebSocket

/-- The main loop handles a frame with such an opcode and ends. -/
def endsLoop (frame : WsFrame) : Bool :=
  frame.opcode ≠ 0x0 ∧ frame.opcode ≠ 0x1 ∧ frame.opcode ≠ 0x2 ∧ frame.opcode ≠ 0x9

/-- The frames the main loop reads; every one has at least two bytes. -/
def loopFrames : Nat → WsInput → List WsFrame
  | 0, _ => []
  | fuel + 1, io =>
    match wsReadFrame true io with
    | none => []
    | some (frame, io) => frame :: if endsLoop frame then [] else loopFrames fuel io

/-- The frames `websocket_handle_client` handles, when what it writes before them is sent. -/
def clientFrames (stack : Vector UInt8 64) (db : Bool) (io : WsInput) : List WsFrame :=
  match opening true db io with
  | .upgrade request io =>
    if (performHandshake stack request).isSome then loopFrames (io.incoming.length + 1) io else []
  | _ => []

/-- The frames in a stream, up to the one that ends the loop or to where no complete frame follows. -/
inductive FramesIn : Bytes → List WsFrame → Prop where
  | stop {rest : Bytes} (h : ∀ e : Encoding, ¬ e.wire <+: rest) : FramesIn rest []
  | last (e : Encoding) (rest : Bytes) (h : endsLoop e.frame = true) : FramesIn (e.wire ++ rest) [e.frame]
  | next (e : Encoding) {rest : Bytes} {frames : List WsFrame} (h : endsLoop e.frame = false)
    (hrest : FramesIn rest frames) : FramesIn (e.wire ++ rest) (e.frame :: frames)

/-- The frames up to the one that ends the loop. -/
def untilEnd : List WsFrame → List WsFrame
  | [] => []
  | frame :: frames => frame :: if endsLoop frame then [] else untilEnd frames

/-- A request for an upgrade that the server can answer. -/
structure UpgradeRequest extends HeaderBlock where
  request : HttpRequest
  accepted : httpParseRequest true text = some request
  upgrade : validateWebsocketRequest request = true
  key : Bytes
  key_eq : request.header (ascii "sec-websocket-key") = some key
  key_fits : key.length + wsGuid.length < 128

section

variable {io : WsInput} {rest : Bytes} {frames : List WsFrame} {fuel : Nat}

theorem wire_length_pos (e : Encoding) : 0 < e.wire.length := by
  simp [Encoding.wire, frameHead]

theorem framesIn_wire (es : List Encoding) :
    FramesIn (es.flatMap Encoding.wire) (untilEnd (es.map Encoding.frame)) := by
  induction es with
  | nil => exact .stop fun e hwire => absurd (List.prefix_nil.mp hwire) (List.ne_nil_of_length_pos (wire_length_pos e))
  | cons e es ih =>
      rw [List.flatMap_cons, List.map_cons, untilEnd]
      split_ifs with hend
      · exact .last e _ hend
      · exact .next e (Bool.eq_false_iff.mpr hend) ih

theorem framesIn_loopFrames (hflows : io.Flows) (hfuel : io.incoming.length < fuel) :
    FramesIn io.incoming (loopFrames fuel io) := by
  induction fuel generalizing io with
  | zero => exact absurd hfuel (Nat.not_lt_zero _)
  | succ fuel ih =>
      rw [loopFrames]
      cases hread : wsReadFrame true io with
      | none =>
          refine .stop fun e hwire => ?_
          obtain ⟨rest, hrest⟩ := hwire
          obtain ⟨io', hsome, -⟩ := wsReadFrame_wire e hflows hrest.symm
          rw [hread] at hsome
          cases hsome
      | some result =>
          obtain ⟨frame, io'⟩ := result
          obtain ⟨e, rfl, hin⟩ := encoding_of_wsReadFrame hread
          obtain ⟨io'', hsome, -, hflows'⟩ := wsReadFrame_wire e hflows hin
          rw [hread, Option.some_inj, Prod.mk.injEq] at hsome
          rw [← hsome.2] at hflows'
          have hpos := wire_length_pos e
          dsimp only
          rw [hin]
          split_ifs with hend
          · exact .last e _ hend
          · refine .next e (Bool.eq_false_iff.mpr hend) (ih hflows' ?_)
            rw [hin, List.length_append] at hfuel
            omega

theorem FramesIn.loopFrames_eq (h : FramesIn rest frames) (hflows : io.Flows) (hin : io.incoming = rest)
    (hfuel : rest.length < fuel) : loopFrames fuel io = frames := by
  induction h generalizing io fuel with
  | @stop rest hnone =>
      obtain ⟨fuel, rfl⟩ := Nat.exists_eq_add_one_of_ne_zero (Nat.ne_zero_of_lt hfuel)
      rw [loopFrames]
      cases hread : wsReadFrame true io with
      | none => rfl
      | some result =>
          obtain ⟨e, -, hwire⟩ := encoding_of_wsReadFrame hread
          exact absurd ⟨_, (hin.symm.trans hwire).symm⟩ (hnone e)
  | last e rest hend =>
      obtain ⟨fuel, rfl⟩ := Nat.exists_eq_add_one_of_ne_zero (Nat.ne_zero_of_lt hfuel)
      obtain ⟨io', hread, -⟩ := wsReadFrame_wire e hflows hin
      rw [loopFrames, hread]
      dsimp only
      rw [if_pos hend]
  | @next e rest frames hend hrest ih =>
      obtain ⟨fuel, rfl⟩ := Nat.exists_eq_add_one_of_ne_zero (Nat.ne_zero_of_lt hfuel)
      obtain ⟨io', hread, hin', hflows'⟩ := wsReadFrame_wire e hflows hin
      have hpos := wire_length_pos e
      rw [List.length_append] at hfuel
      rw [loopFrames, hread]
      dsimp only
      rw [if_neg (by simp [hend]), ih hflows' hin' (by omega)]

end

theorem UpgradeRequest.performHandshake_isSome (r : UpgradeRequest) (stack : Vector UInt8 64) :
    (performHandshake stack r.request).isSome = true := by
  have hkey := r.key_fits
  have hlength := Base64.length_encode Base64.standard (Fips180.sha1 (r.key ++ wsGuid))
  have hfirst : (ascii "HTTP/1.1 101 Switching Protocols\r\nUpgrade: websocket\r\nConnection: Upgrade\r\n").length =
      75 := by
    decide
  have hsecond : (ascii "Sec-WebSocket-Accept: ").length = 22 := by decide
  have hend : (ascii "\r\n\r\n").length = 4 := by decide
  rw [performHandshake, r.key_eq]
  dsimp only
  rw [websocketCalculateAcceptKey_eq stack hkey (by decide)]
  dsimp only
  rw [if_neg, Option.isSome_some]
  simp only [List.length_append, hfirst, hsecond, hlength, hend, Fips180.sha1_length]
  decide

theorem clientFrames_eq (r : UpgradeRequest) (stack : Vector UInt8 64) (db : Bool) (split : Segmentation) (rest : Bytes)
    (hfits : r.text.length ≤ wsMaxHttpBuffer) :
    ∃ io, clientFrames stack db (fresh split (r.text ++ rest)) = loopFrames (io.incoming.length + 1) io ∧
      io.incoming = rest.drop (readAhead split r.text.length (r.text ++ rest).length) ∧ io.Flows := by
  obtain ⟨io, hread, hin, hflows⟩ := readHttpRequest_eq split r.toHeaderBlock rest hfits
  have hopen : opening true db (fresh split (r.text ++ rest)) = .upgrade r.request io := by
    rw [opening, hread]
    dsimp only
    rw [httpParseRequest_append, r.accepted]
    dsimp only
    rw [r.upgrade, if_neg (by simp)]
  refine ⟨io, ?_, hin, hflows⟩
  rw [clientFrames, hopen]
  exact if_pos (r.performHandshake_isSome stack)

/-- **The frames the server handles** are those the client has sent exactly when the request fits the buffer and its
last `recv` brings nothing beyond it, or what is left behind the lost bytes still holds the same frames. -/
theorem upgrade_frames_iff (r : UpgradeRequest) (stack : Vector UInt8 64) (db : Bool) (split : Segmentation)
    (rest : Bytes)
    (frames : List WsFrame) (h : FramesIn rest frames) :
    clientFrames stack db (fresh split (r.text ++ rest)) = frames ↔
      if r.text.length ≤ wsMaxHttpBuffer then
        readAhead split r.text.length (r.text ++ rest).length = 0 ∨
          FramesIn (rest.drop (readAhead split r.text.length (r.text ++ rest).length)) frames
      else frames = [] := by
  split_ifs with hfits
  · obtain ⟨io, hframes, hin, hflows⟩ := clientFrames_eq r stack db split rest hfits
    rw [hframes, ← hin]
    constructor
    · rintro rfl
      exact .inr (framesIn_loopFrames hflows (Nat.lt_succ_self _))
    · rintro (hnone | hleft)
      · rw [hnone, List.drop_zero] at hin
        exact h.loopFrames_eq hflows hin (hin ▸ Nat.lt_succ_self _)
      · exact hleft.loopFrames_eq hflows rfl (Nat.lt_succ_self _)
  · have hopen : opening true db (fresh split (r.text ++ rest)) = .badRequest := by
      rw [opening, readHttpRequest_eq_none split r.toHeaderBlock rest (Nat.lt_of_not_le hfits)]
    rw [clientFrames, hopen]
    exact eq_comm

/-! ### A ping behind the request -/

/-- A ping of a client. -/
def samplePing : Encoding where
  fin := true
  rsv := 0
  opcode := 9
  form := .seven
  mask := some [1, 2, 3, 4]
  payload := []
  holds := Nat.zero_le 125
  payload_le := Nat.zero_le wsMaxFramePayload
  mask_length := fun _ hkey => Option.some.inj hkey ▸ rfl

def sampleUpgradeText : Bytes :=
  ascii "GET / HTTP/1.1\r\nUpgrade: websocket\r\nConnection: Upgrade\r\nSec-WebSocket-Version: 13\r\n" ++
    ascii "Sec-WebSocket-Key: dGhlIHNhbXBsZSBub25jZQ==\r\n\r\n"

theorem exists_upgradeRequest : ∃ r : UpgradeRequest, r.text = sampleUpgradeText := by
  have hkey : (ascii "dGhlIHNhbXBsZSBub25jZQ==").length + wsGuid.length < 128 := by decide
  exact ⟨⟨⟨sampleUpgradeText, by decide +kernel⟩, ⟨ascii "GET", ascii "/", ascii "HTTP/1.1",
    [(ascii "upgrade", ascii "websocket"), (ascii "connection", ascii "Upgrade"),
      (ascii "sec-websocket-version", ascii "13"), (ascii "sec-websocket-key", ascii "dGhlIHNhbXBsZSBub25jZQ==")]⟩,
    by decide +kernel, by decide +kernel, ascii "dGhlIHNhbXBsZSBub25jZQ==", by decide +kernel, hkey⟩, rfl⟩

/-- The request and the ping arrive apart. -/
theorem upgrade_frames_apart :
    ∃ (r : UpgradeRequest) (split : Segmentation), r.text = sampleUpgradeText ∧
      (clientFrames (Vector.replicate 64 0) true (fresh split (r.text ++ samplePing.wire)) = [samplePing.frame] ↔
        if r.text.length ≤ wsMaxHttpBuffer then
          readAhead split r.text.length (r.text ++ samplePing.wire).length = 0 ∨
            FramesIn (samplePing.wire.drop (readAhead split r.text.length (r.text ++ samplePing.wire).length))
              [samplePing.frame]
        else [samplePing.frame] = []) := by
  obtain ⟨r, htext⟩ := exists_upgradeRequest
  have hframes : FramesIn samplePing.wire [samplePing.frame] := framesIn_wire [samplePing]
  exact ⟨r, ⟨fun _ => 1, fun _ => Nat.one_pos⟩, htext, upgrade_frames_iff r _ _ _ _ _ hframes⟩

/-- They arrive together, and the ping is lost. -/
theorem upgrade_frames_lost :
    ¬ ∀ (r : UpgradeRequest) (stack : Vector UInt8 64) (db : Bool) (split : Segmentation) (es : List Encoding),
      clientFrames stack db (fresh split (r.text ++ es.flatMap Encoding.wire)) = untilEnd (es.map Encoding.frame) := by
  intro h
  obtain ⟨r, htext⟩ := exists_upgradeRequest
  let split : Segmentation := ⟨fun _ => 1000, fun _ => Nat.zero_lt_succ 999⟩
  have hfits : r.text.length ≤ wsMaxHttpBuffer := by
    rw [htext]
    decide +kernel
  have hwire : [samplePing].flatMap Encoding.wire = samplePing.wire := List.append_nil _
  have hahead : readAhead split r.text.length (r.text ++ samplePing.wire).length = samplePing.wire.length := by
    rw [htext]
    decide +kernel
  obtain ⟨io, hframes, hin, hflows⟩ := clientFrames_eq r (Vector.replicate 64 0) true split samplePing.wire hfits
  rw [hahead, List.drop_length] at hin
  have hnone : loopFrames (io.incoming.length + 1) io = [] :=
    (framesIn_wire []).loopFrames_eq hflows hin (by simp)
  have hping := h r (Vector.replicate 64 0) true split [samplePing]
  rw [hwire, hframes, hnone] at hping
  cases hping

end OttQuic.Server
