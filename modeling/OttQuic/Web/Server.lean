import OttQuic.Web.Seek
import OttQuic.WebSocket.TextFrame

/-!
# The server's replies as frames

On a socket that accepts what is written, the handlers of `ws_init` and `ws_segment` send the frames of
the replies in `serve`, in that order: a binary frame for each file and a text frame for each message.
The page reads off a segment the number with which it asked for it, so that each answered request makes the
segment after its own the next one (`replySegment_fileMessage`).
-/

namespace OttQuic.Web

open CString BigEndian Framing WebSocket

variable {io io' io'' : WsIo} {replies replies' : List Reply}

/-- Every write is accepted, at least in part. -/
def Accepting (io : WsIo) : Prop := ∀ n, io.answers n ≠ 0

/-- The whole frame of a reply. -/
def Reply.SentAs (reply : Reply) (attempt : Attempt UInt8) : Prop :=
  attempt.accepted = attempt.frame.length ∧
    match reply with
    | .binary data => attempt.frame = wsFrame 0x2 data
    | _ => ∃ text, attempt.frame = wsFrame 0x1 text

/-- From `io` to `io'` the frames of the replies have been sent. -/
structure Replied (io io' : WsIo) (replies : List Reply) : Prop where
  accepting : Accepting io'
  sent : ∃ attempts, io'.frames = io.frames ++ attempts ∧ List.Forall₂ Reply.SentAs replies attempts

theorem Replied.trans (h : Replied io io' replies) (h' : Replied io' io'' replies') :
    Replied io io'' (replies ++ replies') := by
  obtain ⟨attempts, hframes, hsent⟩ := h.sent
  obtain ⟨attempts', hframes', hsent'⟩ := h'.sent
  refine ⟨h'.accepting, attempts ++ attempts', ?_, List.rel_append hsent hsent'⟩
  rw [hframes', hframes, List.append_assoc]

theorem takeBytes_accepting {answers : Nat → Nat} (h : ∀ n, answers n ≠ 0) {fuel left : Nat} (i : Nat)
    (hfuel : left ≤ fuel) : (takeBytes answers fuel i left).1 = left := by
  induction fuel generalizing i left with
  | zero => exact (Nat.le_zero.mp hfuel).symm
  | succ fuel ih =>
      have hanswer := h i
      rw [takeBytes]
      split_ifs with hleft
      · exact hleft.symm
      · have hrest : (takeBytes answers fuel (i + 1) (left - min (answers i) left)).1 = left - min (answers i) left :=
          ih (i + 1) (by omega)
        simp only
        omega

theorem wsSendFrame_accepting (h : Accepting io) (opcode : UInt8) (payload : Bytes) :
    (io.taken opcode payload).1 = (wsFrame opcode payload).length := by
  have hheader := takeBytes_accepting h io.writes (Nat.le_refl (frameHeader opcode payload.length).length)
  rcases heq : takeBytes io.answers (frameHeader opcode payload.length).length io.writes
    (frameHeader opcode payload.length).length with ⟨n, j⟩
  rw [heq] at hheader
  have hpayload := takeBytes_accepting h j (Nat.le_refl payload.length)
  rw [WsIo.taken, takeFrame, heq, wsFrame, List.length_append]
  simp only at hheader ⊢
  rw [if_neg (by omega), hheader, hpayload]

theorem wsSendFrame_sends (h : Accepting io) (opcode : UInt8) (payload : Bytes) :
    (wsSendFrame io opcode payload).1 = true ∧ Accepting (wsSendFrame io opcode payload).2 ∧
      (wsSendFrame io opcode payload).2.frames =
        io.frames ++ [⟨wsFrame opcode payload, (wsFrame opcode payload).length⟩] := by
  have hall := wsSendFrame_accepting h opcode payload
  rw [wsSendFrame_eq]
  exact ⟨decide_eq_true (Nat.le_of_eq hall.symm), h, by rw [hall]⟩

theorem wsSendFrame_replied (h : Accepting io) (opcode : UInt8) (payload : Bytes) {reply : Reply}
    (hreply : ∀ attempt : Attempt UInt8, attempt.frame = wsFrame opcode payload →
      attempt.accepted = attempt.frame.length → reply.SentAs attempt) :
    Replied io (wsSendFrame io opcode payload).2 [reply] := by
  obtain ⟨-, haccepting, hframes⟩ := wsSendFrame_sends h opcode payload
  exact ⟨haccepting, _, hframes, .cons (hreply _ rfl rfl) .nil⟩

theorem text_replied (h : Accepting io) (text : Bytes) {reply : Reply} (hreply : ∀ data, reply ≠ .binary data) :
    Replied io (wsSendFrame io 0x1 text).2 [reply] := by
  refine wsSendFrame_replied h 0x1 text fun attempt hframe haccepted => ⟨haccepted, ?_⟩
  cases reply with
  | binary data => exact absurd rfl (hreply data)
  | watchGet | wsInit | other => exact ⟨text, hframe⟩

theorem sendWsFile_replied (h : Accepting io) (content : Option Bytes) (magic : String) (index : UInt32) :
    sendWsFile io content magic index = (false, io) ∧ (∀ next, fileReplies content magic index next = [.other]) ∨
      ∃ io' file, sendWsFile io content magic index = (true, io') ∧ Replied io io' [file] ∧
        ∀ next, fileReplies content magic index next = [file, next] := by
  unfold sendWsFile fileReplies
  cases content with
  | none => exact .inl ⟨rfl, fun _ => rfl⟩
  | some content =>
      dsimp only
      split_ifs with hempty
      · exact .inl ⟨rfl, fun _ => rfl⟩
      · let file := fileMessage magic index content
        have hok := (wsSendFrame_sends h 0x2 file).1
        refine .inr ⟨(wsSendFrame io 0x2 file).2, .binary file, Prod.ext hok rfl, ?_, fun _ => rfl⟩
        exact wsSendFrame_replied h 0x2 file fun attempt hframe haccepted => ⟨haccepted, hframe⟩

/-! ### The handlers -/

/-- What the handlers find for a video. A segment that cannot be read is read once more. -/
def Files.ofEnv (env : TextEnv) (videoId : Int) (info : InitInfo) (position : Option Int) : Files where
  initSegment := env.readFile 0 (segmentDir videoId ++ ascii "/init-stream0.m4s")
  segment index :=
    match env.readFile 0 (segmentPath videoId index) with
    | some (c :: content) => some (c :: content)
    | _ => env.readFile 1 (segmentPath videoId index)
  info := info
  position := position

variable {env : TextEnv} {cmd : WsCommand} {conn : Db.Conn} {info : InitInfo} {position : Option Int}

theorem handleWsInit_replied (h : Accepting io) :
    Replied io (handleWsInit env io cmd conn).2.1 (serve (.ofEnv env cmd.videoId info position) .wsInit) := by
  have hmessage (next : Reply) (hnext : ∀ data, next ≠ .binary data) {io : WsIo} (h : Accepting io) (text : Bytes) :
      Replied io (wsSendFrame io 0x1 text).2 [next] := text_replied h text hnext
  unfold handleWsInit
  rw [serve]
  obtain ⟨hfails, hreplies⟩ | ⟨io', file, hsends, hfile, hreplies⟩ :=
    sendWsFile_replied h (env.readFile 0 (segmentDir cmd.videoId ++ ascii "/init-stream0.m4s")) "INIT" 0
  · rw [Files.ofEnv, hreplies]
    dsimp only
    rw [hfails]
    exact hmessage .other (by simp) h _
  · rw [Files.ofEnv, hreplies]
    dsimp only
    rw [hsends]
    exact hfile.trans (hmessage (.wsInit info) (by simp) hfile.accepting _)

theorem sendSegment_eq (h : Accepting io) (videoId index : Int) (header : UInt32) (info : InitInfo)
    (position : Option Int) : sendSegment env (segmentPath videoId index) header 2 0 io =
      sendWsFile io ((Files.ofEnv env videoId info position).segment index) "SEGM" header := by
  have hlast : sendSegment env (segmentPath videoId index) header 1 1 io =
      sendWsFile io (env.readFile 1 (segmentPath videoId index)) "SEGM" header := by
    obtain ⟨hfails, -⟩ | ⟨io', file, hsends, -⟩ :=
      sendWsFile_replied h (env.readFile 1 (segmentPath videoId index)) "SEGM" header
    · rw [sendSegment, hfails]
      rfl
    · rw [sendSegment, hsends]
  rw [sendSegment, Files.ofEnv]
  dsimp only
  cases env.readFile 0 (segmentPath videoId index) with
  | none => exact hlast
  | some content =>
      cases content with
      | nil => exact hlast
      | cons c content =>
          have hok : (sendWsFile io (some (c :: content)) "SEGM" header).1 = true :=
            (wsSendFrame_sends h 0x2 _).1
          dsimp only
          split
          · rename_i heq
            exact heq.symm
          · rename_i heq
            rw [heq] at hok
            cases hok

theorem handleWsSegment_replied (h : Accepting io) {segment : Int} (hsegment : cmd.segmentIndex = toInt segment) :
    Replied io (handleWsSegment env io cmd).2 (serve (.ofEnv env cmd.videoId info position) (.wsSegment segment)) := by
  have hmessage {io : WsIo} (h : Accepting io) (text : Bytes) : Replied io (wsSendFrame io 0x1 text).2 [.other] :=
    text_replied h text (by simp)
  rw [handleWsSegment, serve, hsegment, sendSegment_eq h _ _ _ info position]
  obtain ⟨hfails, hreplies⟩ | ⟨io', file, hsends, hfile, hreplies⟩ := sendWsFile_replied h
    ((Files.ofEnv env cmd.videoId info position).segment (toInt segment)) "SEGM" (UInt32.ofInt (toInt segment))
  · rw [hreplies, hfails]
    dsimp only
    split
    · exact hmessage h _
    · exact hmessage h _
  · rw [hreplies, hsends]
    exact hfile.trans (hmessage hfile.accepting _)

/-! ### The number of a segment -/

theorem ofBigEndian_index (index : UInt32) :
    ofBigEndian [(index >>> 24).toUInt8, (index >>> 16).toUInt8, (index >>> 8).toUInt8, index.toUInt8] =
      index.toNat := by
  have hlt := index.toNat_lt
  have hbyte (k : UInt32) (hk : k.toNat < 32) : (index >>> k).toUInt8.toNat = index.toNat / 2 ^ k.toNat % 256 := by
    rw [UInt32.toNat_toUInt8, UInt32.toNat_shiftRight, Nat.mod_eq_of_lt hk, Nat.shiftRight_eq_div_pow]
  simp only [ofBigEndian, List.length_cons, List.length_nil]
  rw [hbyte 24 (by decide), hbyte 16 (by decide), hbyte 8 (by decide), UInt32.toNat_toUInt8]
  simp only [UInt32.reduceToNat]
  omega

theorem replySegment_fileMessage {segment : Int} (hlow : -2 ^ 31 ≤ segment) (hhigh : segment < 2 ^ 31)
    (page : Watch) (content : Bytes) :
    page.replySegment (.binary (fileMessage "SEGM" (UInt32.ofInt (toInt segment)) content)) = [segment + 1] := by
  have hint : toInt segment = segment := toInt_eq_iff.mpr ⟨hlow, hhigh⟩
  have hnumber : toInt ((UInt32.ofInt segment).toNat : Int) = segment := by
    rw [UInt32.ofInt, UInt32.toNat_ofNat', toInt, Int.bmod_def]
    omega
  have hmagic : 8 ≤ (fileMessage "SEGM" (UInt32.ofInt segment) content).length ∧
      (fileMessage "SEGM" (UInt32.ofInt segment) content).take 4 = ascii "SEGM" :=
    ⟨Nat.le_add_left 8 content.length, rfl⟩
  have hindex : ((fileMessage "SEGM" (UInt32.ofInt segment) content).drop 4).take 4 =
    [(UInt32.ofInt segment >>> 24).toUInt8, (UInt32.ofInt segment >>> 16).toUInt8,
      (UInt32.ofInt segment >>> 8).toUInt8, (UInt32.ofInt segment).toUInt8] := rfl
  rw [Watch.replySegment, hint, if_pos hmagic, hindex, ofBigEndian_index, hnumber]

end OttQuic.Web
