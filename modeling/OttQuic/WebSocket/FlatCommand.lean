import OttQuic.Lib.FlatJson
import OttQuic.WebSocket.PayloadHex

/-!
# Commands in flat objects

`json_find_value` takes the first place where the quoted key stands, which can be a string that equals the key, and
reads what follows the next colon there; the readers then fit the integer to the field's C type. `faithful_iff` says
for which objects a command that is accepted has the type and the numbers of its members.
-/

namespace OttQuic.WebSocket

open CString Scan FlatJson

/-! ### The numbers of a command -/

/-- The C type of a field. -/
inductive NumberType where
  | int
  | uint32
  | uint64

def NumberType.Fits : NumberType → Int → Prop
  | .int, v => -(2 ^ 31) ≤ v ∧ v < 2 ^ 31
  | .uint32, v => 0 ≤ v ∧ v < 2 ^ 32
  | .uint64, v => 0 ≤ v ∧ v < 2 ^ 64

/-- What is read where the integer `v` is written. -/
def NumberType.read : NumberType → Int → Option Int
  | .int, v => some (toInt (toLong v))
  | .uint32, v => if (toUnsigned v).toNat < 2 ^ 32 then some (toUnsigned v).toNat else none
  | .uint64, v => some (toUnsigned v).toNat

inductive NumberField where
  | connectionId
  | streamId
  | offset
  | length
  | videoId
  | position
  | segmentIndex

def NumberField.key : NumberField → String
  | .connectionId => "connection_id"
  | .streamId => "stream_id"
  | .offset => "offset"
  | .length => "length"
  | .videoId => "video_id"
  | .position => "position"
  | .segmentIndex => "segment"

def NumberField.type : NumberField → NumberType
  | .connectionId => .uint64
  | .streamId | .offset | .length => .uint32
  | .videoId | .position | .segmentIndex => .int

def WsCommand.number (cmd : WsCommand) : NumberField → Int
  | .connectionId => cmd.connectionId.toNat
  | .streamId => cmd.streamId.toNat
  | .offset => cmd.offset.toNat
  | .length => cmd.length.toNat
  | .videoId => cmd.videoId
  | .position => cmd.position
  | .segmentIndex => cmd.segmentIndex

/-- The name of the commands of a type. -/
def WsCommandType.name : WsCommandType → Option String
  | .unknown | .streamSeek | .streamStop => none
  | .ping => some "ping"
  | .quicSend => some "quic_send"
  | .listVideos => some "list_videos"
  | .videoDetail => some "video_detail"
  | .streamStart => some "stream_start"
  | .streamChunk => some "stream_chunk"
  | .watchGet => some "watch_get"
  | .watchUpdate => some "watch_update"
  | .wsInit => some "ws_init"
  | .wsSegment => some "ws_segment"
  | .listContinue => some "list_continue"

/-- The numbers that commands of a type use. -/
def WsCommandType.numbers : WsCommandType → List NumberField
  | .quicSend => [.connectionId, .streamId, .offset]
  | .streamChunk => [.videoId, .offset, .length, .connectionId, .streamId]
  | .videoDetail | .watchGet | .streamStart | .wsInit => [.videoId]
  | .watchUpdate => [.videoId, .position]
  | .wsSegment => [.videoId, .segmentIndex]
  | .unknown | .ping | .listVideos | .streamSeek | .streamStop | .listContinue => []

/-- The number of a member that is absent; without one, the command is rejected. -/
def WsCommandType.default : WsCommandType → NumberField → Option Int
  | _, .streamId => some 1
  | .quicSend, .offset => some 0
  | _, _ => none

/-! ### The claim of the members -/

/-- The number that the members give, if they give one. -/
def NumberField.expected (f : NumberField) (type : WsCommandType) (o : Object) : Option Int :=
  match o.lookup (ascii f.key) with
  | some (.integer i) => some i.value
  | some (.text _) => none
  | none => type.default f

/-- The command has the type and the numbers of the members. -/
structure Faithful (o : Object) (cmd : WsCommand) : Prop where
  type : ∃ s : Text, o.lookup (ascii "type") = some (.text s) ∧ cmd.type.name.map ascii = some s.val
  numbers : ∀ f ∈ cmd.type.numbers, f.expected cmd.type o = some (cmd.number f)

/-- The number that the place where the key is found gives. -/
def NumberField.taken (f : NumberField) (type : WsCommandType) (o : Object) : Option Int :=
  (((o.found (ascii f.key)).bind Found.number).bind f.type.read).or (type.default f)

/-- The key is found at its own member, or there is none: the member is an integer of the field's type. It is found
elsewhere: by chance, the number there is the member's. -/
def NumberField.Kept (f : NumberField) (type : WsCommandType) (o : Object) : Prop :=
  if o.found (ascii f.key) = (o.lookup (ascii f.key)).map .value then
    ∀ v, o.lookup (ascii f.key) = some v → ∃ i, v = .integer i ∧ f.type.Fits i.value
  else f.taken type o = f.expected type o

/-- The object is taken as a command of the type. -/
structure Accepted (o : Object) (type : WsCommandType) : Prop where
  name : ∃ name, type.name = some name ∧ (o.found (ascii "type")).bind Found.string = some (ascii name)
  numbers : ∀ f ∈ type.numbers, (f.taken type o).isSome
  payload : ¬ (type = .quicSend ∧ Refused (payloadHex o.print))

/-! ### Readers -/

section

variable {text : Bytes} {key : String} {v : Int}

theorem toNat_toUnsigned : ((toUnsigned v).toNat : Int) = v ↔ 0 ≤ v ∧ v < 2 ^ 64 := by
  have hlt := (toUnsigned v).toNat_lt
  constructor
  · intro h
    omega
  · rintro ⟨hle, hsmall⟩
    rw [toUnsigned, if_neg (by omega)]
    rw [UInt64.ofInt, UInt64.toNat_ofNat']
    omega

theorem NumberType.read_eq_some (t : NumberType) (v : Int) : t.read v = some v ↔ t.Fits v := by
  cases t with
  | int => rw [read, Option.some.injEq, toInt_toLong, Fits]
  | uint64 => rw [read, Option.some.injEq, toNat_toUnsigned, Fits]
  | uint32 =>
      have h := toNat_toUnsigned (v := v)
      rw [read, Fits]
      split_ifs with hsmall
      · rw [Option.some.injEq, h]
        constructor
        · intro hrange
          have hv := h.mpr hrange
          omega
        · rintro ⟨hle, hlt⟩
          omega
      · constructor
        · rintro ⟨⟩
        · rintro ⟨hle, hlt⟩
          have hv := h.mpr ⟨hle, by omega⟩
          omega

/-- The integer that a text has at a key. -/
def numberAt (text : Bytes) (key : String) : Option Int := (jsonFindValue text key).bind integerAt

theorem jsonExtractInt_eq : jsonExtractInt text key = (numberAt text key).bind NumberType.int.read := by
  rw [jsonExtractInt, numberAt]
  cases jsonFindValue text key with
  | none => rfl
  | some value =>
      rw [Option.bind_some, Option.bind_some, strtol_ten]
      cases integerAt value with
      | none => rfl
      | some v => rfl

theorem jsonExtractUint64Field_eq : jsonExtractUint64Field text key = (numberAt text key).map toUnsigned := by
  rw [jsonExtractUint64Field, numberAt]
  cases jsonFindValue text key with
  | none => rfl
  | some value => rw [Option.bind_some, Option.bind_some, strtoull_ten]

theorem jsonExtractUint64Field_toNat :
    (jsonExtractUint64Field text key).map (fun n => (n.toNat : Int)) =
      (numberAt text key).bind NumberType.uint64.read := by
  rw [jsonExtractUint64Field_eq]
  cases numberAt text key with
  | none => rfl
  | some v => rfl

theorem jsonExtractUint32Field_toNat (text : Bytes) (key : String) :
    (jsonExtractUint32Field text key).map (fun n => (n.toNat : Int)) =
      (numberAt text key).bind NumberType.uint32.read := by
  rw [jsonExtractUint32Field, jsonExtractUint64Field_eq]
  cases numberAt text key with
  | none => rfl
  | some v =>
      rw [Option.map_some, Option.bind_some, NumberType.read]
      dsimp only
      by_cases hsmall : (toUnsigned v).toNat < 2 ^ 32
      · rw [if_neg (by omega), if_pos hsmall, Option.map_some, UInt64.toNat_toUInt32, Nat.mod_eq_of_lt hsmall]
      · rw [if_pos (by omega), if_neg hsmall, Option.map_none]

end

/-! ### What a text gives -/

/-- What the text gives for a number of a command. -/
def NumberField.obtained (f : NumberField) (type : WsCommandType) (text : Bytes) : Option Int :=
  ((numberAt text f.key).bind f.type.read).or (type.default f)

/-- What becomes of a text that names a type. -/
def Parsed (text : Bytes) (type : WsCommandType) : Option WsCommand → Prop
  | none => (∃ f ∈ type.numbers, f.obtained type text = none) ∨ type = .quicSend ∧ Refused (payloadHex text)
  | some cmd =>
    cmd.type = type ∧ (∀ f ∈ type.numbers, f.obtained type text = some (cmd.number f)) ∧
      ¬ (type = .quicSend ∧ Refused (payloadHex text))

section

variable {text : Bytes} {type : WsCommandType} {f : NumberField}

theorem obtained_int (htype : f.type = .int) : f.obtained type text = jsonExtractInt text f.key := by
  have hdefault : type.default f = none := by
    cases f with
    | videoId | position | segmentIndex => cases type <;> rfl
    | connectionId | streamId | offset | length => cases htype
  rw [NumberField.obtained, htype, hdefault, Option.or_none, jsonExtractInt_eq]

theorem obtained_connectionId (text : Bytes) (type : WsCommandType) :
    NumberField.connectionId.obtained type text =
      (jsonExtractUint64Field text "connection_id").map fun n => (n.toNat : Int) := by
  have hdefault : type.default .connectionId = none := by cases type <;> rfl
  rw [NumberField.obtained, hdefault, Option.or_none, jsonExtractUint64Field_toNat]
  rfl

theorem obtained_streamId (text : Bytes) (type : WsCommandType) :
    NumberField.streamId.obtained type text =
      some (((jsonExtractUint32Field text "stream_id").getD 1).toNat : Int) := by
  have hdefault : type.default .streamId = some 1 := by cases type <;> rfl
  rw [NumberField.obtained, hdefault]
  have hread := jsonExtractUint32Field_toNat text "stream_id"
  rw [show NumberField.streamId.type = .uint32 from rfl, show NumberField.streamId.key = "stream_id" from rfl, ← hread]
  cases jsonExtractUint32Field text "stream_id" with
  | none => rfl
  | some n => rfl

theorem obtained_length (text : Bytes) (type : WsCommandType) :
    NumberField.length.obtained type text = (jsonExtractUint32Field text "length").map fun n => (n.toNat : Int) := by
  have hdefault : type.default .length = none := by cases type <;> rfl
  rw [NumberField.obtained, hdefault, Option.or_none, jsonExtractUint32Field_toNat]
  rfl

theorem obtained_offset (text : Bytes) (htype : type ≠ .quicSend) :
    NumberField.offset.obtained type text = (jsonExtractUint32Field text "offset").map fun n => (n.toNat : Int) := by
  have hdefault : type.default .offset = none := by
    cases type with
    | quicSend => exact absurd rfl htype
    | _ => rfl
  rw [NumberField.obtained, hdefault, Option.or_none, jsonExtractUint32Field_toNat]
  rfl

theorem obtained_offset_quicSend (text : Bytes) :
    NumberField.offset.obtained .quicSend text =
      some (((jsonExtractUint32Field text "offset").getD 0).toNat : Int) := by
  have hread := jsonExtractUint32Field_toNat text "offset"
  rw [NumberField.obtained, show NumberField.offset.type = .uint32 from rfl,
    show NumberField.offset.key = "offset" from rfl, ← hread]
  cases jsonExtractUint32Field text "offset" with
  | none => rfl
  | some n => rfl

theorem parsed_bare (hnumbers : type.numbers = []) : Parsed text type (some (.ofType type)) := by
  have hquicSend : type ≠ .quicSend := by
    rintro rfl
    cases hnumbers
  simp [Parsed, hnumbers, hquicSend, WsCommand.ofType]

theorem parsed_videoId (hnumbers : type.numbers = [.videoId]) :
    Parsed text type
      ((jsonExtractInt text "video_id").map fun videoId => { WsCommand.ofType type with videoId := videoId }) := by
  have hquicSend : type ≠ .quicSend := by
    rintro rfl
    cases hnumbers
  have hobtained : NumberField.videoId.obtained type text = jsonExtractInt text "video_id" := obtained_int rfl
  cases hvideoId : jsonExtractInt text "video_id" with
  | none => simp [Parsed, hnumbers, hobtained, hvideoId]
  | some videoId => simp [Parsed, hnumbers, hquicSend, hobtained, hvideoId, WsCommand.ofType, WsCommand.number]

theorem parsed_watchUpdate :
    Parsed text .watchUpdate
      (match jsonExtractInt text "video_id", jsonExtractInt text "position" with
      | some videoId, some position =>
        some { WsCommand.ofType .watchUpdate with videoId := videoId, position := position }
      | _, _ => none) := by
  have hvideoId : NumberField.videoId.obtained .watchUpdate text = jsonExtractInt text "video_id" := obtained_int rfl
  have hposition : NumberField.position.obtained .watchUpdate text = jsonExtractInt text "position" := obtained_int rfl
  cases h : jsonExtractInt text "video_id" with
  | none => simp [Parsed, WsCommandType.numbers, hvideoId, h]
  | some videoId =>
      cases h' : jsonExtractInt text "position" with
      | none => simp [Parsed, WsCommandType.numbers, hposition, h']
      | some position =>
          simp [Parsed, WsCommandType.numbers, hvideoId, hposition, h, h', WsCommand.ofType, WsCommand.number]

theorem parsed_wsSegment :
    Parsed text .wsSegment
      (match jsonExtractInt text "video_id", jsonExtractInt text "segment" with
      | some videoId, some segmentIndex =>
        some { WsCommand.ofType .wsSegment with videoId := videoId, segmentIndex := segmentIndex }
      | _, _ => none) := by
  have hvideoId : NumberField.videoId.obtained .wsSegment text = jsonExtractInt text "video_id" := obtained_int rfl
  have hsegment : NumberField.segmentIndex.obtained .wsSegment text = jsonExtractInt text "segment" := obtained_int rfl
  cases h : jsonExtractInt text "video_id" with
  | none => simp [Parsed, WsCommandType.numbers, hvideoId, h]
  | some videoId =>
      cases h' : jsonExtractInt text "segment" with
      | none => simp [Parsed, WsCommandType.numbers, hsegment, h']
      | some segmentIndex =>
          simp [Parsed, WsCommandType.numbers, hvideoId, hsegment, h, h', WsCommand.ofType, WsCommand.number]

theorem parsed_streamChunk :
    Parsed text .streamChunk
      (match jsonExtractInt text "video_id", jsonExtractUint32Field text "offset",
        jsonExtractUint32Field text "length", jsonExtractUint64Field text "connection_id" with
      | some videoId, some offset, some length, some connectionId =>
        some { WsCommand.ofType .streamChunk with
          videoId := videoId
          offset := offset
          length := length
          connectionId := connectionId
          streamId := (jsonExtractUint32Field text "stream_id").getD 1 }
      | _, _, _, _ => none) := by
  have hvideoId : NumberField.videoId.obtained .streamChunk text = jsonExtractInt text "video_id" := obtained_int rfl
  have hoffset := obtained_offset text (show WsCommandType.streamChunk ≠ .quicSend by decide)
  have hlength := obtained_length text .streamChunk
  have hconnectionId := obtained_connectionId text .streamChunk
  have hstreamId := obtained_streamId text .streamChunk
  cases h : jsonExtractInt text "video_id" with
  | none => simp [Parsed, WsCommandType.numbers, hvideoId, h]
  | some videoId =>
      cases h' : jsonExtractUint32Field text "offset" with
      | none => simp [Parsed, WsCommandType.numbers, hoffset, h']
      | some offset =>
          cases h'' : jsonExtractUint32Field text "length" with
          | none => simp [Parsed, WsCommandType.numbers, hlength, h'']
          | some length =>
              cases h''' : jsonExtractUint64Field text "connection_id" with
              | none => simp [Parsed, WsCommandType.numbers, hconnectionId, h''']
              | some connectionId =>
                  simp [Parsed, WsCommandType.numbers, hvideoId, hoffset, hlength, hconnectionId, hstreamId, h, h', h'',
                    h''', WsCommand.ofType, WsCommand.number]

theorem parsed_quicSend (htext : jsonExtractStringField text "type" 32 = some (ascii "quic_send")) :
    Parsed text .quicSend (parseCommand text) := by
  obtain ⟨hrefused, haccepted⟩ := hexToBytes_cutHex (payloadHex text)
  have hconnectionId := obtained_connectionId text .quicSend
  have hstreamId := obtained_streamId text .quicSend
  have hoffset := obtained_offset_quicSend text
  rw [parseCommand_quicSend htext]
  cases h : jsonExtractUint64Field text "connection_id" with
  | none => simp [Parsed, WsCommandType.numbers, hconnectionId, h]
  | some connectionId =>
      by_cases hcut : Refused (payloadHex text)
      · simp [Parsed, hrefused hcut, hcut]
      · simp [Parsed, WsCommandType.numbers, haccepted hcut, hcut, hconnectionId, hstreamId, hoffset, h, quicSendCommand,
          WsCommand.ofType, WsCommand.number]

/-- **What becomes of a text that names a type.** -/
theorem parsed (htext : jsonExtractStringField text "type" 32 = type.name.map ascii) (hnamed : type.name.isSome) :
    Parsed text type (parseCommand text) := by
  cases type with
  | unknown | streamSeek | streamStop => cases hnamed
  | quicSend => exact parsed_quicSend htext
  | ping | listVideos | listContinue =>
      rw [parseCommand, htext]
      exact parsed_bare rfl
  | videoDetail | watchGet | streamStart | wsInit =>
      rw [parseCommand, htext]
      exact parsed_videoId rfl
  | watchUpdate =>
      rw [parseCommand, htext]
      exact parsed_watchUpdate
  | streamChunk =>
      rw [parseCommand, htext]
      exact parsed_streamChunk
  | wsSegment =>
      rw [parseCommand, htext]
      exact parsed_wsSegment

theorem parseCommand_unnamed
    (hnone : ∀ type : WsCommandType, type.name.isSome → jsonExtractStringField text "type" 32 ≠ type.name.map ascii) :
    parseCommand text = none := by
  rw [parseCommand]
  cases htext : jsonExtractStringField text "type" 32 with
  | none => rfl
  | some name =>
      rw [htext] at hnone
      have hne (type : WsCommandType) (word : String) (hword : type.name = some word) : name ≠ ascii word := fun heq =>
        hnone type (by simp [hword]) (by simp [hword, heq])
      dsimp only
      rw [if_neg (hne .ping _ rfl), if_neg (hne .quicSend _ rfl), if_neg (hne .listVideos _ rfl),
        if_neg (hne .listContinue _ rfl), if_neg (hne .videoDetail _ rfl), if_neg (hne .watchGet _ rfl),
        if_neg (hne .watchUpdate _ rfl), if_neg (hne .streamStart _ rfl), if_neg (hne .streamChunk _ rfl),
        if_neg (hne .wsInit _ rfl), if_neg (hne .wsSegment _ rfl)]

end

/-! ### What an object gives -/

section

variable {o : Object} {key : String} {type : WsCommandType} {f : NumberField}

theorem jsonFindValue_eq (text : Bytes) (key : String) :
    jsonFindValue text key = (behindColon (ascii key) text).map (List.dropWhile isSpace) := by
  have hpattern : ascii "\"" ++ ascii key ++ ascii "\"" = 34 :: (ascii key ++ [34]) := rfl
  have hlength : (34 :: (ascii key ++ [34])).length = (ascii key).length + 2 := by simp
  rw [jsonFindValue, behindColon, hpattern, hlength]
  cases strstr (34 :: (ascii key ++ [34])) text with
  | none => rfl
  | some pos =>
      rw [Option.bind_some, Option.map_map]
      rfl

theorem numberAt_print (hkey : IsWord (ascii key)) :
    numberAt o.print key = (o.found (ascii key)).bind Found.number := by
  have hfound := found_print hkey o
  rw [numberAt, jsonFindValue_eq]
  cases htext : behindColon (ascii key) o.print with
  | none =>
      rw [htext] at hfound
      generalize o.found (ascii key) = found at hfound ⊢
      cases hfound
      rfl
  | some t =>
      rw [htext] at hfound
      generalize o.found (ascii key) = found at hfound ⊢
      cases hfound with
      | some hat =>
          rw [Option.map_some, Option.bind_some, Option.bind_some, integerAt_dropWhile]
          exact hat.number

theorem NumberField.isWord (f : NumberField) : IsWord (ascii f.key) := by
  cases f
  all_goals exact ⟨by decide, by decide, by decide⟩

theorem obtained_print : f.obtained type o.print = f.taken type o := by
  rw [NumberField.obtained, numberAt_print f.isWord, NumberField.taken]

theorem WsCommandType.name_plain {name : String} (hname : type.name = some name) :
    (ascii name).length < 31 ∧ 58 ∉ ascii name := by
  cases type
  all_goals first | cases hname; done | obtain rfl := Option.some.inj hname; exact ⟨by decide, by decide⟩

theorem take_eq_iff {s name : Bytes} {n : Nat} (hname : name.length < n) : s.take n = name ↔ s = name := by
  constructor
  · intro h
    have hlength : s.length ≤ n := by
      have htake := congrArg List.length h
      rw [List.length_take] at htake
      omega
    rwa [List.take_of_length_le hlength] at h
  · rintro rfl
    exact List.take_of_length_le hname.le

theorem typeText_print {name : Bytes} (hname : name.length < 31) (hcolon : 58 ∉ name) :
    jsonExtractStringField o.print "type" 32 = some name ↔ (o.found (ascii "type")).bind Found.string = some name := by
  have hword : IsWord (ascii "type") := ⟨by decide, by decide, by decide⟩
  have hfound := found_print hword o
  rw [jsonExtractStringField, jsonFindValue_eq]
  cases htext : behindColon (ascii "type") o.print with
  | none =>
      rw [htext] at hfound
      generalize o.found (ascii "type") = found at hfound ⊢
      cases hfound
      simp
  | some t =>
      rw [htext] at hfound
      generalize o.found (ascii "type") = found at hfound ⊢
      cases hfound with
      | some hat =>
          rename_i place
          simp only [Option.map_some, Option.bind_some]
          constructor
          · intro h
            split_ifs at h with hquote
            obtain ⟨rest, hrest, hcut⟩ := Option.map_eq_some_iff.mp h
            rw [take_strchr hrest, take_eq_iff hname] at hcut
            have hmem : 34 ∈ (t.dropWhile isSpace).tail := by
              by_contra hnot
              rw [strchr_eq_none.mpr hnot] at hrest
              cases hrest
            obtain ⟨front, back, htail, hfront⟩ := List.eq_append_cons_of_mem hmem
            rw [htail, takeWhile_append_cons hfront] at hcut
            obtain rfl := hcut
            have hvalue : t.dropWhile isSpace = 34 :: (front ++ 34 :: back) := by
              rw [← htail]
              exact List.eq_cons_of_mem_head? (Decidable.not_not.mp hquote)
            exact (hat.string hvalue hfront).resolve_right fun hcross => hcolon hcross.2
          · intro h
            obtain ⟨hquote, rest, hrest⟩ := hat.text_some h
            rw [hrest, if_neg (by simp), List.tail_cons, strchr_append_cons hquote, Option.map_some, take_front,
              Option.some.injEq, take_eq_iff hname]

theorem string_eq_some {place : Found} {s : Bytes} (h : place.string = some s) :
    ∃ s' : Text, place = .value (.text s') ∧ s'.val = s := by
  rcases place with (s' | i) | s'
  · exact ⟨s', rfl, Option.some.inj h⟩
  · cases h
  · cases h

/-- An object that is taken as a command of a type is one of this type or rejected by its payload. -/
theorem Accepted.parsed (h : Accepted o type) :
    ∃ cmd, parseCommand o.print = some cmd ∧ cmd.type = type ∧
      ∀ f ∈ type.numbers, f.taken type o = some (cmd.number f) := by
  obtain ⟨name, hname, hfound⟩ := h.name
  obtain ⟨hlength, hcolon⟩ := WsCommandType.name_plain hname
  have htext : jsonExtractStringField o.print "type" 32 = type.name.map ascii := by
    rw [hname, Option.map_some, typeText_print hlength hcolon, hfound]
  have hparsed := WebSocket.parsed htext (by rw [hname]; rfl)
  cases hparse : parseCommand o.print with
  | none =>
      rw [hparse] at hparsed
      rcases hparsed with ⟨f, hf, hnone⟩ | hpayload
      · have hsome := h.numbers f hf
        rw [← obtained_print, hnone] at hsome
        cases hsome
      · exact absurd hpayload h.payload
  | some cmd =>
      rw [hparse] at hparsed
      obtain ⟨htype, hnumbers, -⟩ := hparsed
      exact ⟨cmd, rfl, htype, fun f hf => obtained_print ▸ hnumbers f hf⟩

theorem accepted_of_parse {cmd : WsCommand} (h : parseCommand o.print = some cmd) :
    Accepted o cmd.type ∧ ∀ f ∈ cmd.type.numbers, f.taken cmd.type o = some (cmd.number f) := by
  obtain ⟨type, hnamed, htext⟩ : ∃ type : WsCommandType, type.name.isSome ∧
      jsonExtractStringField o.print "type" 32 = type.name.map ascii := by
    by_contra hnone
    push Not at hnone
    rw [parseCommand_unnamed hnone] at h
    cases h
  have hparsed := WebSocket.parsed htext hnamed
  rw [h] at hparsed
  obtain ⟨rfl, hnumbers, hpayload⟩ := hparsed
  obtain ⟨name, hname⟩ := Option.isSome_iff_exists.mp hnamed
  obtain ⟨hlength, hcolon⟩ := WsCommandType.name_plain hname
  have htaken : ∀ f ∈ cmd.type.numbers, f.taken cmd.type o = some (cmd.number f) := fun f hf =>
    obtained_print ▸ hnumbers f hf
  rw [hname, Option.map_some, typeText_print hlength hcolon] at htext
  exact ⟨⟨⟨name, hname, htext⟩, fun f hf => by rw [htaken f hf]; rfl, hpayload⟩, htaken⟩

theorem default_fits {v : Int} (h : type.default f = some v) : f.type.Fits v := by
  cases f with
  | streamId =>
      obtain rfl : 1 = v := by cases type <;> exact Option.some.inj h
      exact ⟨by decide, by decide⟩
  | offset =>
      obtain rfl : 0 = v := by
        cases type
        all_goals first | exact Option.some.inj h | cases h
      exact ⟨by decide, by decide⟩
  | connectionId | length | videoId | position | segmentIndex => cases type <;> cases h

theorem kept_iff (hsome : (f.taken type o).isSome) : f.Kept type o ↔ f.expected type o = f.taken type o := by
  rw [NumberField.Kept]
  split_ifs with hown
  · rw [NumberField.taken, hown] at hsome ⊢
    rw [NumberField.expected]
    cases hvalue : o.lookup (ascii f.key) with
    | none => simp
    | some v =>
        rw [hvalue] at hsome
        simp only [Option.map_some, Option.bind_some, Option.some.injEq, forall_eq'] at hsome ⊢
        cases v with
        | text s =>
            -- no number is found, so only a default can have been taken
            have hnone : none ≠ (none : Option Int).or (type.default f) := fun heq => by
              rw [Option.none_or] at heq
              rw [Found.number, Option.bind_none, Option.none_or, ← heq] at hsome
              cases hsome
            simpa [Found.number] using hnone
        | integer i =>
            rw [Found.number, Option.bind_some]
            constructor
            · rintro ⟨j, hj, hfits⟩
              obtain rfl := Scalar.integer.inj hj
              rw [(f.type.read_eq_some i.value).mpr hfits, Option.some_or]
            · intro hexpected
              refine ⟨i, rfl, ?_⟩
              cases hread : f.type.read i.value with
              | none =>
                  rw [hread, Option.none_or] at hexpected
                  exact default_fits hexpected.symm
              | some w =>
                  rw [hread, Option.some_or] at hexpected
                  exact (f.type.read_eq_some i.value).mp (hread.trans hexpected.symm)
  · exact eq_comm

end

/-- **A command is decoded faithfully**, for every flat object. -/
theorem faithful_iff (o : Object) :
    (∀ cmd, parseCommand o.print = some cmd → Faithful o cmd) ↔
      ∀ type, Accepted o type →
        o.found (ascii "type") = (o.lookup (ascii "type")).map .value ∧ ∀ f ∈ type.numbers, f.Kept type o := by
  constructor
  · intro hfaithful type haccepted
    obtain ⟨cmd, hparse, rfl, htaken⟩ := haccepted.parsed
    obtain ⟨⟨s, hlookup, hs⟩, hnumbers⟩ := hfaithful cmd hparse
    refine ⟨?_, fun f hf => ?_⟩
    · obtain ⟨name, hname, hfound⟩ := haccepted.name
      obtain ⟨place, hplace, hstring⟩ := Option.bind_eq_some_iff.mp hfound
      rw [hname, Option.map_some, Option.some.injEq] at hs
      obtain ⟨s', rfl, hs'⟩ := string_eq_some hstring
      rw [hplace, hlookup, Option.map_some, Subtype.ext (hs'.trans hs)]
    · rw [kept_iff (haccepted.numbers f hf), hnumbers f hf, htaken f hf]
  · intro hkept cmd hparse
    obtain ⟨haccepted, htaken⟩ := accepted_of_parse hparse
    obtain ⟨hown, hnumbers⟩ := hkept cmd.type haccepted
    constructor
    · obtain ⟨name, hname, hfound⟩ := haccepted.name
      rw [hown, Option.bind_map, Option.bind_eq_some_iff] at hfound
      obtain ⟨v, hlookup, hstring⟩ := hfound
      obtain ⟨s, hv, hs⟩ := string_eq_some hstring
      rw [Found.value.inj hv] at hlookup
      exact ⟨s, hlookup, by rw [hname, Option.map_some, hs]⟩
    · intro f hf
      rw [← htaken f hf, ← kept_iff (haccepted.numbers f hf)]
      exact hnumbers f hf

/-- `{"type":"video_detail","title":"video_id","rating":5,"video_id":3}`: the title equals the key of the id. -/
def sampleTitleMembers : List Member := [
  .tight (.ofAscii "type" rfl) (.text (.ofAscii "video_detail" rfl)),
  .tight (.ofAscii "title" rfl) (.text (.ofAscii "video_id" rfl)),
  .tight (.ofAscii "rating" rfl) (.integer (.ofAscii "5" rfl rfl)),
  .tight (.ofAscii "video_id" rfl) (.integer (.ofAscii "3" rfl rfl))]

theorem sampleTitleMembers_distinct : (sampleTitleMembers.map Member.key).Nodup := by decide

def sampleTitle : Object := ⟨noSpace, noSpace, sampleTitleMembers, noSpace, sampleTitleMembers_distinct⟩

/-- The member behind the title gives the id. -/
theorem title_names_id : ∃ cmd, parseCommand sampleTitle.print = some cmd ∧ cmd.videoId = 5 ∧
    ¬ Faithful sampleTitle cmd := by
  refine ⟨{ WsCommand.ofType .videoDetail with videoId := 5 }, by decide +kernel, rfl, fun hfaithful => ?_⟩
  have hvideoId := hfaithful.numbers .videoId (by simp [WsCommand.ofType, WsCommandType.numbers])
  exact absurd hvideoId (by decide)

end OttQuic.WebSocket
