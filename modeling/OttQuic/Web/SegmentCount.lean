import OttQuic.JsonRows
import OttQuic.Web.Server

/-!
# The number of segments (`ws_init` without `segment_info.json`)

The segments of a video are numbered from 0 on, and without an info file the server looks for the first one that is
missing. Only finding it sets `total_segments`, so when none of the first 1000 is missing the message says 0, which the
page takes as no answer. `total_segments_iff` says when the message has the number of segments that there are.
-/

namespace OttQuic.Web

open CString Db Json Utf8 WebSocket

/-- The consecutive segments from 0 on are those below `n`. -/
structure SegmentCount (env : TextEnv) (videoId : Int) (n : Nat) : Prop where
  present : ∀ i < n, (env.fileSize (segmentPath videoId i)).isSome = true
  missing : env.fileSize (segmentPath videoId n) = none

/-- The files of a video without `segment_info.json`: `content` is what the init segment holds. -/
structure WithoutInfo (env : TextEnv) (videoId : Int) (content : Bytes) (n : Nat) : Prop
    extends SegmentCount env videoId n where
  initSegment : env.readFile 0 (segmentDir videoId ++ ascii "/init-stream0.m4s") = some content
  noInfo : env.segmentInfo (segmentDir videoId ++ ascii "/segment_info.json") = none

/-- The message has this number of segments. -/
def SaysTotal (n : Nat) (text : Bytes) : Prop := JsonReply text (RowOf [("total_segments", .number n)])

/-- On a socket that accepts what is written, the command sends the init segment and then a message with this number
of segments. -/
def ReportsTotal (env : TextEnv) (cmd : WsCommand) (conn : Conn) (n : Nat) : Prop :=
  ∀ io, Accepting io → ∃ init text, SaysTotal n text ∧
    (handleWsInit env io cmd conn).2.1.frames = io.frames ++
      [⟨wsFrame 0x2 init, (wsFrame 0x2 init).length⟩, ⟨wsFrame 0x1 text, (wsFrame 0x1 text).length⟩]

/-- The members of the message. -/
def initColumns (duration total : Int) : Columns :=
  [("type", .text (ascii "ws_init")), ("status", .text (ascii "ok")), ("duration", .number duration),
    ("total_segments", .number total)]

variable {env : TextEnv} {cmd : WsCommand} {conn : Conn} {videoId : Int} {n total : Nat} {content text : Bytes}

/-! ### The probing loop -/

theorem countSegments_eq (h : SegmentCount env videoId n) :
    countSegments env videoId = if n < 1000 then n else 0 := by
  rw [countSegments]
  split_ifs with hn
  · have hfound :
        ((List.range 1000).find? fun (i : Nat) => (env.fileSize (segmentPath videoId i)).isNone) = some n := by
      rw [List.find?_range_eq_some]
      refine ⟨?_, List.mem_range.mpr hn, fun i hi => ?_⟩
      · rw [h.missing, Option.isNone_none]
      · rw [← Option.not_isSome, h.present i hi]
        rfl
    rw [hfound, Option.getD_some]
  · have hnone :
        ((List.range 1000).find? fun (i : Nat) => (env.fileSize (segmentPath videoId i)).isNone) = none := by
      rw [List.find?_range_eq_none]
      intro i hi
      rw [← Option.not_isSome, h.present i (by omega)]
      rfl
    rw [hnone, Option.getD_none]

/-! ### The message -/

theorem rowText_initColumns {duration : Int} (hduration : toInt duration = duration) (hn : n < 1000) :
    rowText (initColumns duration n) = ascii "\x7b\"type\":\"ws_init\",\"status\":\"ok\",\"duration\":" ++
      decimal duration ++ ascii ",\"total_segments\":" ++ decimal n ++ ascii "\x7d" := by
  have htotal : toInt n = n := toInt_eq_iff.mpr (by omega)
  have hstart : ascii "\x7b\"type\":\"ws_init\",\"status\":\"ok\",\"duration\":" =
      ascii "\x7b" ++ (ascii "\"" ++ (ascii "type" ++ (ascii "\":" ++ (ascii "\"" ++ (ascii "ws_init" ++
        (ascii "\"" ++ (ascii "," ++ (ascii "\"" ++ (ascii "status" ++ (ascii "\":" ++ (ascii "\"" ++ (ascii "ok" ++
          (ascii "\"" ++ (ascii "," ++ (ascii "\"" ++ (ascii "duration" ++ ascii "\":")))))))))))))))) := by
    decide
  have htotalKey : ascii ",\"total_segments\":" =
      ascii "," ++ (ascii "\"" ++ (ascii "total_segments" ++ ascii "\":")) := by
    decide
  simp only [rowText, initColumns, columnsText, Column.print, List.append_assoc, List.nil_append, hstart, htotalKey,
    hduration, htotal]

theorem length_initColumns {duration : Int} (hduration : toInt duration = duration) (hn : n < 1000) :
    (rowText (initColumns duration n)).length < 256 := by
  have hint := toInt_eq_iff.mp hduration
  have hfirst := @decimal_length duration (by omega) (by omega)
  have hsecond := @decimal_length n (by omega) (by omega)
  have hstart : (ascii "\x7b\"type\":\"ws_init\",\"status\":\"ok\",\"duration\":").length = 43 := by decide
  have htotalKey : (ascii ",\"total_segments\":").length = 18 := by decide
  have hclose : (ascii "\x7d").length = 1 := rfl
  rw [rowText_initColumns hduration hn]
  simp only [List.length_append, hstart, htotalKey, hclose]
  omega

theorem wsInitReply_eq (hinfo : env.segmentInfo (segmentDir cmd.videoId ++ ascii "/segment_info.json") = none)
    (hcount : countSegments env cmd.videoId = total) (htotal : total < 1000) :
    ∃ duration, (wsInitReply env cmd conn).1 = rowText (initColumns duration total) ∧ toInt duration = duration := by
  have hzero : toInt 0 = 0 := rfl
  have hfits {duration : Int} (hduration : toInt duration = duration) :
      (ascii "\x7b\"type\":\"ws_init\",\"status\":\"ok\",\"duration\":" ++ decimal duration ++
        ascii ",\"total_segments\":" ++ decimal total ++ ascii "\x7d").length < 256 :=
    rowText_initColumns hduration htotal ▸ length_initColumns hduration htotal
  rw [wsInitReply, hinfo, hcount]
  dsimp only
  by_cases hdb : env.db = false
  · rw [if_pos hdb, if_pos (hfits hzero)]
    exact ⟨0, (rowText_initColumns hzero htotal).symm, hzero⟩
  · rw [if_neg hdb, Conn.query]
    cases hvideo : dbGetVideoById conn.db conn.stmt cmd.videoId with
    | error rc =>
        dsimp only
        rw [if_pos (hfits hzero)]
        exact ⟨0, (rowText_initColumns hzero htotal).symm, hzero⟩
    | ok video =>
        obtain ⟨row, -, -, rfl⟩ := dbGetVideoById_ok hvideo
        have hduration : toInt row.read.duration = row.read.duration := toInt_toInt row.duration
        dsimp only
        rw [if_pos (hfits hduration)]
        exact ⟨_, (rowText_initColumns hduration htotal).symm, hduration⟩

theorem saysTotal_initColumns {duration : Int} (hduration : toInt duration = duration) (hn : n < 1000) :
    SaysTotal n (rowText (initColumns duration n)) := by
  have htotal : toInt n = n := toInt_eq_iff.mpr (by omega)
  have hclean : ∀ column ∈ initColumns duration n, column.2.Clean := by
    refine List.forall_mem_cons.mpr ⟨⟨"ws_init".toList, rfl, by decide⟩, ?_⟩
    refine List.forall_mem_cons.mpr ⟨⟨"ok".toList, rfl, by decide⟩, ?_⟩
    exact List.forall_mem_cons.mpr ⟨hduration, List.forall_mem_singleton.mpr htotal⟩
  have hkeys : GoodKeys ((initColumns duration n).map Prod.fst) := by
    show GoodKeys ["type", "status", "duration", "total_segments"]
    decide
  obtain ⟨text, found, hbytes, hparse, ms, rfl, hcolumns⟩ := (rowText_reply_iff hkeys).mpr hclean
  refine ⟨text, _, hbytes, hparse, ms, rfl, List.forall_mem_singleton.mpr (hcolumns _ ?_)⟩
  simp [initColumns]

theorem SaysTotal.unique {m : Nat} (h : SaysTotal n text) (h' : SaysTotal m text) : n = m := by
  obtain ⟨chars, found, hbytes, hparse, ms, hms, hcolumns⟩ := h
  obtain ⟨chars', found', hbytes', hparse', ms', hms', hcolumns'⟩ := h'
  obtain ⟨v, hlookup, hnumber⟩ := hcolumns _ List.mem_cons_self
  obtain ⟨v', hlookup', hnumber'⟩ := hcolumns' _ List.mem_cons_self
  rw [encode_injective (hbytes'.trans hbytes.symm), hparse, hms, hms', Option.some_inj, Json.obj.injEq] at hparse'
  rw [hparse', hlookup', Option.some_inj] at hlookup
  have hsame : Json.num n = Json.num m := hnumber.symm.trans (hlookup.symm.trans hnumber')
  exact_mod_cast Json.num.inj hsame

/-! ### The command -/

theorem handleWsInit_frames {io : WsIo} (h : Accepting io)
    (hinit : env.readFile 0 (segmentDir cmd.videoId ++ ascii "/init-stream0.m4s") = some content)
    (hcontent : content ≠ []) :
    let init := fileMessage "INIT" 0 content
    let text := (wsInitReply env cmd conn).1
    (handleWsInit env io cmd conn).2.1.frames = io.frames ++
      [⟨wsFrame 0x2 init, (wsFrame 0x2 init).length⟩, ⟨wsFrame 0x1 text, (wsFrame 0x1 text).length⟩] := by
  intro init text
  obtain ⟨hok, haccepting, hframes⟩ := wsSendFrame_sends h 0x2 init
  have hfile : sendWsFile io (some content) "INIT" 0 = (true, (wsSendFrame io 0x2 init).2) :=
    (if_neg hcontent).trans (Prod.ext hok rfl)
  rw [handleWsInit, hinit, hfile]
  show (wsSendFrame (wsSendFrame io 0x2 init).2 0x1 text).2.frames = _
  rw [(wsSendFrame_sends haccepting 0x1 text).2.2, hframes, List.append_assoc]
  rfl

theorem handleWsInit_frames_of_empty {io : WsIo} (h : Accepting io)
    (hinit : env.readFile 0 (segmentDir cmd.videoId ++ ascii "/init-stream0.m4s") = some []) :
    ∃ attempt, (handleWsInit env io cmd conn).2.1.frames = io.frames ++ [attempt] := by
  rw [handleWsInit, hinit]
  exact ⟨_, (wsSendFrame_sends h 0x1 _).2.2⟩

theorem accepting_fresh : Accepting (.fresh fun _ => 1) := fun _ => Nat.one_ne_zero

theorem ReportsTotal.eq_count {m : Nat} (h : ReportsTotal env cmd conn m)
    (hfiles : WithoutInfo env cmd.videoId content n) : content ≠ [] ∧ m = if n < 1000 then n else 0 := by
  obtain ⟨init, text, htext, hframes⟩ := h (.fresh fun _ => 1) accepting_fresh
  have hcontent : content ≠ [] := by
    rintro rfl
    obtain ⟨attempt, hone⟩ := @handleWsInit_frames_of_empty env cmd conn _ accepting_fresh hfiles.initSegment
    have hlength := congrArg List.length (hframes.symm.trans hone)
    simp at hlength
  have htotal : (if n < 1000 then n else 0) < 1000 := by split_ifs <;> omega
  obtain ⟨duration, hreply, hduration⟩ :=
    @wsInitReply_eq env cmd conn _ hfiles.noInfo (countSegments_eq hfiles.toSegmentCount) htotal
  have hboth := @handleWsInit_frames env cmd conn content _ accepting_fresh hfiles.initSegment hcontent
  dsimp only at hboth
  rw [hframes, hreply, List.append_cancel_left_eq] at hboth
  simp only [List.cons.injEq, Framing.Attempt.mk.injEq, and_true] at hboth
  have hsame := wsFrame_injective hboth.2.1
  exact ⟨hcontent, htext.unique (hsame ▸ saysTotal_initColumns hduration htotal)⟩

theorem WithoutInfo.reportsTotal (hfiles : WithoutInfo env cmd.videoId content n) (hcontent : content ≠ [])
    (hn : n < 1000) : ReportsTotal env cmd conn n := by
  intro io h
  have hcounted := countSegments_eq hfiles.toSegmentCount
  rw [if_pos hn] at hcounted
  obtain ⟨duration, hreply, hduration⟩ := @wsInitReply_eq env cmd conn _ hfiles.noInfo hcounted hn
  exact ⟨_, _, hreply ▸ saysTotal_initColumns hduration hn, handleWsInit_frames h hfiles.initSegment hcontent⟩

/-- **The number of segments** is reported exactly when it is below 1000 and the init segment is not empty. -/
theorem total_segments_iff (hfiles : WithoutInfo env cmd.videoId content n) :
    ReportsTotal env cmd conn n ↔ content ≠ [] ∧ n < 1000 := by
  constructor
  · intro h
    obtain ⟨hcontent, hcount⟩ := h.eq_count hfiles
    refine ⟨hcontent, ?_⟩
    by_contra hn
    rw [if_neg hn] at hcount
    omega
  · rintro ⟨hcontent, hn⟩
    exact hfiles.reportsTotal hcontent hn

/-- A server with an init segment for video 1, without a database. -/
def serverWith (fileSize : Bytes → Option Nat) : TextEnv where
  malloc := true
  quicEngine := false
  db := false
  conn := ⟨⟨[], [], [], [], 0, 0, 0⟩, 0, fun _ => true, 0⟩
  connectionState _ := none
  packetNumber := 1
  quicSend _ := false
  sendVideoChunk _ _ := false
  fileSize := fileSize
  readFile _ path := if path = segmentDir 1 ++ ascii "/init-stream0.m4s" then some [0] else none
  segmentInfo _ := none
  probedDuration _ := []
  datetime _ := []
  latestFirst := .stable

/-- `ws_init` for video 1. -/
def sampleInit : WsCommand := { WsCommand.ofType .wsInit with videoId := 1 }

theorem serverWith_withoutInfo {fileSize : Bytes → Option Nat} (h : SegmentCount (serverWith fileSize) 1 n) :
    WithoutInfo (serverWith fileSize) 1 [0] n where
  toSegmentCount := h
  initSegment := by
    dsimp only [serverWith]
    exact if_pos rfl
  noInfo := rfl

/-- Segments 0 to 11, and segment 13. -/
def twelveSegments : TextEnv := serverWith fun path =>
  if path ∈ (List.range 12 ++ [13]).map (fun i : Nat => segmentPath 1 i) then some 1 else none

theorem twelveSegments_count : SegmentCount twelveSegments 1 12 where
  present i hi := by
    dsimp only [twelveSegments, serverWith]
    rw [if_pos (List.mem_map_of_mem (List.mem_append_left [13] (List.mem_range.mpr hi)))]
    rfl
  missing := by
    dsimp only [twelveSegments, serverWith]
    exact if_neg (by decide +kernel)

theorem total_segments_of_twelve : ReportsTotal twelveSegments sampleInit twelveSegments.conn 12 :=
  (@total_segments_iff twelveSegments sampleInit _ 12 [0] (serverWith_withoutInfo twelveSegments_count)).mpr
    ⟨List.cons_ne_nil 0 [], by decide⟩

theorem segmentPath_starts (videoId : Int) {i : Nat} (hi : i < 1000) :
    segmentDir videoId ++ ascii "/chunk-stream0-" ++ ascii "00" <+: segmentPath videoId i := by
  have hlength : (decimal i).length ≤ 3 := by
    rw [decimal, ascii, List.length_map, String.length_toList]
    exact (Nat.length_repr_le_iff (by decide)).mpr hi
  have hzeros : List.replicate (5 - ([] : Bytes).length - (decimal i).length) (48 : UInt8) =
      ascii "00" ++ List.replicate (3 - (decimal i).length) 48 := by
    have hsplit : 5 - ([] : Bytes).length - (decimal i).length = 2 + (3 - (decimal i).length) := by
      rw [List.length_nil]
      omega
    rw [hsplit, List.replicate_add]
    rfl
  have hnatural : ¬ (i : Int) < 0 := by omega
  refine ⟨List.replicate (3 - (decimal i).length) 48 ++ decimal i ++ ascii ".m4s", ?_⟩
  rw [segmentPath, decimal5, if_neg hnatural, Int.natAbs_natCast, hzeros]
  simp only [List.append_assoc, List.nil_append]

/-- A video of 1000 segments. -/
def thousandSegments : TextEnv := serverWith fun path =>
  if (segmentDir 1 ++ ascii "/chunk-stream0-" ++ ascii "00").isPrefixOf path then some 1 else none

theorem thousandSegments_count : SegmentCount thousandSegments 1 1000 where
  present i hi := by
    dsimp only [thousandSegments, serverWith]
    rw [if_pos (List.isPrefixOf_iff_prefix.mpr (segmentPath_starts 1 hi))]
    rfl
  missing := by
    dsimp only [thousandSegments, serverWith]
    exact if_neg (by decide +kernel)

/-- With 1000 segments the message says 0. -/
theorem thousand_segments_unreported :
    ¬ ∀ (env : TextEnv) (cmd : WsCommand) (conn : Conn) (content : Bytes) (n : Nat), content ≠ [] →
      WithoutInfo env cmd.videoId content n → ReportsTotal env cmd conn n := by
  intro h
  have hfiles := serverWith_withoutInfo thousandSegments_count
  have hreports := h thousandSegments sampleInit thousandSegments.conn [0] 1000 (List.cons_ne_nil 0 []) hfiles
  obtain ⟨-, hcount⟩ := hreports.eq_count hfiles
  rw [if_neg (by decide)] at hcount
  cases hcount

end OttQuic.Web
