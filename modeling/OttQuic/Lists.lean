import OttQuic.Http.Admin
import OttQuic.JsonRows
import OttQuic.WebSocket.HandleClient

/-!
# Lists of videos

The replies with rows of the database: the lists of videos, of videos to continue and of all videos, and
the detail of one. The web client hands each to `JSON.parse`.
-/

namespace OttQuic

open CString Db Http Json WebSocket

/-! ### The loop over the rows -/

theorem rowsText_itemsText (separator : Bytes) (rows : List Columns) :
    rowsText separator rows = itemsText separator (rows.map rowText) ++ ascii "]" := by
  induction rows generalizing separator with
  | nil => rfl
  | cons columns rows ih => rw [rowsText, ih, List.map_cons, itemsText, List.append_assoc _ _ (ascii "]")]

/-- The loop builds the text of the rows when it fits with the bracket and the brace that come after. -/
theorem buildList_eq {size : Nat} (hsize : 2 ≤ size) (buf : Bytes) (rows : List Columns) :
    buildList size buf (rows.map rowText) =
      if (buf ++ rowsText [] rows ++ ascii "\x7d").length ≥ size then none
      else some (buf ++ rowsText [] rows ++ ascii "\x7d") := by
  have hclose : buf ++ rowsText [] rows ++ ascii "\x7d" = buf ++ itemsText [] (rows.map rowText) ++ ascii "]\x7d" := by
    have hends : ascii "]\x7d" = ascii "]" ++ ascii "\x7d" := rfl
    rw [rowsText_itemsText, hends]
    simp only [List.append_assoc]
  rw [buildList_itemsText hsize, hclose]

/-! ### The rows -/

def videoColumns (row : VideoRow) : Columns :=
  [("id", .number row.id), ("title", .text row.title), ("description", .text (row.description.getD [])),
    ("thumbnail_path", .text (row.thumbnailPath.getD [])), ("duration", .number row.duration)]

def continueColumns (entry : VideoRow × Int) : Columns :=
  videoColumns entry.1 ++ [("position", .number entry.2)]

def adminColumns (row : VideoRow) : Columns :=
  [("id", .number row.id), ("title", .text row.title), ("description", .text (row.description.getD [])),
    ("file_path", .text row.filePath), ("thumbnail_path", .text (row.thumbnailPath.getD []))]

theorem videoItem_eq (row : VideoRow) : videoItem row ++ ascii "\x7d" = rowText (videoColumns row) := by
  simp [videoItem, rowText, videoColumns, columnsText, Column.print, ascii]

theorem adminListItem_eq (row : VideoRow) : adminListItem row = rowText (adminColumns row) := by
  simp [adminListItem, rowText, adminColumns, columnsText, Column.print, ascii]

theorem continueItem_eq (entry : VideoRow × Int) :
    videoItem entry.1 ++ ascii ",\"position\":" ++ decimal (toInt entry.2) ++ ascii "\x7d" =
      rowText (continueColumns entry) := by
  simp [videoItem, rowText, continueColumns, videoColumns, columnsText, Column.print, ascii]

/-! ### The replies -/

def videosTop : Columns := [("type", .text (ascii "videos"))]

def continueTop : Columns := [("type", .text (ascii "continue_videos"))]

/-- `SELECT … FROM videos ORDER BY id DESC`. -/
def allVideos (db : Database) : List VideoRow := db.videos.mergeSort fun a b => b.id ≤ a.id

/-- The rows of `list_videos`. -/
def newestVideos (db : Database) : List VideoRow := (allVideos db).take 20

/-- The videos a user has a position in. -/
def startedVideos (db : Database) (userId : Int) : List (VideoRow × WatchRow) :=
  (db.watchHistory.filter fun w => w.userId = userId ∧ w.lastPosition > 10).filterMap fun w =>
    (db.videos.find? fun row => row.id = w.videoId).map fun row => (row, w)

/-- The rows of `list_continue`: the videos with a position, the last one watched first, in one of the orders
that the times allow. -/
def watchedVideos (latestFirst : LatestFirst) (db : Database) (userId : Int) : List (VideoRow × Int) :=
  ((latestFirst.order (startedVideos db userId)).take 10).map fun (row, w) => (row, w.lastPosition)

def detailColumns (env : TextEnv) (row : VideoRow) : Columns :=
  [("type", .text (ascii "video_detail")), ("id", .number row.id), ("title", .text row.title),
    ("description", .text (row.description.getD [])), ("file_path", .text row.filePath),
    ("thumbnail_path", .text (row.thumbnailPath.getD [])), ("duration", .number row.duration),
    ("upload_date", .text (env.datetime row.uploadDate))]

theorem buildList_listText {size : Nat} (hsize : 2 ≤ size) {buf : Bytes} {top : Columns} {rows : List Columns}
    (hbuf : listText top rows = buf ++ rowsText [] rows ++ ascii "\x7d") :
    buildList size buf (rows.map rowText) =
      if (listText top rows).length ≥ size then none else some (listText top rows) := by
  rw [buildList_eq hsize, hbuf]

theorem listVideosReply_eq {env : TextEnv} {conn : Conn} (hdb : env.db = true) (hok : conn.stmt.ok = true) :
    (listVideosReply env conn).1 = fitted 4096 (listText videosTop ((newestVideos conn.db).map videoColumns)) := by
  have hitems : (newestVideos conn.db).map (fun row => videoItem row ++ ascii "\x7d") =
      ((newestVideos conn.db).map videoColumns).map rowText := by
    rw [List.map_map]
    exact List.map_congr_left fun row _ => videoItem_eq row
  have hbuf : listText videosTop ((newestVideos conn.db).map videoColumns) =
      ascii "\x7b\"type\":\"videos\",\"items\":[" ++ rowsText [] ((newestVideos conn.db).map videoColumns) ++
        ascii "\x7d" := by
    simp [listText, videosTop, columnsText, Column.print, ascii]
  have hlist := buildList_listText (show 2 ≤ 4096 by decide) hbuf
  rw [listVideosReply, if_neg (by simp [hdb]), Conn.query, dbSelect, if_pos hok]
  dsimp only
  rw [← allVideos, ← newestVideos, hitems, hlist, fitted]
  split_ifs <;> rfl

theorem listContinueReply_eq {env : TextEnv} {userId : Int} {conn : Conn} (hdb : env.db = true)
    (huser : 0 < userId) (hok : conn.stmt.ok = true) :
    (listContinueReply env userId conn).1 =
      fitted 4096 (listText continueTop ((watchedVideos env.latestFirst conn.db userId).map continueColumns)) := by
  have hitems : ((env.latestFirst.order (startedVideos conn.db userId)).take 10).map (fun (row, w) =>
      videoItem row ++ ascii ",\"position\":" ++ decimal (toInt w.lastPosition) ++ ascii "\x7d") =
        ((watchedVideos env.latestFirst conn.db userId).map continueColumns).map rowText := by
    rw [watchedVideos, List.map_map, List.map_map]
    exact List.map_congr_left fun entry _ => continueItem_eq (entry.1, entry.2.lastPosition)
  have hbuf : listText continueTop ((watchedVideos env.latestFirst conn.db userId).map continueColumns) =
      ascii "\x7b\"type\":\"continue_videos\",\"items\":[" ++
        rowsText [] ((watchedVideos env.latestFirst conn.db userId).map continueColumns) ++ ascii "\x7d" := by
    simp [listText, continueTop, columnsText, Column.print, ascii]
  have hlist := buildList_listText (show 2 ≤ 4096 by decide) hbuf
  rw [listContinueReply, if_neg (by simp [hdb]), if_neg (by omega), Conn.query, dbSelect, if_pos hok]
  dsimp only
  rw [← startedVideos, hitems, hlist, fitted]
  split_ifs <;> rfl

theorem videoDetailReply_eq {env : TextEnv} {cmd : WsCommand} {conn : Conn} {row : VideoRow} (hdb : env.db = true)
    (hok : conn.stmt.ok = true) (hrow : conn.db.videos.find? (fun row => row.id = cmd.videoId) = some row)
    (hint : toInt cmd.videoId = cmd.videoId) :
    (videoDetailReply env cmd conn).1 = fitted 1024 (rowText (detailColumns env row)) := by
  have hid : row.id = cmd.videoId := by simpa using List.find?_some hrow
  have htext : rowText (detailColumns env row) = ascii "\x7b\"type\":\"video_detail\",\"id\":" ++
      decimal cmd.videoId ++ ascii ",\"title\":\"" ++ row.title ++ ascii "\",\"description\":\"" ++
      row.description.getD [] ++ ascii "\",\"file_path\":\"" ++ row.filePath ++
      ascii "\",\"thumbnail_path\":\"" ++ row.thumbnailPath.getD [] ++ ascii "\",\"duration\":" ++
      decimal (toInt row.duration) ++ ascii ",\"upload_date\":\"" ++ env.datetime row.uploadDate ++
      ascii "\"\x7d" := by
    have hstart : ascii "\x7b\"type\":\"video_detail\",\"id\":" =
        ascii "\x7b" ++ (ascii "\"" ++ (ascii "type" ++ (ascii "\":" ++ (ascii "\"" ++ (ascii "video_detail" ++
          (ascii "\"" ++ (ascii "," ++ (ascii "\"" ++ (ascii "id" ++ ascii "\":"))))))))) := by
      decide
    have htitle : ascii ",\"title\":\"" =
        ascii "," ++ (ascii "\"" ++ (ascii "title" ++ (ascii "\":" ++ ascii "\""))) := by
      decide
    have hfile : ascii "\",\"file_path\":\"" =
        ascii "\"" ++ (ascii "," ++ (ascii "\"" ++ (ascii "file_path" ++ (ascii "\":" ++ ascii "\"")))) := by
      decide
    have hdescription : ascii "\",\"description\":\"" =
        ascii "\"" ++ (ascii "," ++ (ascii "\"" ++ (ascii "description" ++ (ascii "\":" ++ ascii "\"")))) := by
      decide
    have hthumbnail : ascii "\",\"thumbnail_path\":\"" =
        ascii "\"" ++ (ascii "," ++ (ascii "\"" ++ (ascii "thumbnail_path" ++ (ascii "\":" ++ ascii "\"")))) := by
      decide
    have hduration : ascii "\",\"duration\":" =
        ascii "\"" ++ (ascii "," ++ (ascii "\"" ++ (ascii "duration" ++ ascii "\":"))) := by
      decide
    have hupload : ascii ",\"upload_date\":\"" =
        ascii "," ++ (ascii "\"" ++ (ascii "upload_date" ++ (ascii "\":" ++ ascii "\""))) := by
      decide
    have hclose : ascii "\"\x7d" = ascii "\"" ++ ascii "\x7d" := by
      decide
    rw [← hint, ← hid]
    simp only [rowText, detailColumns, columnsText, Column.print, List.append_assoc, List.nil_append, hstart,
      htitle, hfile, hdescription, hthumbnail, hduration, hupload, hclose]
  rw [videoDetailReply, if_neg (by simp [hdb]), Conn.query, dbSelect, if_pos hok, hrow]
  dsimp only
  rw [htext]

/-- The replies of `handle_admin_list` once the caller is an administrator and the query succeeds. -/
def adminListed (body : Option Bytes) : Reply :=
  match body with
  | none => textReply "500 Internal Server Error" "response-too-large"
  | some body => ⟨ascii "HTTP/1.1 200 OK\r\n", ascii "Content-Type: application/json\r\n", body⟩

theorem handleAdminList_eq {env : ApiEnv} {req : HttpRequest} {conn conn' : Conn} (hdb : env.db = true)
    (hadmin : isAdminUser conn req = (true, conn')) (hok : conn'.stmt.ok = true) :
    (handleAdminList env req conn).answer = .reply (adminListed
      (if (listText [] ((allVideos conn'.db).map adminColumns)).length ≥ 8192 then none
        else some (listText [] ((allVideos conn'.db).map adminColumns)))) := by
  have hitems : (allVideos conn'.db).map adminListItem = ((allVideos conn'.db).map adminColumns).map rowText := by
    rw [List.map_map]
    exact List.map_congr_left fun row _ => adminListItem_eq row
  have hbuf : listText [] ((allVideos conn'.db).map adminColumns) =
      ascii "\x7b\"items\":[" ++ rowsText [] ((allVideos conn'.db).map adminColumns) ++ ascii "\x7d" := by
    simp [listText, columnsText, ascii]
  have hlist := buildList_listText (show 2 ≤ 8192 by decide) hbuf
  rw [handleAdminList, if_neg (by simp [hdb]), hadmin]
  dsimp only
  rw [Conn.query, dbSelect, if_pos hok]
  dsimp only
  rw [← allVideos, hitems, hlist]
  split_ifs <;> rfl

/-! ### What the client reads -/

/-- Every text and number of the rows is clean. -/
def CleanRows (rows : List Columns) : Prop := ∀ columns ∈ rows, ∀ column ∈ columns, column.2.Clean

theorem fitted_decodes_iff {size : Nat} {text : Bytes} {P : Json → Prop} (h : text ≠ tooLarge) :
    fitted size text = tooLarge ∨ JsonReply (fitted size text) P ↔ size ≤ text.length ∨ JsonReply text P := by
  rw [fitted]
  split_ifs with hlong
  · exact iff_of_true (.inl rfl) (.inl hlong)
  · exact or_congr_left (iff_of_false h hlong)

theorem typed_ne_tooLarge {columns : Columns} {last : Bytes → Bytes} {type : String}
    (htype : (ascii type).take 1 ≠ ascii "e") (hne : ascii type ≠ []) :
    ascii "\x7b" ++ columnsText last [] (("type", .text (ascii type)) :: columns) ≠ tooLarge := by
  intro heq
  have hfirst := congrArg (fun text => (text.drop 9).take 1) heq
  obtain ⟨c, rest, hc⟩ := List.exists_cons_of_ne_nil hne
  have herror : (tooLarge.drop 9).take 1 = ascii "e" := by decide
  have htext : (ascii "\x7b" ++ columnsText last [] (("type", .text (ascii type)) :: columns)).drop 9 =
      ascii type ++ (ascii "\"" ++ columnsText last (ascii ",") columns) := by
    simp [columnsText, Column.print, ascii]
  rw [htext, herror, hc, List.cons_append, List.take_succ_cons, List.take_zero] at hfirst
  rw [hc, List.take_succ_cons, List.take_zero] at htype
  exact htype hfirst

theorem clean_videosTop : ∀ column ∈ videosTop, column.2.Clean := by
  intro column hcolumn
  rw [List.mem_singleton.mp hcolumn]
  exact ⟨"videos".toList, rfl, by decide⟩

theorem clean_continueTop : ∀ column ∈ continueTop, column.2.Clean := by
  intro column hcolumn
  rw [List.mem_singleton.mp hcolumn]
  exact ⟨"continue_videos".toList, rfl, by decide⟩

theorem videos_goodLists (rows : List VideoRow) : GoodLists videosTop (rows.map videoColumns) := by
  refine ⟨by decide, fun columns hcolumns => ?_⟩
  obtain ⟨row, -, rfl⟩ := List.mem_map.mp hcolumns
  rw [show (videoColumns row).map Prod.fst = ["id", "title", "description", "thumbnail_path", "duration"] from rfl]
  decide

theorem continue_goodLists (rows : List (VideoRow × Int)) : GoodLists continueTop (rows.map continueColumns) := by
  refine ⟨by decide, fun columns hcolumns => ?_⟩
  obtain ⟨entry, -, rfl⟩ := List.mem_map.mp hcolumns
  rw [show (continueColumns entry).map Prod.fst =
    ["id", "title", "description", "thumbnail_path", "duration", "position"] from rfl]
  decide

theorem admin_goodLists (rows : List VideoRow) : GoodLists [] (rows.map adminColumns) := by
  refine ⟨by decide, fun columns hcolumns => ?_⟩
  obtain ⟨row, -, rfl⟩ := List.mem_map.mp hcolumns
  rw [show (adminColumns row).map Prod.fst = ["id", "title", "description", "file_path", "thumbnail_path"] from rfl]
  decide

theorem detail_goodKeys (env : TextEnv) (row : VideoRow) : GoodKeys ((detailColumns env row).map Prod.fst) := by
  rw [show (detailColumns env row).map Prod.fst = ["type", "id", "title", "description", "file_path",
    "thumbnail_path", "duration", "upload_date"] from rfl]
  decide

section

variable {env : TextEnv} {conn : Conn}

theorem listVideosReply_decodes_iff (hdb : env.db = true) (hok : conn.stmt.ok = true) :
    (listVideosReply env conn).1 = tooLarge ∨ JsonReply (listVideosReply env conn).1
        (ListOf videosTop ((newestVideos conn.db).map videoColumns)) ↔
      4096 ≤ (listText videosTop ((newestVideos conn.db).map videoColumns)).length ∨
        CleanRows ((newestVideos conn.db).map videoColumns) := by
  rw [listVideosReply_eq hdb hok, fitted_decodes_iff, listText_reply_iff (videos_goodLists _)]
  · exact or_congr_right (and_iff_right clean_videosTop)
  · exact typed_ne_tooLarge (by decide) (by decide)

theorem listContinueReply_decodes_iff {userId : Int} (hdb : env.db = true) (huser : 0 < userId)
    (hok : conn.stmt.ok = true) :
    (listContinueReply env userId conn).1 = tooLarge ∨ JsonReply (listContinueReply env userId conn).1
        (ListOf continueTop ((watchedVideos env.latestFirst conn.db userId).map continueColumns)) ↔
      4096 ≤ (listText continueTop ((watchedVideos env.latestFirst conn.db userId).map continueColumns)).length ∨
        CleanRows ((watchedVideos env.latestFirst conn.db userId).map continueColumns) := by
  rw [listContinueReply_eq hdb huser hok, fitted_decodes_iff, listText_reply_iff (continue_goodLists _)]
  · exact or_congr_right (and_iff_right clean_continueTop)
  · exact typed_ne_tooLarge (by decide) (by decide)

theorem videoDetailReply_decodes_iff {cmd : WsCommand} {row : VideoRow} (hdb : env.db = true)
    (hok : conn.stmt.ok = true) (hrow : conn.db.videos.find? (fun row => row.id = cmd.videoId) = some row)
    (hint : toInt cmd.videoId = cmd.videoId) :
    (videoDetailReply env cmd conn).1 = tooLarge ∨
        JsonReply (videoDetailReply env cmd conn).1 (RowOf (detailColumns env row)) ↔
      1024 ≤ (rowText (detailColumns env row)).length ∨ CleanRows [detailColumns env row] := by
  rw [videoDetailReply_eq hdb hok hrow hint, fitted_decodes_iff, rowText_reply_iff (detail_goodKeys env row),
    CleanRows, List.forall_mem_singleton]
  exact typed_ne_tooLarge (by decide) (by decide)

theorem handleAdminList_decodes_iff {api : ApiEnv} {req : HttpRequest} {conn' : Conn} (hdb : api.db = true)
    (hadmin : isAdminUser conn req = (true, conn')) (hok : conn'.stmt.ok = true) :
    ((handleAdminList api req conn).answer = .reply (adminListed none) ∨
        ∃ body, (handleAdminList api req conn).answer = .reply (adminListed (some body)) ∧
          JsonReply body (ListOf [] ((allVideos conn'.db).map adminColumns))) ↔
      8192 ≤ (listText [] ((allVideos conn'.db).map adminColumns)).length ∨
        CleanRows ((allVideos conn'.db).map adminColumns) := by
  have hclean := listText_reply_iff (admin_goodLists (allVideos conn'.db))
  rw [handleAdminList_eq hdb hadmin hok]
  split_ifs with hlong
  · exact iff_of_true (.inl rfl) (.inl hlong)
  · have hstatus : ascii "HTTP/1.1 200 OK\r\n" ≠ (adminListed none).statusLine := by decide
    have hne : ∀ body, adminListed (some body) ≠ adminListed none := fun body heq =>
      hstatus (congrArg Reply.statusLine heq)
    constructor
    · rintro (htooLarge | ⟨body, hbody, hreply⟩)
      · exact absurd (Answer.reply.inj htooLarge) (hne _)
      · have hlist : listText [] ((allVideos conn'.db).map adminColumns) = body :=
          congrArg Reply.body (Answer.reply.inj hbody)
        rw [← hlist] at hreply
        exact .inr (hclean.mp hreply).2
    · rintro (hlength | hrows)
      · exact absurd hlength hlong
      · exact .inr ⟨_, rfl, hclean.mpr ⟨List.forall_mem_nil _, hrows⟩⟩

end

/-- A list reply is the error, or JSON with exactly what the selected rows hold, when the text does not fit
its buffer or every selected text and number is clean. -/
theorem lists_decode_iff (env : TextEnv) (text : Bytes) (cmd : WsCommand) (userId : Int) (conn : Conn)
    (api : ApiEnv) (req : HttpRequest) (apiConn adminConn : Conn) :
    (env.db = true → conn.stmt.ok = true → parseCommand text = some cmd →
      (cmd.type = .listVideos →
        ((commandReply env cmd userId conn).1 = tooLarge ∨ JsonReply (commandReply env cmd userId conn).1
            (ListOf videosTop ((newestVideos conn.db).map videoColumns)) ↔
          4096 ≤ (listText videosTop ((newestVideos conn.db).map videoColumns)).length ∨
            CleanRows ((newestVideos conn.db).map videoColumns))) ∧
      (cmd.type = .listContinue → 0 < userId →
        ((commandReply env cmd userId conn).1 = tooLarge ∨ JsonReply (commandReply env cmd userId conn).1
            (ListOf continueTop ((watchedVideos env.latestFirst conn.db userId).map continueColumns)) ↔
          4096 ≤ (listText continueTop ((watchedVideos env.latestFirst conn.db userId).map continueColumns)).length ∨
            CleanRows ((watchedVideos env.latestFirst conn.db userId).map continueColumns))) ∧
      (cmd.type = .videoDetail → ∀ row, conn.db.videos.find? (fun row => row.id = cmd.videoId) = some row →
        ((commandReply env cmd userId conn).1 = tooLarge ∨
            JsonReply (commandReply env cmd userId conn).1 (RowOf (detailColumns env row)) ↔
          1024 ≤ (rowText (detailColumns env row)).length ∨ CleanRows [detailColumns env row]))) ∧
    (api.db = true → isAdminUser apiConn req = (true, adminConn) → adminConn.stmt.ok = true →
      (((handleAdminList api req apiConn).answer = .reply (adminListed none) ∨
          ∃ body, (handleAdminList api req apiConn).answer = .reply (adminListed (some body)) ∧
            JsonReply body (ListOf [] ((allVideos adminConn.db).map adminColumns))) ↔
        8192 ≤ (listText [] ((allVideos adminConn.db).map adminColumns)).length ∨
          CleanRows ((allVideos adminConn.db).map adminColumns))) := by
  refine ⟨fun hdb hok hparse => ⟨fun htype => ?_, fun htype huser => ?_, fun htype row hrow => ?_⟩,
    fun hdb hadmin hok => ?_⟩
  · rw [commandReply, htype]
    exact listVideosReply_decodes_iff hdb hok
  · rw [commandReply, htype]
    exact listContinueReply_decodes_iff hdb huser hok
  · rw [commandReply, htype]
    exact videoDetailReply_decodes_iff hdb hok hrow (parseCommand_videoId hparse)
  · exact handleAdminList_decodes_iff hdb hadmin hok

/-- An administrator with the session `s`, who has watched the one video. -/
def sampleLists : Conn :=
  ⟨⟨[⟨1, ascii "root", ascii "Root", ascii "hash", .admin⟩], [⟨1, ascii "s", 100⟩],
    [⟨1, ascii "Intro", none, ascii "1.mp4", none, none, 60, 0⟩], [⟨1, 1, 30, 0⟩], 1, 1, 1⟩, 0, fun _ => true, 0⟩

def sampleVideo : VideoRow := ⟨1, ascii "Intro", none, ascii "1.mp4", none, none, 60, 0⟩

theorem clean_sampleVideo : (∀ column ∈ videoColumns sampleVideo, column.2.Clean) ∧
    (∀ column ∈ adminColumns sampleVideo, column.2.Clean) ∧
      ∀ column ∈ detailColumns { sampleTextEnv with db := true } sampleVideo, column.2.Clean := by
  have htitle : (Column.text (ascii "Intro")).Clean := ⟨"Intro".toList, rfl, by decide⟩
  have hfile : (Column.text (ascii "1.mp4")).Clean := ⟨"1.mp4".toList, rfl, by decide⟩
  have htype : (Column.text (ascii "video_detail")).Clean := ⟨"video_detail".toList, rfl, by decide⟩
  have hempty : (Column.text []).Clean := ⟨[], rfl, List.forall_mem_nil _⟩
  have hid : (Column.number 1).Clean := by rw [Column.Clean]; decide
  have hduration : (Column.number 60).Clean := by rw [Column.Clean]; decide
  simp only [videoColumns, adminColumns, detailColumns, List.forall_mem_cons]
  exact ⟨⟨hid, htitle, hempty, hempty, hduration, List.forall_mem_nil _⟩,
    ⟨hid, htitle, hempty, hfile, hempty, List.forall_mem_nil _⟩,
    htype, hid, htitle, hempty, hfile, hempty, hduration, hempty, List.forall_mem_nil _⟩

/-- The replies with the one video. -/
theorem lists_decode_iff_sample :
    let env : TextEnv := { sampleTextEnv with db := true }
    let videos := (commandReply env (.ofType .listVideos) 1 sampleLists).1
    let continued := (commandReply env (.ofType .listContinue) 1 sampleLists).1
    let detail := (commandReply env { WsCommand.ofType .videoDetail with videoId := 1 } 1 sampleLists).1
    let req : HttpRequest := ⟨ascii "GET", ascii "/admin/video/list", ascii "HTTP/1.1",
      [(ascii "authorization", ascii "Bearer s")]⟩
    (videos = tooLarge ∨ JsonReply videos (ListOf videosTop [videoColumns sampleVideo])) ∧
      (continued = tooLarge ∨ JsonReply continued (ListOf continueTop [continueColumns (sampleVideo, 30)])) ∧
      (detail = tooLarge ∨ JsonReply detail (RowOf (detailColumns env sampleVideo))) ∧
      ((handleAdminList sampleApiEnv req sampleLists).answer = .reply (adminListed none) ∨
        ∃ body, (handleAdminList sampleApiEnv req sampleLists).answer = .reply (adminListed (some body)) ∧
          JsonReply body (ListOf [] [adminColumns sampleVideo])) := by
  intro env videos continued detail req
  obtain ⟨hclean, hadminClean, hdetailClean⟩ := clean_sampleVideo
  have hall : allVideos sampleLists.db = [sampleVideo] := by
    rw [allVideos, sampleLists, List.mergeSort_singleton, sampleVideo]
  have hvideos := ((lists_decode_iff env (ascii "\x7b\"type\":\"list_videos\"\x7d") (.ofType .listVideos) 1
    sampleLists sampleApiEnv req sampleLists sampleLists).1 rfl rfl (by decide)).1 rfl
  have hcontinue := ((lists_decode_iff env (ascii "\x7b\"type\":\"list_continue\"\x7d") (.ofType .listContinue) 1
    sampleLists sampleApiEnv req sampleLists sampleLists).1 rfl rfl (by decide)).2.1 rfl (by decide)
  have hwatched : watchedVideos env.latestFirst sampleLists.db 1 = [(sampleVideo, 30)] := by
    have hstarted : startedVideos sampleLists.db 1 = [(sampleVideo, ⟨1, 1, 30, 0⟩)] := rfl
    rw [watchedVideos, hstarted, List.perm_singleton.mp (env.latestFirst.perm _)]
    rfl
  have hcontinueClean : ∀ column ∈ continueColumns (sampleVideo, 30), column.2.Clean := by
    rw [continueColumns, List.forall_mem_append, List.forall_mem_singleton]
    exact ⟨hclean, by rw [Column.Clean]; decide⟩
  have hdetail := ((lists_decode_iff env (ascii "\x7b\"type\":\"video_detail\",\"video_id\":1\x7d")
    { WsCommand.ofType .videoDetail with videoId := 1 } 1 sampleLists sampleApiEnv req sampleLists
    sampleLists).1 rfl rfl (by decide)).2.2 rfl sampleVideo rfl
  have hadmin := (lists_decode_iff env [] (.ofType .listVideos) 1 sampleLists sampleApiEnv req sampleLists
    (isAdminUser sampleLists req).2).2 rfl rfl rfl
  have hadminAll : allVideos (isAdminUser sampleLists req).2.db = [sampleVideo] := by
    rw [allVideos, show (isAdminUser sampleLists req).2.db.videos = [sampleVideo] from rfl,
      List.mergeSort_singleton]
  rw [newestVideos, hall] at hvideos
  rw [hadminAll] at hadmin
  rw [hwatched] at hcontinue
  exact ⟨hvideos.mpr (.inr (List.forall_mem_singleton.mpr hclean)),
    hcontinue.mpr (.inr (List.forall_mem_singleton.mpr hcontinueClean)),
    hdetail.mpr (.inr (List.forall_mem_singleton.mpr hdetailClean)),
    hadmin.mpr (.inr (List.forall_mem_singleton.mpr hadminClean))⟩

/-- The database before its first row. -/
def emptyDatabase : Database := ⟨[], [], [], [], 0, 0, 0⟩

/-- A quote in a title ends the string it is printed in. -/
theorem quoted_title_not_decoded :
    ¬ ∀ (env : TextEnv) (text : Bytes) (cmd : WsCommand) (userId : Int) (conn : Conn) (title : Bytes), env.db = true →
      conn.stmt.ok = true → parseCommand text = some cmd → cmd.type = .listVideos →
      dbCreateVideo emptyDatabase conn.stmt title none (ascii "1.mp4") none none 60 = .ok (1, conn.db) →
      (commandReply env cmd userId conn).1 = tooLarge ∨ JsonReply (commandReply env cmd userId conn).1
        (ListOf videosTop ((newestVideos conn.db).map videoColumns)) := by
  intro h
  let row : VideoRow := ⟨1, ascii "a\"b", none, ascii "1.mp4", none, none, 60, 0⟩
  let conn : Conn := ⟨⟨[], [], [row], [], 0, 1, 1⟩, 0, fun _ => true, 0⟩
  let env : TextEnv := { sampleTextEnv with db := true }
  have hreply := h env (ascii "\x7b\"type\":\"list_videos\"\x7d") (.ofType .listVideos) 1 conn (ascii "a\"b")
    rfl rfl (by decide) rfl rfl
  rw [commandReply, WsCommand.ofType] at hreply
  dsimp only at hreply
  rw [listVideosReply_decodes_iff rfl rfl] at hreply
  have hrows : newestVideos conn.db = [row] := by
    rw [newestVideos, allVideos, show conn.db.videos = [row] from rfl, List.mergeSort_singleton]
    rfl
  rw [hrows] at hreply
  obtain hlong | hclean := hreply
  · exact absurd hlong (by decide)
  · have htitle : ("title", Column.text (ascii "a\"b")) ∈ videoColumns row := List.mem_cons_of_mem _ List.mem_cons_self
    obtain ⟨s, hs, hplain⟩ := hclean _ (List.mem_singleton.mpr rfl) _ htitle
    have hbytes : ascii "a\"b" = Utf8.encode "a\"b".toList := by decide
    rw [hbytes] at hs
    rw [Utf8.encode_injective hs] at hplain
    exact absurd (hplain '"' (by decide)) (by decide)

end OttQuic
