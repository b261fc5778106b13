import OttQuic.Http.Admin
import OttQuic.Http.Catalogue
import OttQuic.Lib.Pathname
import OttQuic.WebSocket.HandleClient

/-!
# The file of an uploaded video

`handle_upload_request` stores the path it has written, which begins at the working directory. `stream_start` and
`stream_chunk` take a stored path for one below `data/videos`, and so look for `data/videos/data/videos/…`;
`handle_admin_delete` takes it as it is. What a consumer opens is said by what it answers: its reply depends on the file
at one path (`streamStartOpens_iff`, `streamChunkOpens_iff`). `uploaded_never_found` says that
there is no upload whose file all three find.
-/

namespace OttQuic

open CString Db Http WebSocket Pathname

/-! ### What the consumers open -/

/-- `stream_start` finds a file for the row just when there is one at the path. -/
def StreamStartOpens (row : VideoRow) (path : Bytes) : Prop :=
  ∀ (env : TextEnv) (cmd : WsCommand) (conn : Conn), env.db = true → OfFile env.fileSize →
    dbGetVideoById conn.db conn.stmt cmd.videoId = .ok row.read →
      ((streamStartReply env cmd conn).1 = errorResponse "not_found" "file-missing" ↔ env.fileSize path = none)

/-- `stream_chunk` sends a chunk for the row just when the file at the path gives one. -/
def StreamChunkOpens (row : VideoRow) (path : Bytes) : Prop :=
  ∀ (env : TextEnv) (cmd : WsCommand) (conn : Conn), env.db = true → OfFile (env.sendVideoChunk · cmd) →
    dbGetVideoById conn.db conn.stmt cmd.videoId = .ok row.read →
      ((streamChunkReply env cmd conn).1 = errorResponse "stream_failed" "chunk-send-failed" ↔
        env.sendVideoChunk path cmd = false)

/-- `handle_admin_delete` unlinks the file at the path, for every request that deletes the row. -/
def AdminDeleteUnlinks (row : VideoRow) (path : Bytes) : Prop :=
  ∀ (env : ApiEnv) (req : HttpRequest) (conn conn' : Conn) (memory : Bytes) (videoId : Int), env.db = true →
    isAdminUser conn req = (true, conn') → (jsonExtractIntField (ofMemory memory) "video_id").getD 0 = videoId →
      0 < videoId → dbGetVideoById conn'.db conn'.stmt videoId = .ok row.read →
        ∃ other, SamePlace other path ∧ FileOp.unlink other ∈ (handleAdminDelete env req conn memory).files

/-- All consumers find the file that the upload wrote. -/
def FoundByConsumers (result : UploadResult) (row : VideoRow) : Prop :=
  ∃ path data, FileOp.write path data true ∈ result.files ∧ StreamStartOpens row path ∧ StreamChunkOpens row path ∧
    AdminDeleteUnlinks row path

variable {row : VideoRow} {path : Bytes}

theorem exists_conn (row : VideoRow) :
    ∃ conn : Conn, dbGetVideoById conn.db conn.stmt row.id = .ok row.read :=
  ⟨⟨⟨[], [], [row], [], 0, 0, 0⟩, 0, fun _ => true, 0⟩, by simp [dbGetVideoById, Conn.stmt]⟩

theorem getElem?_front {s t : Bytes} {i : Nat} {c : UInt8} (h : s[i]? = some c) : (s ++ t)[i]? = some c := by
  obtain ⟨hlt, -⟩ := List.getElem?_eq_some_iff.mp h
  rw [List.getElem?_append_left hlt, h]

theorem fitted_ne_error {size : Nat} {text : Bytes} {status message : String} (htext : text[9]? = some 115)
    (hother : tooLarge ≠ errorResponse status message) (herror : (errorResponse status message)[9]? = some 101) :
    fitted size text ≠ errorResponse status message := by
  rw [fitted]
  split_ifs
  · exact hother
  · rintro rfl
    exact absurd (htext.symm.trans herror) (by decide)

theorem streamStartOpens_iff : StreamStartOpens row path ↔ SamePlace (videoPath row.read) path := by
  constructor
  · intro h
    obtain ⟨conn, hget⟩ := exists_conn row
    -- there is the file at `path` only
    let size (there : Bool) : Option Nat := if there then some 0 else none
    let env : TextEnv := { sampleTextEnv with db := true, fileSize := fun q => size (decide (SamePlace q path)) }
    have hreply := h env { WsCommand.ofType .streamStart with videoId := row.id } conn rfl
      (ofFile_samePlace size path) hget
    by_contra hother
    have hmissing : env.fileSize (videoPath row.read) = none := by simp [env, size, hother]
    rw [streamStartReply, if_neg (by simp [env]), Conn.query, hget] at hreply
    dsimp only at hreply
    rw [hmissing] at hreply
    have hnone := hreply.mp rfl
    simp [env, size, SamePlace.refl] at hnone
  · intro hsame env cmd conn hdb hfile hget
    rw [streamStartReply, if_neg (by simp [hdb]), Conn.query, hget]
    dsimp only
    rw [hfile _ _ hsame]
    cases env.fileSize path with
    | none => exact iff_of_true rfl rfl
    | some size =>
        dsimp only
        refine iff_of_false (fitted_ne_error ?_ (by decide +kernel) (by decide +kernel)) (by simp)
        iterate 12 apply getElem?_front
        decide +kernel

theorem streamChunkOpens_iff : StreamChunkOpens row path ↔ SamePlace (videoPath row.read) path := by
  constructor
  · intro h
    obtain ⟨conn, hget⟩ := exists_conn row
    let env : TextEnv := { sampleTextEnv with db := true, sendVideoChunk := fun q _ => decide (SamePlace q path) }
    have hreply := h env { WsCommand.ofType .streamChunk with videoId := row.id } conn rfl
      (ofFile_samePlace id path) hget
    by_contra hother
    have hfails : env.sendVideoChunk (videoPath row.read) { WsCommand.ofType .streamChunk with videoId := row.id } =
        false := by
      simp [env, hother]
    rw [streamChunkReply, if_neg (by simp [env]), Conn.query, hget] at hreply
    dsimp only at hreply
    rw [hfails, if_neg (by simp)] at hreply
    have hnone := hreply.mp rfl
    simp [env, SamePlace.refl] at hnone
  · intro hsame env cmd conn hdb hfile hget
    have hpath : env.sendVideoChunk (videoPath row.read) cmd = env.sendVideoChunk path cmd := hfile _ _ hsame
    rw [streamChunkReply, if_neg (by simp [hdb]), Conn.query, hget]
    dsimp only
    rw [hpath]
    cases env.sendVideoChunk path cmd with
    | false => exact iff_of_true rfl rfl
    | true =>
        rw [if_pos rfl]
        dsimp only
        refine iff_of_false (fitted_ne_error ?_ (by decide +kernel) (by decide +kernel)) (by simp)
        iterate 4 apply getElem?_front
        decide +kernel

theorem adminDeleteUnlinks_of_samePlace (hne : row.read.filePath ≠ []) (hsame : SamePlace row.read.filePath path) :
    AdminDeleteUnlinks row path := by
  intro env req conn conn' memory videoId hdb hadmin hid hpos hget
  refine ⟨row.read.filePath, hsame, ?_⟩
  have hnonpos : ¬ videoId ≤ 0 := by omega
  simp only [handleAdminDelete, hdb, hadmin, hid, if_neg hnonpos, Conn.query, hget]
  apply List.mem_append_left
  apply List.mem_map_of_mem
  exact List.mem_filter.mpr ⟨List.mem_cons_self, decide_eq_true hne⟩

/-! ### The row of an upload -/

/-- Every row was there before, perhaps with another title, description or directory of segments. -/
def RowsFrom (db db' : Database) : Prop :=
  ∀ row ∈ db'.videos, ∃ old ∈ db.videos, old.id = row.id ∧ old.filePath = row.filePath

theorem RowsFrom.refl (db : Database) : RowsFrom db db := fun row hrow => ⟨row, hrow, rfl, rfl⟩

theorem rowsFrom_delete {db db' : Database} {stmt : Stmt} {videoId : Int}
    (h : dbDeleteVideoById db stmt videoId = .ok db') : RowsFrom db db' := by
  intro row hrow
  rw [(dbDeleteVideoById_videos h).1] at hrow
  exact ⟨row, List.mem_of_mem_filter hrow, rfl, rfl⟩

theorem rowsFrom_segmentPath {db db' : Database} {stmt : Stmt} {videoId : Int} {dir : Bytes}
    (h : dbUpdateVideoSegmentPath db stmt videoId dir = .ok db') : RowsFrom db db' := by
  intro row hrow
  rw [dbUpdateVideoSegmentPath_ok h] at hrow
  obtain ⟨old, hold, rfl⟩ := List.mem_map.mp hrow
  refine ⟨old, hold, ?_⟩
  split_ifs
  · exact ⟨rfl, rfl⟩
  · exact ⟨rfl, rfl⟩

theorem rowsFrom_exec (conn : Conn) {f : Database → Stmt → Except Rc Database}
    (hf : ∀ db', f conn.db conn.stmt = .ok db' → RowsFrom conn.db db') : RowsFrom conn.db (conn.exec f).2.db := by
  rw [Conn.exec]
  cases hrun : f conn.db conn.stmt with
  | error rc => exact RowsFrom.refl _
  | ok db' => exact hf db' hrun

theorem filePath_of_inserted {conn : Conn} {db₁ db' : Database} {u : Upload} {id duration : Int}
    (hcreate : dbCreateVideo conn.db conn.stmt u.title (some u.description) u.videoPath (some u.thumbPath) none duration =
      .ok (id, db₁)) (hfrom : RowsFrom db₁ db') (hrow : row ∈ db'.videos)
    (hnew : ∀ other ∈ conn.db.videos, other.id ≠ row.id) :
    row.filePath = u.videoPath := by
  obtain ⟨old, hold, hid, hpath⟩ := hfrom row hrow
  obtain ⟨-, hdb₁⟩ := dbCreateVideo_row hcreate
  rw [hdb₁] at hold
  rcases List.mem_append.mp hold with hold | hold
  · exact absurd hid (hnew old hold)
  · rw [← hpath, List.mem_singleton.mp hold]

/-- What an upload that has made the row has written. -/
structure UploadWrote (u : Upload) (files : List FileOp) : Prop where
  wrote : .write u.videoPath u.data true ∈ files
  only : ∀ path data ok, .write path data ok ∈ files → path = u.videoPath

theorem uploadWrote (u : Upload) (videoId rc : Int) (paths : List Bytes) :
    UploadWrote u ([.write u.videoPath u.data true, .thumbnail u.videoPath u.thumbPath] ++
      [.segment videoId u.videoPath rc] ++
      paths.map FileOp.unlink) := by
  constructor
  · simp
  · intro path data ok hmem
    simp at hmem
    exact hmem.1

theorem storeUpload_row {env : UploadEnv} {conn : Conn} {u : Upload} (htime : env.time = u.time.toInt)
    (hrow : row ∈ (storeUpload env conn u.multipart).conn.db.videos)
    (hnew : ∀ other ∈ conn.db.videos, other.id ≠ row.id) :
    row.filePath = u.videoPath ∧ UploadWrote u (storeUpload env conn u.multipart).files := by
  rw [storeUpload_eq env conn u htime] at hrow ⊢
  by_cases hdirs : env.dirs = false
  · rw [if_pos hdirs] at hrow
    exact absurd rfl (hnew row hrow)
  by_cases hwritten : env.writeOk = false
  · rw [if_neg hdirs, if_pos hwritten] at hrow
    exact absurd rfl (hnew row hrow)
  rw [if_neg hdirs, if_neg hwritten, Conn.insert] at hrow ⊢
  rw [Bool.not_eq_false] at hwritten
  cases hcreate : dbCreateVideo conn.db conn.stmt u.title (some u.description) u.videoPath (some u.thumbPath) none
      env.duration with
  | error rc =>
      rw [hcreate] at hrow
      exact absurd rfl (hnew row hrow)
  | ok created =>
      obtain ⟨id, db₁⟩ := created
      rw [hcreate] at hrow
      rw [hwritten] at hrow ⊢
      by_cases hscript : env.segmentRc ≠ 0
      · have hfrom : RowsFrom db₁ ((conn.next db₁).exec fun db stmt => dbDeleteVideoById db stmt id).2.db :=
          rowsFrom_exec (conn.next db₁) fun _ => rowsFrom_delete
        dsimp only at hrow ⊢
        rw [if_pos hscript] at hrow ⊢
        exact ⟨filePath_of_inserted hcreate hfrom hrow hnew, uploadWrote u id env.segmentRc [u.videoPath, u.thumbPath]⟩
      · have hfrom : RowsFrom db₁
            ((conn.next db₁).exec fun db stmt => dbUpdateVideoSegmentPath db stmt id (Http.segmentDir id)).2.db :=
          rowsFrom_exec (conn.next db₁) fun _ => rowsFrom_segmentPath
        dsimp only at hrow ⊢
        rw [if_neg hscript] at hrow ⊢
        exact ⟨filePath_of_inserted hcreate hfrom hrow hnew, uploadWrote u id env.segmentRc []⟩

theorem handleUploadRequest_row {env : UploadEnv} {time : Int64} {conn : Conn} {contentType body : Bytes}
    (htime : env.time = time.toInt) (hrow : row ∈ (handleUploadRequest env conn contentType body).conn.db.videos)
    (hnew : ∀ other ∈ conn.db.videos, other.id ≠ row.id) :
    ∃ u : Upload, row.filePath = u.videoPath ∧ UploadWrote u (handleUploadRequest env conn contentType body).files := by
  have hkept {files : List FileOp} {response : Bytes} (h : row ∈ (UploadResult.mk response conn files).conn.db.videos) :
      False := hnew row h rfl
  rw [handleUploadRequest] at hrow ⊢
  by_cases hempty : body = []
  · rw [if_pos hempty] at hrow
    exact (hkept hrow).elim
  by_cases hlong : body.length > maxUploadBytes
  · rw [if_neg hempty, if_pos hlong] at hrow
    exact (hkept hrow).elim
  rw [if_neg hempty, if_neg hlong] at hrow ⊢
  cases hboundary : uploadBoundary contentType with
  | multipartRequired =>
      rw [hboundary] at hrow
      exact (hkept hrow).elim
  | invalid =>
      rw [hboundary] at hrow
      exact (hkept hrow).elim
  | found boundary =>
      rw [hboundary] at hrow
      dsimp only at hrow ⊢
      cases hparse : parseMultipart env.malloc body boundary 128 256 with
      | none =>
          rw [hparse] at hrow
          exact (hkept hrow).elim
      | some m =>
          rw [hparse] at hrow
          have hwrote : ∀ u : Upload, u = ⟨m, time⟩ → row.filePath = u.videoPath ∧
              UploadWrote u (storeUpload env conn u.multipart).files := by
            rintro u rfl
            exact storeUpload_row htime hrow hnew
          exact ⟨⟨m, time⟩, hwrote _ rfl⟩

/-! ### The consumers of an uploaded video -/

theorem read_filePath {u : Upload} (h : row.filePath = u.videoPath) : row.read.filePath = u.videoPath := by
  have hlength := videoPath_length u
  change copyColumnText row.filePath dbMaxPath = u.videoPath
  rw [h, copyColumnText, List.take_of_length_le (by omega)]

theorem videoPath_uploaded {u : Upload} (h : row.filePath = u.videoPath) :
    WebSocket.videoPath row.read = ascii "data/videos" ++ 47 :: u.videoPath := by
  have hrelative : ¬ u.videoPath.head? = some 47 := by
    rw [Upload.videoPath, List.append_assoc, List.head?_append_of_ne_nil _ (by decide)]
    decide
  have hlength : u.videoPath.length < 260 := videoPath_length u
  have hdir : ascii "data/videos/" = ascii "data/videos" ++ [47] := by decide
  have hdirLength : (ascii "data/videos/").length = 12 := rfl
  rw [WebSocket.videoPath, read_filePath h, if_neg hrelative, snprintf, List.take_of_length_le, hdir, List.append_assoc,
    List.singleton_append]
  rw [List.length_append, hdirLength]
  omega

theorem uploaded_not_streamed {u : Upload} (h : row.filePath = u.videoPath) :
    ¬ SamePlace (WebSocket.videoPath row.read) u.videoPath := by
  rw [videoPath_uploaded h]
  exact not_samePlace_below (by decide)

theorem uploaded_unlinked {u : Upload} (h : row.filePath = u.videoPath) : AdminDeleteUnlinks row u.videoPath := by
  have hread := read_filePath h
  apply adminDeleteUnlinks_of_samePlace
  · rw [hread, Upload.videoPath]
    exact List.append_ne_nil_of_right_ne_nil _ (by decide)
  · rw [hread]
    exact SamePlace.refl _

/-- **No upload is found by all consumers**: the streams look for every row it makes where it has written nothing. -/
theorem uploaded_never_found (env : UploadEnv) (time : Int64) (conn : Conn) (contentType body : Bytes) (row : VideoRow)
    (htime : env.time = time.toInt) (hrow : row ∈ (handleUploadRequest env conn contentType body).conn.db.videos)
    (hnew : ∀ other ∈ conn.db.videos, other.id ≠ row.id) :
    ¬ FoundByConsumers (handleUploadRequest env conn contentType body) row := by
  obtain ⟨u, hpath, hwrote⟩ := handleUploadRequest_row htime hrow hnew
  rintro ⟨path, data, hwritten, hstart, -, -⟩
  rw [hwrote.only path data true hwritten] at hstart
  exact uploaded_not_streamed hpath (streamStartOpens_iff.mp hstart)

/-- An upload of one byte. -/
def sampleUpload : Bytes × Bytes :=
  (ascii "multipart/form-data; boundary=xx",
    ascii "--xx\r\nContent-Disposition: form-data; name=\"f\"; filename=\"a\"\r\n\r\nA\r\n--xx--")

def sampleUploadedRow : VideoRow :=
  ⟨1, ascii "video_1", some (ascii "uploaded"), ascii "data/videos/video_1.mp4", some (ascii "data/thumbs/video_1.jpg"),
    some (ascii "data/segments/1"), 0, 0⟩

theorem sampleUpload_row : sampleUploadedRow ∈
    (handleUploadRequest sampleApiEnv.upload emptyConn sampleUpload.1 sampleUpload.2).conn.db.videos := by
  decide +kernel

theorem uploaded_never_found_sample :
    ¬ FoundByConsumers (handleUploadRequest sampleApiEnv.upload emptyConn sampleUpload.1 sampleUpload.2) sampleUploadedRow :=
  uploaded_never_found sampleApiEnv.upload 1 emptyConn sampleUpload.1 sampleUpload.2 sampleUploadedRow rfl sampleUpload_row
    (List.forall_mem_nil _)

/-- `data/videos/video_1.mp4` is written, and `data/videos/data/videos/video_1.mp4` is opened. -/
theorem uploaded_found_refuted :
    ¬ ∀ (env : UploadEnv) (time : Int64) (conn : Conn) (contentType body : Bytes) (row : VideoRow),
      env.time = time.toInt → row ∈ (handleUploadRequest env conn contentType body).conn.db.videos →
        (∀ other ∈ conn.db.videos, other.id ≠ row.id) →
          FoundByConsumers (handleUploadRequest env conn contentType body) row := by
  intro h
  obtain ⟨path, data, hwritten, hstart, -, -⟩ := h sampleApiEnv.upload 1 emptyConn sampleUpload.1 sampleUpload.2
    sampleUploadedRow rfl sampleUpload_row (List.forall_mem_nil _)
  have hpath : path = ascii "data/videos/video_1.mp4" := by
    have hfiles : (handleUploadRequest sampleApiEnv.upload emptyConn sampleUpload.1 sampleUpload.2).files =
        [.write (ascii "data/videos/video_1.mp4") (ascii "A") true,
          .thumbnail (ascii "data/videos/video_1.mp4") (ascii "data/thumbs/video_1.jpg"),
          .segment 1 (ascii "data/videos/video_1.mp4") 0] := by
      decide +kernel
    rw [hfiles] at hwritten
    simp at hwritten
    exact hwritten.1
  have hsame := streamStartOpens_iff.mp hstart
  rw [hpath] at hsame
  exact absurd hsame (by decide +kernel)

end OttQuic
