import OttQuic.Http.Api
import OttQuic.Lib.Custody
import OttQuic.Lib.Transition

/-!
# The catalogue and the files of the videos

Any number of `handle_upload_request` and `handle_admin_delete` executions, each its own thread, interleaved
between their statements, file operations and programs. An upload names its file by the second of
`time(NULL)`, so two uploads may use one name; it learns the id of its row from the connection, which all
threads share; and neither handler looks at the result of its `DELETE`.

`Exclusive` is the condition under which this does no harm: a file is written at a path that no row names
and no other thread will still use, and a row is gone before its file is. Then every row names a file with
the bytes uploaded for it (`catalogue_consistent`). The argument is the one about custody: an upload owns
the path it has written, keeps the row it has inserted, and removes the file of a row that is gone.
-/

namespace OttQuic.Http

open CString Db Transition

abbrev Files := Bytes → Option Bytes

/-- What one step meets outside. -/
structure Outside where
  /-- The statement or the removal succeeds. -/
  ok : Bool
  now : Int
  /-- `time(NULL)`. -/
  time : Int64
  /-- `(int)duration`. -/
  duration : Int
  /-- What the segment script returns. -/
  rc : Int
  /-- `fopen` for writing: what the file holds after `fclose`, whose result is not looked at, and whether `fwrite` has
  returned `len`. -/
  write : Option (Bytes × Bool)
  /-- What the programs leave where they write. -/
  made : Files

/-- `write_file` returns `0`. -/
def Outside.wrote (o : Outside) : Bool := (o.write.map Prod.snd).getD false

/-! ### Names -/

abbrev videosDir : Bytes := ascii "data/videos/"
abbrev thumbsDir : Bytes := ascii "data/thumbs/"
abbrev segmentsDir : Bytes := ascii "data/segments/"

/-- The parsed body of an upload, with the second it has read. -/
structure Upload where
  multipart : Multipart
  time : Int64

namespace Upload

variable (u : Upload)

def baseName : Bytes := ascii "video_" ++ decimal u.time.toInt

def videoPath : Bytes := videosDir ++ u.baseName ++ ascii ".mp4"

def thumbPath : Bytes := thumbsDir ++ u.baseName ++ ascii ".jpg"

def title : Bytes :=
  if ofMemory u.multipart.title = [] then u.baseName else ofMemory u.multipart.title

def description : Bytes :=
  if ofMemory u.multipart.description = [] then ascii "uploaded"
  else ofMemory u.multipart.description

def data : Bytes := (u.multipart.file.getD []).take u.multipart.fileLen

end Upload

def segmentDir (videoId : Int) : Bytes := segmentsDir ++ decimal videoId

/-- The path is the directory or lies in it. -/
def InTree (dir path : Bytes) : Prop := path = dir ∨ (dir ++ [47]) <+: path

instance (dir path : Bytes) : Decidable (InTree dir path) := inferInstanceAs (Decidable (_ ∨ _))

/-- The files after an operation. -/
def FileOp.apply (o : Outside) (files : Files) : FileOp → Files
  | .write path _ _ =>
    match o.write with
    | none => files
    | some (content, _) => Function.update files path (some content)
  | .thumbnail _ thumbPath => Function.update files thumbPath (o.made thumbPath)
  | .segment videoId _ _ => fun path =>
    if InTree (segmentDir videoId) path then o.made path else files path
  | .unlink path => if o.ok then Function.update files path none else files
  | .removeTree dir => fun path =>
    if InTree dir path then (if o.ok then none else o.made path) else files path

/-! ### Threads -/

/-- Where a thread is: what it does next. `rowId` is the row the upload has inserted, `videoId` the id it
has read for it. -/
inductive Request where
  | notStarted
  | returned
  | time (m : Multipart)
  | writeFile (u : Upload)
  | thumbnail (u : Upload)
  | createVideo (u : Upload)
  | lastInsertRowid (u : Upload) (rowId : Int)
  | segment (u : Upload) (rowId videoId : Int)
  | rollBack (u : Upload) (rowId videoId : Int)
  | unlinkVideo (u : Upload)
  | unlinkThumb (u : Upload)
  | updateSegmentPath (u : Upload) (videoId : Int)
  | getVideo (videoId : Int)
  | deleteVideo (videoId : Int) (v : DbVideo)
  | unlinkFile (v : DbVideo)
  | unlinkThumbnail (v : DbVideo)
  | removeSegments (v : DbVideo)

/-- The tables, the files, and `sqlite3_last_insert_rowid` of the connection; `uploaded` is what was
uploaded for each row. -/
structure Store where
  db : Database
  files : Files
  lastInsertRowid : Int
  uploaded : Int → Option Bytes

namespace Request

/-- What the next step does to files. -/
def ops (o : Outside) : Request → List FileOp
  | .writeFile u => [.write u.videoPath u.data o.wrote]
  | .thumbnail u => [.thumbnail u.videoPath u.thumbPath]
  | .segment u _ videoId => [.segment videoId u.videoPath o.rc]
  | .unlinkVideo u => [.unlink u.videoPath]
  | .unlinkThumb u => [.unlink u.thumbPath]
  | .unlinkFile v => if v.filePath = [] then [] else [.unlink v.filePath]
  | .unlinkThumbnail v => if v.thumbnailPath = [] then [] else [.unlink v.thumbnailPath]
  | .removeSegments v => if v.segmentPath = [] then [] else [.removeTree v.segmentPath]
  | _ => []

/-- The tables after the next step, and where the thread is then. -/
def next (o : Outside) (store : Store) : Request → Option (Request × Store)
  | .notStarted | .returned => none
  | .time m => some (.writeFile ⟨m, o.time⟩, store)
  | .writeFile u => some (if o.wrote then .thumbnail u else .returned, store)
  | .thumbnail u => some (.createVideo u, store)
  | .createVideo u =>
    match dbCreateVideo store.db ⟨o.ok, o.now⟩ u.title (some u.description) u.videoPath (some u.thumbPath)
      none o.duration with
    | .ok (_, db) =>
      some (.lastInsertRowid u db.videoSeq,
        { store with
          db := db
          lastInsertRowid := db.videoSeq
          uploaded := Function.update store.uploaded db.videoSeq (some u.data) })
    | .error _ => some (.unlinkVideo u, store)
  | .lastInsertRowid u rowId => some (.segment u rowId (toInt store.lastInsertRowid), store)
  | .segment u rowId videoId =>
    some (if o.rc ≠ 0 then .rollBack u rowId videoId else .updateSegmentPath u videoId, store)
  | .rollBack u _ videoId =>
    match dbDeleteVideoById store.db ⟨o.ok, o.now⟩ videoId with
    | .ok db => some (.unlinkVideo u, { store with db := db })
    | .error _ => some (.unlinkVideo u, store)
  | .unlinkVideo u => some (.unlinkThumb u, store)
  | .unlinkThumb _ => some (.returned, store)
  | .updateSegmentPath _ videoId =>
    match dbUpdateVideoSegmentPath store.db ⟨o.ok, o.now⟩ videoId (segmentDir videoId) with
    | .ok db => some (.returned, { store with db := db })
    | .error _ => some (.returned, store)
  | .getVideo videoId =>
    match dbGetVideoById store.db ⟨o.ok, o.now⟩ videoId with
    | .ok v => some (.deleteVideo videoId v, store)
    | .error _ => some (.returned, store)
  | .deleteVideo videoId v =>
    match dbDeleteVideoById store.db ⟨o.ok, o.now⟩ videoId with
    | .ok db => some (.unlinkFile v, { store with db := db })
    | .error _ => some (.unlinkFile v, store)
  | .unlinkFile v => some (.unlinkThumbnail v, store)
  | .unlinkThumbnail v => some (.removeSegments v, store)
  | .removeSegments _ => some (.returned, store)

/-- One step of a thread. -/
def step (o : Outside) (store : Store) (r : Request) : Option (Request × Store) :=
  (r.next o store).map fun (r', store') =>
    (r', { store' with files := (r.ops o).foldl (FileOp.apply o) store.files })

/-- What the thread holds: the path whose file it has written, or may still unlink. -/
def hold : Request → Option (Custody.Hold Int Bytes Bytes)
  | .thumbnail u | .createVideo u => some (.owner u.videoPath u.data)
  | .lastInsertRowid u rowId | .segment u rowId _ | .rollBack u rowId _ => some (.keeper u.videoPath rowId)
  | .unlinkVideo u => some (.remover u.videoPath)
  | .deleteVideo videoId v => some (.keeper v.filePath videoId)
  | .unlinkFile v => some (.remover v.filePath)
  | _ => none

end Request

/-- A thread that nothing interrupts, with what it does to files. -/
def Request.run : List Outside → Request → Store → Option (Request × Store × List FileOp)
  | [], r, store => some (r, store, [])
  | o :: os, r, store =>
    match r.step o store with
    | none => none
    | some (next, store) =>
      (Request.run os next store).map fun (last, store, ops) => (last, store, r.ops o ++ ops)

theorem storeUpload_eq (env : UploadEnv) (conn : Conn) (u : Upload) (htime : env.time = u.time.toInt) :
    storeUpload env conn u.multipart =
      if env.dirs = false then ⟨[], conn, []⟩
      else if env.writeOk = false then ⟨[], conn, [.write u.videoPath u.data env.writeOk]⟩
      else
        let files := [.write u.videoPath u.data env.writeOk, .thumbnail u.videoPath u.thumbPath]
        match conn.insert fun db stmt => dbCreateVideo db stmt u.title (some u.description) u.videoPath
          (some u.thumbPath) none env.duration with
        | (none, conn) => ⟨[], conn, files ++ [.unlink u.videoPath, .unlink u.thumbPath]⟩
        | (some videoId, conn) =>
          let files := files ++ [.segment videoId u.videoPath env.segmentRc]
          if env.segmentRc ≠ 0 then
            ⟨[], (conn.exec fun db stmt => dbDeleteVideoById db stmt videoId).2,
              files ++ [.unlink u.videoPath, .unlink u.thumbPath]⟩
          else
            ⟨uploadReply "HTTP/1.1 200 OK\r\n"
              (ascii "\x7b\"status\":\"ok\",\"video_id\":" ++ decimal videoId ++ ascii "\x7d"),
              (conn.exec fun db stmt => dbUpdateVideoSegmentPath db stmt videoId (segmentDir videoId)).2, files⟩ := by
  unfold storeUpload
  rw [htime]
  rfl

/-- **An upload that is not interrupted takes these steps**: it leaves the tables of `storeUpload`, and
does the same to files. -/
theorem storeUpload_steps (env : UploadEnv) (conn : Conn) (u : Upload) (store : Store)
    (htime : env.time = u.time.toInt) (hdirs : env.dirs = true) (hdb : store.db = conn.db) :
    ∃ os, (Request.run os (.time u.multipart) store).map (fun (r, store, ops) => (r, store.db, ops)) =
      some (.returned, (storeUpload env conn u.multipart).conn.db,
        (storeUpload env conn u.multipart).files) := by
  let o (stmt : Stmt) : Outside :=
    ⟨stmt.ok, stmt.now, u.time, env.duration, env.segmentRc, some (u.data, env.writeOk), fun _ => none⟩
  let done : Stmt := ⟨true, conn.now⟩
  rw [storeUpload_eq env conn u htime, hdirs]
  cases hwrite : env.writeOk with
  | false =>
      refine ⟨[o done, o ⟨false, conn.now⟩], ?_⟩
      simp [Request.run, Request.step, Request.next, Request.ops, Outside.wrote, o, hdb, hwrite]
  | true =>
      cases hcreate : dbCreateVideo conn.db conn.stmt u.title (some u.description) u.videoPath
          (some u.thumbPath) none env.duration with
      | error rc =>
          refine ⟨[o done, o done, o done, o conn.stmt, o done, o done], ?_⟩
          simp [Request.run, Request.step, Request.next, Request.ops, Outside.wrote, o, done, hdb, hwrite, Conn.insert,
            hcreate]
      | ok created =>
          obtain ⟨videoId, db'⟩ := created
          obtain ⟨rfl, hrow⟩ := dbCreateVideo_row hcreate
          have hseq : db'.videoSeq = conn.db.videoSeq + 1 := congrArg Database.videoSeq hrow
          let conn' := conn.next db'
          by_cases hscript : env.segmentRc = 0
          · refine ⟨[o done, o done, o done, o conn.stmt, o done, o done, o conn'.stmt], ?_⟩
            cases hupdate : dbUpdateVideoSegmentPath db' conn'.stmt (toInt (conn.db.videoSeq + 1))
                (segmentDir (toInt (conn.db.videoSeq + 1))) <;>
              simp [Request.run, Request.step, Request.next, Request.ops, Outside.wrote, o, done, hdb, hwrite, Conn.insert,
                Conn.exec, hcreate, hseq, hscript, conn', hupdate]
          · refine ⟨[o done, o done, o done, o conn.stmt, o done, o done, o conn'.stmt, o done, o done], ?_⟩
            cases hdelete : dbDeleteVideoById db' conn'.stmt (toInt (conn.db.videoSeq + 1)) <;>
              simp [Request.run, Request.step, Request.next, Request.ops, Outside.wrote, o, done, hdb, hwrite, Conn.insert,
                Conn.exec, hcreate, hseq, hscript, conn', hdelete]

theorem deletion_ops (v : DbVideo) (o : Outside) :
    (Request.unlinkFile v).ops o ++ ((Request.unlinkThumbnail v).ops o ++ (Request.removeSegments v).ops o) =
      ([v.filePath, v.thumbnailPath].filter fun path => path ≠ []).map FileOp.unlink ++
        ([v.segmentPath].filter fun path => path ≠ []).map FileOp.removeTree := by
  by_cases hfile : v.filePath = [] <;> by_cases hthumb : v.thumbnailPath = [] <;>
    by_cases hsegment : v.segmentPath = [] <;> simp [Request.ops, hfile, hthumb, hsegment]

/-- **A deletion that is not interrupted** takes these steps from its checked request on. -/
theorem handleAdminDelete_steps (env : ApiEnv) (req : HttpRequest) (conn conn₁ : Conn) (memory : Bytes)
    (store : Store) (videoId : Int) (henv : env.db = true) (hadmin : isAdminUser conn req = (true, conn₁))
    (hid : (jsonExtractIntField (ofMemory memory) "video_id").getD 0 = videoId) (hpos : 0 < videoId)
    (hdb : store.db = conn₁.db) :
    ∃ os, (Request.run os (.getVideo videoId) store).map (fun (r, store, ops) => (r, store.db, ops)) =
      some (.returned, (handleAdminDelete env req conn memory).conn.db,
        (handleAdminDelete env req conn memory).files) := by
  let o (stmt : Stmt) : Outside := ⟨stmt.ok, stmt.now, 0, 0, 0, none, fun _ => none⟩
  let conn₂ := conn₁.next conn₁.db
  have hnonpos : ¬ videoId ≤ 0 := by omega
  unfold handleAdminDelete
  simp only [henv, hadmin, hid, if_neg hnonpos, Conn.query]
  cases hget : dbGetVideoById conn₁.db conn₁.stmt videoId with
  | error rc =>
      refine ⟨[o conn₁.stmt], ?_⟩
      simp [Request.run, Request.step, Request.next, Request.ops, o, hdb, hget, ApiResult.ofReply]
  | ok v =>
      refine ⟨[o conn₁.stmt, o conn₂.stmt, o conn₁.stmt, o conn₁.stmt, o conn₁.stmt], ?_⟩
      -- the reads of the row and the DELETE touch no file
      have hops := deletion_ops v (o conn₁.stmt)
      cases hdelete : dbDeleteVideoById conn₁.db conn₂.stmt videoId <;>
        simpa [Request.run, Request.step, Request.next, Request.ops, o, hdb, hget, Conn.exec, conn₂, hdelete]
          using hops

structure Catalogue where
  store : Store
  requests : Nat → Request

inductive CatalogueEvent where
  /-- An upload, from its parsed body on. -/
  | upload (i : Nat) (m : Multipart)
  /-- A deletion, from its checked request on. -/
  | delete (i : Nat) (videoId : Int)
  | step (i : Nat) (o : Outside)
  /-- An `INSERT` into another table on the connection. -/
  | insert (rowid : Int)

namespace Catalogue

def step (s : Catalogue) : CatalogueEvent → Option Catalogue
  | .upload i m =>
    match s.requests i with
    | .notStarted => some { s with requests := Function.update s.requests i (.time m) }
    | _ => none
  | .delete i videoId =>
    match s.requests i with
    | .notStarted => some { s with requests := Function.update s.requests i (.getVideo videoId) }
    | _ => none
  | .step i o =>
    ((s.requests i).step o s.store).map fun (r, store) =>
      { store := store, requests := Function.update s.requests i r }
  | .insert rowid => some { s with store := { s.store with lastInsertRowid := rowid } }

/-- Every row names a file that holds the bytes uploaded for it, and no two rows share a path. -/
structure Consistent (s : Catalogue) : Prop where
  files : ∀ row ∈ s.store.db.videos, ∃ data,
    s.store.uploaded row.id = some data ∧ s.store.files row.filePath = some data
  paths : (s.store.db.videos.map VideoRow.filePath).Nodup

/-- The rows, the files and the holds. -/
def custody (s : Catalogue) : Custody.State Int Bytes Bytes Nat where
  rows := s.store.db.videos.map fun row => (row.id, row.filePath)
  files := s.store.files
  stored := s.store.uploaded
  holds := Request.hold ∘ s.requests

end Catalogue

/-- From an empty `videos` table. -/
def catalogueSystem : System Catalogue CatalogueEvent where
  init s := s.store.db.videos = [] ∧ ∀ i, s.requests i = .notStarted
  step s e t := s.step e = some t

/-- The condition on a step. A file is written, or cut short, only where no row names it and no other thread has
written it or may still unlink it; and a `write_file` that returns `0` leaves all of the data in it. A `DELETE` before an
`unlink` leaves no row of the file to be unlinked: it executes, and with the id of the row the upload has inserted. -/
def Exclusive (s : Catalogue) : CatalogueEvent → Prop
  | .step i o =>
    match s.requests i with
    | .writeFile u =>
      o.write = none ∨
        (Custody.Free s.custody i u.videoPath ∧ ∀ content, o.write = some (content, true) → content = u.data)
    | .rollBack _ rowId videoId =>
      (o.ok = true ∧ videoId = rowId) ∨ ∀ row ∈ s.store.db.videos, row.id ≠ rowId
    | .deleteVideo videoId _ => o.ok = true ∨ ∀ row ∈ s.store.db.videos, row.id ≠ videoId
    | _ => True
  | _ => True

/-! ### Paths -/

theorem not_videosDir {dir path : Bytes} (hdir : dir <+: path) (hne : ¬ videosDir <+: dir)
    (hlength : videosDir.length ≤ dir.length) : ¬ videosDir <+: path := fun h =>
  hne (List.prefix_of_prefix_length_le h hdir hlength)

theorem not_videosDir_of_thumbsDir {path : Bytes} (h : thumbsDir <+: path) : ¬ videosDir <+: path :=
  not_videosDir h (by decide +kernel) (by decide +kernel)

theorem not_videosDir_of_segmentsDir {path : Bytes} (h : segmentsDir <+: path) : ¬ videosDir <+: path :=
  not_videosDir h (by decide +kernel) (by decide +kernel)

theorem segmentsDir_of_inTree {dir path : Bytes} (hdir : segmentsDir <+: dir) (h : InTree dir path) :
    segmentsDir <+: path := by
  rcases h with rfl | h
  · exact hdir
  · exact (hdir.trans (List.prefix_append dir [47])).trans h

theorem videosDir_videoPath (u : Upload) : videosDir <+: u.videoPath := by
  rw [Upload.videoPath, List.append_assoc]
  exact List.prefix_append ..

theorem thumbsDir_thumbPath (u : Upload) : thumbsDir <+: u.thumbPath := by
  rw [Upload.thumbPath, List.append_assoc]
  exact List.prefix_append ..

theorem videoPath_length (u : Upload) : u.videoPath.length < dbMaxPath := by
  have htime := decimal_length (Int64.le_toInt u.time) (Int64.toInt_lt u.time)
  have hvideos : videosDir.length = 12 := rfl
  have hvideo : (ascii "video_").length = 6 := rfl
  have hmp4 : (ascii ".mp4").length = 4 := rfl
  simp only [Upload.videoPath, Upload.baseName, List.length_append, hvideos, hvideo, hmp4, dbMaxPath]
  omega

/-- The paths of a row an upload has inserted. -/
structure RowPaths (row : VideoRow) : Prop where
  file : videosDir <+: row.filePath
  length : row.filePath.length < dbMaxPath
  thumbnail : thumbsDir <+: row.thumbnailPath.getD []
  segments : ∀ path ∈ row.segmentPath, segmentsDir <+: path

/-- The paths of a row that has been read. -/
structure VideoPaths (v : DbVideo) : Prop where
  file : videosDir <+: v.filePath
  thumbnail : thumbsDir <+: v.thumbnailPath
  segments : v.segmentPath ≠ [] → segmentsDir <+: v.segmentPath

theorem RowPaths.read_filePath {row : VideoRow} (h : RowPaths row) : row.read.filePath = row.filePath :=
  List.take_of_length_le (Nat.le_pred_of_lt h.length)

theorem RowPaths.read {row : VideoRow} (h : RowPaths row) : VideoPaths row.read := by
  refine ⟨?_, ?_, fun hne => ?_⟩
  · rw [h.read_filePath]
    exact h.file
  · exact List.prefix_take_iff.mpr ⟨h.thumbnail, by decide +kernel⟩
  · cases hsegment : row.segmentPath with
    | none => simp [VideoRow.read, copyColumnText, hsegment] at hne
    | some path =>
        simp only [VideoRow.read, copyColumnText, hsegment, Option.getD_some]
        exact List.prefix_take_iff.mpr ⟨h.segments path hsegment, by decide +kernel⟩

/-! ### File operations -/

theorem apply_thumbnail {o : Outside} {files : Files} (videoPath : Bytes) {thumbPath path : Bytes}
    (hthumb : thumbsDir <+: thumbPath) (hpath : videosDir <+: path) :
    FileOp.apply o files (.thumbnail videoPath thumbPath) path = files path := by
  refine Function.update_of_ne ?_ _ _
  rintro rfl
  exact not_videosDir_of_thumbsDir hthumb hpath

theorem apply_unlink_thumbnail {o : Outside} {files : Files} {thumbPath path : Bytes}
    (hthumb : thumbsDir <+: thumbPath) (hpath : videosDir <+: path) :
    FileOp.apply o files (.unlink thumbPath) path = files path := by
  unfold FileOp.apply
  split_ifs
  · refine Function.update_of_ne ?_ _ _
    rintro rfl
    exact not_videosDir_of_thumbsDir hthumb hpath
  · rfl

theorem apply_segment {o : Outside} {files : Files} (videoId rc : Int) (videoPath : Bytes) {path : Bytes}
    (hpath : videosDir <+: path) : FileOp.apply o files (.segment videoId videoPath rc) path = files path := by
  refine if_neg fun htree => ?_
  exact not_videosDir_of_segmentsDir (segmentsDir_of_inTree (List.prefix_append ..) htree) hpath

theorem apply_removeTree {o : Outside} {files : Files} {dir path : Bytes} (hdir : segmentsDir <+: dir)
    (hpath : videosDir <+: path) : FileOp.apply o files (.removeTree dir) path = files path := by
  refine if_neg fun htree => ?_
  exact not_videosDir_of_segmentsDir (segmentsDir_of_inTree hdir htree) hpath

/-! ### The invariant -/

/-- The paths of the row that a deletion has read. -/
def Request.Paths : Request → Prop
  | .deleteVideo _ v | .unlinkFile v | .unlinkThumbnail v | .removeSegments v => VideoPaths v
  | _ => True

structure Catalogue.Sound (s : Catalogue) : Prop where
  custody : Custody.Sound s.custody
  ids : ∀ row ∈ s.store.db.videos, row.id ≤ s.store.db.videoSeq
  rows : ∀ row ∈ s.store.db.videos, RowPaths row
  requests : ∀ i, (s.requests i).Paths

variable {s t : Catalogue} {i : Nat} {o : Outside} {r : Request} {store : Store}

theorem Catalogue.Sound.consistent (h : s.Sound) : s.Consistent := by
  refine ⟨fun row hrow => h.custody.rows (row.id, row.filePath) (List.mem_map_of_mem hrow), ?_⟩
  have hpaths := h.custody.paths
  rwa [Catalogue.custody, List.map_map] at hpaths

theorem owner_path {path data : Bytes} (h : s.custody.holds i = some (.owner path data)) :
    videosDir <+: path := by
  change (s.requests i).hold = some (.owner path data) at h
  cases hpc : s.requests i <;> rw [hpc] at h <;> cases h <;> exact videosDir_videoPath _

theorem Catalogue.Sound.moved (h : s.Sound) (i : Nat) (store : Store) (r : Request)
    (hcustody : Custody.Sound
      { rows := store.db.videos.map fun row => (row.id, row.filePath)
        files := store.files
        stored := store.uploaded
        holds := Function.update s.custody.holds i r.hold })
    (hids : ∀ row ∈ store.db.videos, row.id ≤ store.db.videoSeq)
    (hrows : ∀ row ∈ store.db.videos, RowPaths row) (hr : r.Paths) :
    Catalogue.Sound { store := store, requests := Function.update s.requests i r } := by
  refine ⟨?_, hids, hrows, ?_⟩
  · rw [Catalogue.custody, Function.comp_update]
    exact hcustody
  · exact (Function.forall_update_iff s.requests fun _ (r : Request) => r.Paths).mpr
      ⟨hr, fun j _ => h.requests j⟩

theorem Catalogue.Sound.filed (h : s.Sound) (i : Nat) (files : Files) (r : Request)
    (hcustody : Custody.Sound { s.custody with
      files := files
      holds := Function.update s.custody.holds i r.hold }) (hr : r.Paths) :
    Catalogue.Sound
      { store := { s.store with files := files }, requests := Function.update s.requests i r } :=
  h.moved i { s.store with files := files } r hcustody h.ids h.rows hr

theorem Catalogue.Sound.aside (h : s.Sound) (i : Nat) (files : Files) (r : Request)
    (hfiles : ∀ path, videosDir <+: path → files path = s.store.files path)
    (hhold : r.hold = (s.requests i).hold ∨ r.hold = none) (hr : r.Paths) :
    Catalogue.Sound
      { store := { s.store with files := files }, requests := Function.update s.requests i r } := by
  refine h.filed i files r ?_ hr
  have hsame : Custody.Sound { s.custody with holds := Function.update s.custody.holds i r.hold } := by
    rcases hhold with hhold | hhold <;> rw [hhold]
    · rw [show (s.requests i).hold = s.custody.holds i from rfl, Function.update_eq_self]
      exact h.custody
    · exact h.custody.release i
  refine hsame.elsewhere files (fun row hrow => ?_) ?_
  · obtain ⟨video, hvideo, rfl⟩ := List.mem_map.mp hrow
    exact hfiles _ (h.rows video hvideo).file
  · intro j path data hj
    refine hfiles path ?_
    dsimp only at hj
    rcases eq_or_ne j i with rfl | hne
    · rw [Function.update_self] at hj
      rcases hhold with hhold | hhold <;> rw [hhold] at hj
      · exact owner_path hj
      · cases hj
    · rw [Function.update_of_ne hne] at hj
      exact owner_path hj

/-! ### The steps of an upload -/

theorem sound_writeFile (h : s.Sound) {u : Upload}
    (hcond : o.write = none ∨
      (Custody.Free s.custody i u.videoPath ∧ ∀ content, o.write = some (content, true) → content = u.data)) :
    Catalogue.Sound
      { store := { s.store with files := FileOp.apply o s.store.files (.write u.videoPath u.data o.wrote) }
        requests := Function.update s.requests i (if o.wrote then .thumbnail u else .returned) } := by
  unfold FileOp.apply Outside.wrote
  rcases hcond with hnone | ⟨hfree, hcontent⟩
  · rw [hnone]
    exact h.aside i _ _ (fun path _ => rfl) (.inr rfl) trivial
  · match hwrite : o.write with
    | none => exact h.aside i _ _ (fun path _ => rfl) (.inr rfl) trivial
    | some (content, true) =>
        obtain rfl := hcontent content hwrite
        exact h.filed i _ _ (h.custody.write hfree u.data) trivial
    | some (content, false) =>
        have hspoiled := h.custody.spoil (some content) hfree.1 fun j data hj => hfree.2 j _ hj rfl
        exact h.filed i _ _ hspoiled trivial

theorem sound_createVideo (h : s.Sound) {u : Upload} (hpc : s.requests i = .createVideo u)
    (hstep : (Request.createVideo u).step o s.store = some (r, store)) :
    Catalogue.Sound { store := store, requests := Function.update s.requests i r } := by
  have hi : s.custody.holds i = some (.owner u.videoPath u.data) := congrArg Request.hold hpc
  cases hcreate : dbCreateVideo s.store.db ⟨o.ok, o.now⟩ u.title (some u.description) u.videoPath
      (some u.thumbPath) none o.duration with
  | error rc =>
      simp only [Request.step, Request.next, hcreate] at hstep
      cases hstep
      exact h.filed i _ _ (h.custody.abandon hi) trivial
  | ok created =>
      obtain ⟨id, db'⟩ := created
      simp only [Request.step, Request.next, hcreate] at hstep
      cases hstep
      obtain ⟨rfl, rfl⟩ := dbCreateVideo_row hcreate
      have hfresh : ∀ row ∈ s.custody.rows, row.1 ≠ s.store.db.videoSeq + 1 := by
        intro row hrow heq
        obtain ⟨video, hvideo, rfl⟩ := List.mem_map.mp hrow
        have hle := h.ids video hvideo
        dsimp only at heq
        omega
      refine h.moved i _ _ ?_ (fun row hrow => ?_) (fun row hrow => ?_) trivial
      · rw [List.map_append]
        exact h.custody.insert hi hfresh
      · rcases List.mem_append.mp hrow with hrow | hrow
        · have hle := h.ids row hrow
          dsimp only
          omega
        · rw [List.mem_singleton.mp hrow]
      · rcases List.mem_append.mp hrow with hrow | hrow
        · exact h.rows row hrow
        · rw [List.mem_singleton.mp hrow]
          exact ⟨videosDir_videoPath u, videoPath_length u, thumbsDir_thumbPath u, fun _ h => nomatch h⟩

theorem sound_delete (h : s.Sound) {path : Bytes} {rowId videoId : Int}
    (hi : (s.requests i).hold = some (.keeper path rowId)) (hr : r.hold = some (.remover path)) (hpaths : r.Paths)
    (hcond : (o.ok = true ∧ videoId = rowId) ∨ ∀ row ∈ s.store.db.videos, row.id ≠ rowId) :
    Catalogue.Sound
      { store :=
          match dbDeleteVideoById s.store.db ⟨o.ok, o.now⟩ videoId with
          | .ok db => { s.store with db := db }
          | .error _ => s.store
        requests := Function.update s.requests i r } := by
  cases hdelete : dbDeleteVideoById s.store.db ⟨o.ok, o.now⟩ videoId with
  | error rc =>
      have hgone : ∀ row ∈ s.custody.rows, row.1 ≠ rowId := by
        intro row hrow
        obtain ⟨video, hvideo, rfl⟩ := List.mem_map.mp hrow
        rcases hcond with ⟨hok, -⟩ | hgone
        · rw [show o.ok = false from dbDeleteVideoById_error hdelete] at hok
          cases hok
        · exact hgone video hvideo
      refine h.filed i s.store.files r ?_ hpaths
      rw [hr]
      exact h.custody.settle hi hgone
  | ok db' =>
      obtain ⟨hvideos, hseq⟩ := dbDeleteVideoById_videos hdelete
      have hsub : db'.videos.Sublist s.store.db.videos := by
        rw [hvideos]
        exact List.filter_sublist
      have hdeleted := h.custody.delete (db'.videos.map fun row => (row.id, row.filePath)) (hsub.map _)
      have hgone : ∀ row ∈ db'.videos.map fun row => (row.id, row.filePath), row.1 ≠ rowId := by
        intro row hrow heq
        obtain ⟨video, hvideo, rfl⟩ := List.mem_map.mp hrow
        rcases hcond with ⟨-, rfl⟩ | hgone
        · rw [hvideos] at hvideo
          exact absurd heq (by simpa using (List.mem_filter.mp hvideo).2)
        · exact hgone video (hsub.subset hvideo) heq
      refine h.moved i _ _ ?_ (fun row hrow => ?_) (fun row hrow => h.rows row (hsub.subset hrow)) hpaths
      · rw [hr]
        exact hdeleted.settle hi hgone
      · rw [hseq]
        exact h.ids row (hsub.subset hrow)

theorem sound_unlink (h : s.Sound) {path : Bytes} (hi : (s.requests i).hold = some (.remover path))
    (hr : r.hold = none) (hpaths : r.Paths) :
    Catalogue.Sound
      { store := { s.store with files := FileOp.apply o s.store.files (.unlink path) }
        requests := Function.update s.requests i r } := by
  unfold FileOp.apply
  split_ifs
  · refine h.filed i _ r ?_ hpaths
    rw [hr]
    exact h.custody.unlink hi
  · exact h.aside i _ r (fun _ _ => rfl) (.inr hr) hpaths

theorem sound_updateSegmentPath (h : s.Sound) {u : Upload} {videoId : Int}
    (hstep : (Request.updateSegmentPath u videoId).step o s.store = some (r, store)) :
    Catalogue.Sound { store := store, requests := Function.update s.requests i r } := by
  cases hupdate : dbUpdateVideoSegmentPath s.store.db ⟨o.ok, o.now⟩ videoId (segmentDir videoId) with
  | error rc =>
      simp only [Request.step, Request.next, hupdate] at hstep
      cases hstep
      exact h.aside i _ _ (fun _ _ => rfl) (.inr rfl) trivial
  | ok db' =>
      simp only [Request.step, Request.next, hupdate] at hstep
      cases hstep
      obtain rfl := dbUpdateVideoSegmentPath_ok hupdate
      refine h.moved i _ _ ?_ (fun row hrow => ?_) (fun row hrow => ?_) trivial
      · have hrows : (s.store.db.updateVideo videoId fun row =>
            { row with segmentPath := some (segmentDir videoId) }).videos.map
              (fun row => (row.id, row.filePath)) = s.custody.rows := by
          simp only [Database.updateVideo, List.map_map]
          refine List.map_congr_left fun row _ => ?_
          simp only [Function.comp_apply]
          split_ifs <;> rfl
        rw [hrows]
        exact h.custody.release i
      · obtain ⟨video, hvideo, rfl⟩ := List.mem_map.mp hrow
        have hle := h.ids video hvideo
        simp only [Database.updateVideo]
        split_ifs <;> exact hle
      · obtain ⟨video, hvideo, rfl⟩ := List.mem_map.mp hrow
        have hvideoPaths := h.rows video hvideo
        simp only
        split_ifs
        · refine ⟨hvideoPaths.file, hvideoPaths.length, hvideoPaths.thumbnail, fun path hpath => ?_⟩
          cases hpath
          exact List.prefix_append ..
        · exact hvideoPaths

theorem sound_getVideo (h : s.Sound) {videoId : Int}
    (hstep : (Request.getVideo videoId).step o s.store = some (r, store)) :
    Catalogue.Sound { store := store, requests := Function.update s.requests i r } := by
  cases hget : dbGetVideoById s.store.db ⟨o.ok, o.now⟩ videoId with
  | error rc =>
      simp only [Request.step, Request.next, hget] at hstep
      cases hstep
      exact h.aside i _ _ (fun _ _ => rfl) (.inr rfl) trivial
  | ok v =>
      simp only [Request.step, Request.next, hget] at hstep
      cases hstep
      obtain ⟨row, hrow, rfl, rfl⟩ := dbGetVideoById_ok hget
      have hrowPaths := h.rows row hrow
      refine h.filed i _ _ ?_ hrowPaths.read
      simp only [Request.hold, hrowPaths.read_filePath]
      exact h.custody.keep i (List.mem_map_of_mem hrow)

/-! ### One step -/

theorem Catalogue.Sound.request (h : s.Sound) (hcond : Exclusive s (.step i o))
    (hstep : (s.requests i).step o s.store = some (r, store)) :
    Catalogue.Sound { store := store, requests := Function.update s.requests i r } := by
  have hpaths := h.requests i
  cases hpc : s.requests i with
  | notStarted | returned =>
      rw [hpc] at hstep
      cases hstep
  | time m =>
      rw [hpc] at hstep
      cases hstep
      exact h.aside i _ _ (fun _ _ => rfl) (.inr rfl) trivial
  | writeFile u =>
      rw [hpc] at hstep
      simp only [Exclusive, hpc] at hcond
      cases hstep
      exact sound_writeFile h hcond
  | thumbnail u =>
      rw [hpc] at hstep
      cases hstep
      exact h.aside i _ _ (fun path hpath => apply_thumbnail u.videoPath (thumbsDir_thumbPath u) hpath)
        (.inl (by rw [hpc]; rfl)) trivial
  | createVideo u =>
      rw [hpc] at hstep
      exact sound_createVideo h hpc hstep
  | lastInsertRowid u rowId =>
      rw [hpc] at hstep
      cases hstep
      exact h.aside i _ _ (fun _ _ => rfl) (.inl (by rw [hpc]; rfl)) trivial
  | segment u rowId videoId =>
      rw [hpc] at hstep
      cases hstep
      refine h.aside i _ _ (fun path hpath => apply_segment videoId o.rc u.videoPath hpath) ?_ ?_
      · rw [hpc]
        split_ifs
        · exact .inl rfl
        · exact .inr rfl
      · split_ifs <;> trivial
  | rollBack u rowId videoId =>
      rw [hpc] at hstep
      simp only [Exclusive, hpc] at hcond
      have hdeleted := sound_delete (r := .unlinkVideo u) h (by rw [hpc]; rfl) rfl trivial hcond
      simp only [Request.step, Request.next] at hstep
      split at hstep <;> cases hstep <;> rename_i hdelete <;> rw [hdelete] at hdeleted <;> exact hdeleted
  | unlinkVideo u =>
      rw [hpc] at hstep
      cases hstep
      exact sound_unlink h (by rw [hpc]; rfl) rfl trivial
  | unlinkThumb u =>
      rw [hpc] at hstep
      cases hstep
      exact h.aside i _ _ (fun path hpath => apply_unlink_thumbnail (thumbsDir_thumbPath u) hpath)
        (.inr rfl) trivial
  | updateSegmentPath u videoId =>
      rw [hpc] at hstep
      exact sound_updateSegmentPath h hstep
  | getVideo videoId =>
      rw [hpc] at hstep
      exact sound_getVideo h hstep
  | deleteVideo videoId v =>
      rw [hpc] at hstep hpaths
      simp only [Exclusive, hpc] at hcond
      have hdeleted := sound_delete (r := .unlinkFile v) h (by rw [hpc]; rfl) rfl hpaths
        (hcond.imp_left fun hok => ⟨hok, rfl⟩)
      simp only [Request.step, Request.next] at hstep
      split at hstep <;> cases hstep <;> rename_i hdelete <;> rw [hdelete] at hdeleted <;> exact hdeleted
  | unlinkFile v =>
      rw [hpc] at hstep hpaths
      cases hstep
      simp only [Request.ops]
      split_ifs
      · exact h.aside i _ _ (fun _ _ => rfl) (.inr rfl) hpaths
      · exact sound_unlink h (by rw [hpc]; rfl) rfl hpaths
  | unlinkThumbnail v =>
      rw [hpc] at hstep hpaths
      cases hstep
      refine h.aside i _ _ (fun path hpath => ?_) (.inr rfl) hpaths
      simp only [Request.ops]
      split_ifs
      · rfl
      · exact apply_unlink_thumbnail (VideoPaths.thumbnail hpaths) hpath
  | removeSegments v =>
      rw [hpc] at hstep hpaths
      cases hstep
      refine h.aside i _ _ (fun path hpath => ?_) (.inr rfl) trivial
      simp only [Request.ops]
      split_ifs with hnone
      · rfl
      · exact apply_removeTree (VideoPaths.segments hpaths hnone) hpath

/-- **One step** that meets the condition. -/
theorem Catalogue.Sound.step {e : CatalogueEvent} (h : s.Sound) (hcond : Exclusive s e)
    (hstep : s.step e = some t) : t.Sound := by
  cases e with
  | upload i m =>
      simp only [Catalogue.step] at hstep
      split at hstep <;> cases hstep
      exact h.aside i s.store.files _ (fun _ _ => rfl) (.inr rfl) trivial
  | delete i videoId =>
      simp only [Catalogue.step] at hstep
      split at hstep <;> cases hstep
      exact h.aside i s.store.files _ (fun _ _ => rfl) (.inr rfl) trivial
  | step i o =>
      simp only [Catalogue.step, Option.map_eq_some_iff] at hstep
      obtain ⟨⟨r, store⟩, hrequest, rfl⟩ := hstep
      exact h.request hcond hrequest
  | insert rowid =>
      cases hstep
      exact ⟨h.custody, h.ids, h.rows, h.requests⟩

/-! ### Runs -/

theorem sound_empty (h : catalogueSystem.init s) : s.Sound := by
  obtain ⟨hvideos, hrequests⟩ := h
  have hholds (i : Nat) : s.custody.holds i = none := by
    show (s.requests i).hold = none
    rw [hrequests i]
    rfl
  have hrows : s.custody.rows = [] := by simp [Catalogue.custody, hvideos]
  refine ⟨⟨⟨?_, ?_⟩, fun i hold hi => ?_, fun i path data hi => ?_⟩, ?_, ?_, fun i => ?_⟩
  · simp [hrows]
  · simp [hrows]
  · rw [hholds i] at hi
    cases hi
  · rw [hholds i] at hi
    cases hi
  · simp [hvideos]
  · simp [hvideos]
  · rw [hrequests i]
    trivial

/-- **The catalogue and the files stay consistent.** In every run from an empty catalogue whose steps all
meet `Exclusive`, every row names a file that holds exactly the bytes uploaded for it, and no two rows
share a path. -/
theorem catalogue_consistent (h : (catalogueSystem.restrict Exclusive).Reachable s) : s.Consistent := by
  have hsound : s.Sound :=
    System.invariant (T := catalogueSystem.restrict Exclusive) (fun _ => sound_empty)
      (fun _ _ _ hs hstep => hs.step hstep.1 hstep.2) h
  exact hsound.consistent

/-- The parsed body of an upload of these bytes. -/
def sampleMultipart (data : Bytes) : Multipart := ⟨some data, data.length, [], [], 1⟩

/-- Everything succeeds; the file of an upload holds these bytes. -/
def sampleOutside (data : Bytes) (time : Int64) : Outside := ⟨true, 0, time, 0, 0, some (data, true), fun _ => none⟩

def emptyCatalogue : Catalogue :=
  ⟨⟨⟨[], [], [], [], 0, 0, 0⟩, fun _ => none, 0, fun _ => none⟩, fun _ => .notStarted⟩

/-- One upload, from its body to its reply. -/
def wholeUpload (i : Nat) (data : Bytes) (time : Int64) : List CatalogueEvent :=
  .upload i (sampleMultipart data) :: List.replicate 7 (.step i (sampleOutside data time))

def wholeDelete (i : Nat) (videoId : Int) : List CatalogueEvent :=
  .delete i videoId :: List.replicate 5 (.step i (sampleOutside [] 0))

/-- The condition as a test, for the first `n` threads. -/
def allowed (n : Nat) (s : Catalogue) : CatalogueEvent → Bool
  | .upload i _ | .delete i _ => i < n
  | .insert _ => true
  | .step i o => i < n &&
    match s.requests i with
    | .writeFile u => o.write = some (u.data, true) && (s.store.db.videos.all fun row => row.filePath ≠ u.videoPath) &&
      (List.range n).all fun j => j = i || (s.requests j).hold.isNone
    | .rollBack _ rowId videoId => o.ok && videoId = rowId
    | .deleteVideo _ _ => o.ok
    | _ => true

theorem exclusive_of_allowed {n : Nat} {e : CatalogueEvent} (hidle : ∀ j, n ≤ j → s.requests j = .notStarted)
    (h : allowed n s e = true) : Exclusive s e := by
  cases e with
  | step i o =>
      simp only [allowed, Bool.and_eq_true] at h
      obtain ⟨-, h⟩ := h
      simp only [Exclusive]
      cases hpc : s.requests i with
      | writeFile u =>
          simp only [hpc, Bool.and_eq_true, decide_eq_true_eq, List.all_eq_true, Bool.or_eq_true] at h
          obtain ⟨⟨hwrite, hrows⟩, hothers⟩ := h
          refine .inr ⟨⟨fun r hr => ?_, fun j hold hj _ => ?_⟩, fun content hcontent => ?_⟩
          · obtain ⟨row, hrow, rfl⟩ := List.mem_map.mp hr
            exact hrows row hrow
          · change (s.requests j).hold = some hold at hj
            by_cases hlt : j < n
            · exact (hothers j (List.mem_range.mpr hlt)).resolve_right (by simp [hj])
            · rw [hidle j (by omega)] at hj
              cases hj
          · rw [hwrite] at hcontent
            cases hcontent
            rfl
      | rollBack u rowId videoId => exact .inl (by simpa [hpc] using h)
      | deleteVideo videoId v => exact .inl (by simpa [hpc] using h)
      | _ => trivial
  | _ => trivial

theorem allowed_idle {n : Nat} {e : CatalogueEvent} (hidle : ∀ j, n ≤ j → s.requests j = .notStarted)
    (h : allowed n s e = true) (hstep : s.step e = some t) : ∀ j, n ≤ j → t.requests j = .notStarted := by
  have hupdate (i : Nat) (r : Request) (hi : i < n) (j : Nat) (hj : n ≤ j) :
      Function.update s.requests i r j = .notStarted := by
    rw [Function.update_of_ne (by omega)]
    exact hidle j hj
  cases e with
  | upload i m =>
      simp only [Catalogue.step] at hstep
      split at hstep <;> cases hstep
      exact hupdate i _ (by simpa [allowed] using h)
  | delete i videoId =>
      simp only [Catalogue.step] at hstep
      split at hstep <;> cases hstep
      exact hupdate i _ (by simpa [allowed] using h)
  | step i o =>
      simp only [Catalogue.step, Option.map_eq_some_iff] at hstep
      obtain ⟨⟨r, store⟩, -, rfl⟩ := hstep
      simp only [allowed, Bool.and_eq_true, decide_eq_true_eq] at h
      exact hupdate i r h.1
  | insert rowid =>
      cases hstep
      exact hidle

/-- Two uploads in different seconds, and a delete of the first. -/
theorem catalogue_consistent_one : ∃ s : Catalogue, s.store.db.videos.map VideoRow.id = [2] ∧ s.Consistent := by
  let f (s : Catalogue) (e : CatalogueEvent) : Option Catalogue := if allowed 3 s e then s.step e else none
  have hf (s : Catalogue) (e : CatalogueEvent) (t : Catalogue) (hidle : ∀ j, 3 ≤ j → s.requests j = .notStarted)
      (h : f s e = some t) :
      (catalogueSystem.restrict Exclusive).step s e t ∧ ∀ j, 3 ≤ j → t.requests j = .notStarted := by
    dsimp only [f] at h
    split_ifs at h with hallowed
    exact ⟨⟨exclusive_of_allowed hidle hallowed, h⟩, allowed_idle hidle hallowed h⟩
  let es := wholeUpload 0 [65] 0 ++ wholeUpload 1 [66] 1 ++ wholeDelete 2 1
  have hleft : ((es.foldlM f emptyCatalogue).map fun s => s.store.db.videos.map VideoRow.id) = some [2] := by
    decide +kernel
  obtain ⟨s, hs, hids⟩ := Option.map_eq_some_iff.mp hleft
  have hrun := System.run_of_foldlM_of hf (fun _ _ => rfl) hs
  exact ⟨s, hids, catalogue_consistent ⟨emptyCatalogue, _, ⟨rfl, fun _ => rfl⟩, hrun⟩⟩

/-- Two uploads in one second: the second overwrites the file of the first, and both rows name it. -/
theorem catalogue_overwritten : ¬ ∀ s : Catalogue, catalogueSystem.Reachable s → s.Consistent := by
  intro h
  obtain ⟨s, hs, hlost⟩ : ∃ s,
      (wholeUpload 0 [65] 0 ++ wholeUpload 1 [66] 0).foldlM Catalogue.step emptyCatalogue = some s ∧
        ∃ row ∈ s.store.db.videos, s.store.files row.filePath ≠ s.store.uploaded row.id :=
    ⟨_, rfl, by decide +kernel⟩
  have hrun := System.run_of_foldlM (T := catalogueSystem) (fun _ _ _ => id) hs
  obtain ⟨row, hrow, hne⟩ := hlost
  obtain ⟨data, huploaded, hfile⟩ := (h s ⟨emptyCatalogue, _, ⟨rfl, fun _ => rfl⟩, hrun⟩).files row hrow
  exact hne (hfile.trans huploaded.symm)

end OttQuic.Http
