import OttQuic.Http.Admin
import OttQuic.Http.Catalogue

/-!
# What a failed upload leaves behind

`handle_upload_request` makes a video file, a thumbnail, a row and a directory of segments, one after the other,
and each of its exits takes some of them back. This is the handler on a file system: what the calls and the
programs leave in files is given from outside, and so is where they fail. `failed_upload_leaves_nothing_iff` says
when an upload that fails has left everything as it was: a file cut short by `write_file` is never removed, nor is
the directory of a script that has made it, and a file that stood at one of the paths before is lost.
-/

namespace OttQuic.Http

open CString Db

/-- What a path names. -/
inductive Node where
  | file (data : Bytes)
  | dir
  deriving DecidableEq

abbrev FileSystem := Bytes → Option Node

/-- How far `tools/segment_video.sh` comes. -/
inductive Script where
  /-- `system` does not run it. -/
  | notRun
  /-- `rm -rf` fails and leaves some of the directory. -/
  | rm (left : Bytes → Bool)
  | mkdir
  /-- The directory is there, with what the programs have made in it. -/
  | made (files : FileSystem) (exit : Int)

/-- What `handle_upload_request` meets outside. -/
structure StoreEnv where
  /-- The three calls of `ensure_dir` return `0`. -/
  dirs : Bool
  /-- `fopen` for writing: what the file holds after `fclose`, and whether `fwrite` has returned `len`. -/
  write : Option (Bytes × Bool)
  /-- `(int)duration`. -/
  duration : Int
  /-- What `ffmpeg` leaves at the path of the thumbnail, if it writes there. -/
  thumbnail : Option Bytes
  script : Script

structure StoreResult where
  rc : Int
  conn : Conn
  files : FileSystem

/-! ### The calls -/

/-- A file is written, unless its path names a directory. -/
def putFile (files : FileSystem) (path data : Bytes) : FileSystem :=
  if files path = some .dir then files else Function.update files path (some (.file data))

/-- `write_file`. -/
def writeFile (env : StoreEnv) (files : FileSystem) (path : Bytes) : Bool × FileSystem :=
  match env.write with
  | none => (false, files)
  | some (data, ok) => if files path = some .dir then (false, files) else (ok, putFile files path data)

/-- `video_extract_thumbnail`. -/
def extractThumbnail (env : StoreEnv) (files : FileSystem) (path : Bytes) : FileSystem :=
  match env.thumbnail with
  | none => files
  | some data => putFile files path data

/-- `unlink`, which does not remove a directory. -/
def unlinkFile (files : FileSystem) (path : Bytes) : FileSystem :=
  if files path = some .dir then files else Function.update files path none

/-- What the script leaves in the directory `dir` and below. -/
def Script.leaves (files : FileSystem) (dir : Bytes) : Script → FileSystem
  | .notRun => files
  | .rm left => fun path => if left path then files path else none
  | .mkdir => fun _ => none
  | .made files _ => fun path => if path = dir then some .dir else files path

def Script.rc : Script → Int
  | .made _ exit => exit
  | .notRun | .rm _ | .mkdir => -1

/-- `tools/segment_video.sh`. -/
def Script.run (script : Script) (files : FileSystem) (dir : Bytes) : FileSystem := fun path =>
  if InTree dir path then script.leaves files dir path else files path

/-- `handle_upload_request` from a body that has been parsed. -/
def storeFiles (env : StoreEnv) (conn : Conn) (files : FileSystem) (u : Upload) : StoreResult :=
  if env.dirs = false then ⟨-1, conn, files⟩
  else
    let (ok, files) := writeFile env files u.videoPath
    if ok = false then ⟨-1, conn, files⟩
    else
      let files := extractThumbnail env files u.thumbPath
      match conn.insert fun db stmt =>
        dbCreateVideo db stmt u.title (some u.description) u.videoPath (some u.thumbPath) none env.duration with
      | (none, conn) => ⟨-1, conn, unlinkFile (unlinkFile files u.videoPath) u.thumbPath⟩
      | (some videoId, conn) =>
        let files := env.script.run files (segmentDir videoId)
        if env.script.rc ≠ 0 then
          let (_, conn) := conn.exec fun db stmt => dbDeleteVideoById db stmt videoId
          ⟨-1, conn, unlinkFile (unlinkFile files u.videoPath) u.thumbPath⟩
        else
          let (_, conn) := conn.exec fun db stmt => dbUpdateVideoSegmentPath db stmt videoId (segmentDir videoId)
          ⟨0, conn, files⟩

/-- The upload that a request carries, as `handle_upload_request` parses it. -/
def parsedUpload (malloc : Nat → Bool) (time : Int64) (contentType body : Bytes) : Option Upload :=
  if body = [] ∨ body.length > maxUploadBytes then none
  else
    match uploadBoundary contentType with
    | .found boundary => (parseMultipart malloc body boundary 128 256).map fun m => ⟨m, time⟩
    | _ => none

/-- `handle_upload_request`. -/
def uploadFiles (malloc : Nat → Bool) (time : Int64) (env : StoreEnv) (conn : Conn) (files : FileSystem)
    (contentType body : Bytes) : StoreResult :=
  match parsedUpload malloc time contentType body with
  | none => ⟨-1, conn, files⟩
  | some u => storeFiles env conn files u

/-- The outcomes of `UploadEnv` in these calls. -/
def StoreEnv.outcomes (env : StoreEnv) (malloc : Nat → Bool) (time : Int64) (files : FileSystem) (u : Upload) :
    UploadEnv :=
  ⟨malloc, env.dirs, time.toInt, (writeFile env files u.videoPath).1, env.duration, env.script.rc⟩

/-- **The handler on a file system is `handleUploadRequest`**: it leaves the same tables, and returns `0` exactly
if the other one replies that the video is there. -/
theorem storeFiles_conn (env : StoreEnv) (malloc : Nat → Bool) (conn : Conn) (files : FileSystem) (u : Upload) :
    let result := storeUpload (env.outcomes malloc u.time files u) conn u.multipart
    (storeFiles env conn files u).conn = result.conn ∧
      ((storeFiles env conn files u).rc = 0 ↔ result.response ≠ []) := by
  intro result
  have hresult : result = _ := storeUpload_eq (env.outcomes malloc u.time files u) conn u rfl
  rw [hresult, storeFiles, StoreEnv.outcomes]
  cases hdirs : env.dirs with
  | false => simp
  | true =>
      cases hwrite : (writeFile env files u.videoPath).1 with
      | false => simp [hwrite]
      | true =>
          cases hcreate : dbCreateVideo conn.db conn.stmt u.title (some u.description) u.videoPath (some u.thumbPath)
              none env.duration with
          | error rc => simp [hwrite, Conn.insert, hcreate]
          | ok created =>
              have hreply (text : Bytes) : uploadReply "HTTP/1.1 200 OK\r\n" text ≠ [] := by
                rw [uploadReply, List.append_assoc, List.append_assoc]
                exact List.append_ne_nil_of_left_ne_nil (by decide) _
              by_cases hscript : env.script.rc = 0
              · simp [hwrite, Conn.insert, hcreate, hscript, hreply]
              · simp [hwrite, Conn.insert, hcreate, hscript]

/-! ### Nothing is left -/

/-- Nothing is there where nothing was, and a file is as it was. -/
def SameFile (before after : Option Node) : Prop :=
  (before = none → after = none) ∧ ∀ data, before = some (.file data) → after = some (.file data)

theorem SameFile.refl (node : Option Node) : SameFile node node := ⟨id, fun _ => id⟩

/-- The rows of `videos` are as before, what was not there is not there, and every file is as before. -/
structure LeavesNothing (conn : Conn) (files : FileSystem) (result : StoreResult) : Prop where
  videos : result.conn.db.videos = conn.db.videos
  files : ∀ path, SameFile (files path) (result.files path)

/-- No file stands at the two paths of the upload. -/
def Unused (files : FileSystem) (u : Upload) : Prop :=
  ∀ data, files u.videoPath ≠ some (.file data) ∧ files u.thumbPath ≠ some (.file data)

/-- `write_file` has opened the file. Where the upload fails, if it does, what it has made is taken back: a file
that was cut short is what was there before; when the row is not inserted or the script fails, no file stood at the
two paths; when the script fails, the row is deleted, and the directory of the segments is as it was before. -/
def Recovers (env : StoreEnv) (conn : Conn) (files : FileSystem) (u : Upload) (data : Bytes) (ok : Bool) : Prop :=
  (ok = false → files u.videoPath = some (.file data)) ∧
  (ok = true → conn.stmt.ok = false → Unused files u) ∧
  (ok = true → conn.stmt.ok = true → env.script.rc ≠ 0 →
    Unused files u ∧ conn.fates (conn.executed + 1) = true ∧
      toInt (conn.db.videoSeq + 1) = conn.db.videoSeq + 1 ∧
      ∀ path, InTree (segmentDir (toInt (conn.db.videoSeq + 1))) path →
        SameFile (files path) (env.script.leaves files (segmentDir (toInt (conn.db.videoSeq + 1))) path))

/-- The directories are there, the file is opened, and what follows is taken back where it fails. -/
def Undoes (env : StoreEnv) (conn : Conn) (files : FileSystem) (u : Upload) : Prop :=
  env.dirs = true → ∀ data ok, env.write = some (data, ok) → files u.videoPath ≠ some .dir →
    Recovers env conn files u data ok

section

variable {env : StoreEnv} {conn : Conn} {files : FileSystem} {u : Upload} {path data : Bytes}

theorem putFile_other {path' : Bytes} (h : path' ≠ path) : putFile files path data path' = files path' := by
  unfold putFile
  split_ifs
  · rfl
  · exact Function.update_of_ne h _ _

theorem putFile_self (h : files path ≠ some .dir) : putFile files path data path = some (.file data) := by
  rw [putFile, if_neg h, Function.update_self]

theorem putFile_dir_iff {path' : Bytes} : putFile files path data path' = some .dir ↔ files path' = some .dir := by
  unfold putFile
  split_ifs with hdir
  · rfl
  · by_cases hpath : path' = path
    · rw [hpath, Function.update_self]
      exact iff_of_false (by simp) hdir
    · rw [Function.update_of_ne hpath]

theorem unlinkFile_other {path' : Bytes} (h : path' ≠ path) : unlinkFile files path path' = files path' := by
  unfold unlinkFile
  split_ifs
  · rfl
  · exact Function.update_of_ne h _ _

theorem unlinkFile_self : unlinkFile files path path = if files path = some .dir then some .dir else none := by
  unfold unlinkFile
  split_ifs with hdir
  · exact hdir
  · exact Function.update_self _ _ _

theorem thumbPath_ne_videoPath (u : Upload) : u.thumbPath ≠ u.videoPath := fun heq =>
  not_videosDir_of_thumbsDir (thumbsDir_thumbPath u) (heq ▸ videosDir_videoPath u)

theorem not_inTree_paths (u : Upload) (videoId : Int) :
    ¬ InTree (segmentDir videoId) u.videoPath ∧ ¬ InTree (segmentDir videoId) u.thumbPath := by
  have hdir : segmentsDir <+: segmentDir videoId := List.prefix_append _ _
  refine ⟨fun htree => ?_, fun htree => ?_⟩
  · exact not_videosDir_of_segmentsDir (segmentsDir_of_inTree hdir htree) (videosDir_videoPath u)
  · have hsegments := segmentsDir_of_inTree hdir htree
    have hprefix := List.prefix_of_prefix_length_le (thumbsDir_thumbPath u) hsegments (by decide)
    exact absurd hprefix (by decide)

theorem sameFile_dir_or_none {before : Option Node} :
    SameFile before (if before = some .dir then some .dir else none) ↔ ∀ data, before ≠ some (.file data) := by
  rcases before with _ | ⟨data⟩ | _
  · simp [SameFile]
  · simp [SameFile]
  · simp [SameFile]

theorem unlinked_iff {made : FileSystem} (hvideo : files u.videoPath ≠ some .dir) (hmade : made u.videoPath ≠ some .dir)
    (hthumb : made u.thumbPath = some .dir ↔ files u.thumbPath = some .dir) :
    (∀ path, SameFile (files path) (unlinkFile (unlinkFile made u.videoPath) u.thumbPath path)) ↔
      Unused files u ∧ ∀ path, path ≠ u.videoPath → path ≠ u.thumbPath → SameFile (files path) (made path) := by
  have hne := thumbPath_ne_videoPath u
  have hatVideo : unlinkFile (unlinkFile made u.videoPath) u.thumbPath u.videoPath =
      if files u.videoPath = some .dir then some .dir else none := by
    rw [unlinkFile_other (Ne.symm hne), unlinkFile_self, if_neg hmade, if_neg hvideo]
  have hatThumb : unlinkFile (unlinkFile made u.videoPath) u.thumbPath u.thumbPath =
      if files u.thumbPath = some .dir then some .dir else none := by
    rw [unlinkFile_self, unlinkFile_other hne]
    exact if_congr hthumb rfl rfl
  have hother {path : Bytes} (hpath : path ≠ u.videoPath) (hpath' : path ≠ u.thumbPath) :
      unlinkFile (unlinkFile made u.videoPath) u.thumbPath path = made path := by
    rw [unlinkFile_other hpath', unlinkFile_other hpath]
  constructor
  · intro h
    have hfree := h u.videoPath
    have hfree' := h u.thumbPath
    rw [hatVideo, sameFile_dir_or_none] at hfree
    rw [hatThumb, sameFile_dir_or_none] at hfree'
    refine ⟨fun data => ⟨hfree data, hfree' data⟩, fun path hpath hpath' => ?_⟩
    have hsame := h path
    rwa [hother hpath hpath'] at hsame
  · rintro ⟨hunused, hsame⟩ path
    by_cases hpath : path = u.videoPath
    · rw [hpath, hatVideo, sameFile_dir_or_none]
      exact fun data => (hunused data).1
    · by_cases hpath' : path = u.thumbPath
      · rw [hpath', hatThumb, sameFile_dir_or_none]
        exact fun data => (hunused data).2
      · rw [hother hpath hpath']
        exact hsame path hpath hpath'

/-- The files when the row is inserted: the video and perhaps the thumbnail have been written. -/
def uploaded (env : StoreEnv) (files : FileSystem) (u : Upload) (data : Bytes) : FileSystem :=
  extractThumbnail env (putFile files u.videoPath data) u.thumbPath

theorem uploaded_other (env : StoreEnv) (files : FileSystem) (data : Bytes) (hpath : path ≠ u.videoPath)
    (hpath' : path ≠ u.thumbPath) : uploaded env files u data path = files path := by
  unfold uploaded extractThumbnail
  cases env.thumbnail with
  | none => exact putFile_other hpath
  | some thumbnail => exact (putFile_other hpath').trans (putFile_other hpath)

theorem uploaded_dir_iff (env : StoreEnv) (files : FileSystem) (data : Bytes) :
    uploaded env files u data path = some .dir ↔ files path = some .dir := by
  unfold uploaded extractThumbnail
  cases env.thumbnail with
  | none => exact putFile_dir_iff
  | some thumbnail => exact putFile_dir_iff.trans putFile_dir_iff

theorem Script.leaves_congr (script : Script) {files' : FileSystem} {dir : Bytes} (h : files path = files' path) :
    script.leaves files dir path = script.leaves files' dir path := by
  cases script with
  | notRun => exact h
  | rm left =>
      show (if left path then files path else none) = if left path then files' path else none
      rw [h]
  | mkdir => rfl
  | made made exit => rfl

/-- The row that has been inserted goes again exactly if its `DELETE` executes and its id is an `int`. -/
theorem deleted_iff {db : Database} {videoId : Int} (hids : ∀ row ∈ conn.db.videos, row.id ≤ conn.db.videoSeq)
    (hcreate : dbCreateVideo conn.db conn.stmt u.title (some u.description) u.videoPath (some u.thumbPath) none
      env.duration = .ok (videoId, db)) :
    ((conn.next db).exec fun db stmt => dbDeleteVideoById db stmt videoId).2.db.videos = conn.db.videos ↔
      conn.fates (conn.executed + 1) = true ∧ toInt (conn.db.videoSeq + 1) = conn.db.videoSeq + 1 := by
  obtain ⟨rfl, rfl⟩ := dbCreateVideo_row hcreate
  set row : VideoRow := ⟨conn.db.videoSeq + 1, u.title, some u.description, u.videoPath, some u.thumbPath, none,
    env.duration, conn.stmt.now⟩
  have hnew : row ∉ conn.db.videos := fun hmem => by
    have hle : row.id ≤ conn.db.videoSeq := hids row hmem
    exact absurd hle (by show ¬ conn.db.videoSeq + 1 ≤ conn.db.videoSeq; omega)
  by_cases hfate : conn.fates (conn.executed + 1) = true
  · have hvideos : ((conn.next { conn.db with
          videos := conn.db.videos ++ [row]
          videoSeq := conn.db.videoSeq + 1
          videoChanges := conn.db.videoChanges + 1 }).exec fun db stmt =>
        dbDeleteVideoById db stmt (toInt (conn.db.videoSeq + 1))).2.db.videos =
          (conn.db.videos ++ [row]).filter fun row => row.id ≠ toInt (conn.db.videoSeq + 1) := by
      simp [Conn.exec, Conn.stmt, Conn.next, dbDeleteVideoById, hfate]
    rw [hvideos, List.filter_append]
    refine ⟨fun hsame => ⟨hfate, ?_⟩, ?_⟩
    · by_contra hid
      have hkept : row ∈ [row].filter fun row => row.id ≠ toInt (conn.db.videoSeq + 1) :=
        List.mem_filter.mpr ⟨List.mem_singleton_self _, decide_eq_true (Ne.symm hid)⟩
      exact hnew (hsame ▸ List.mem_append_right _ hkept)
    · rintro ⟨-, hid⟩
      have hgone : ([row].filter fun row => row.id ≠ toInt (conn.db.videoSeq + 1)) = [] := by
        rw [hid]
        exact List.filter_cons_of_neg (by simp [row])
      have hothers : (conn.db.videos.filter fun row => row.id ≠ toInt (conn.db.videoSeq + 1)) = conn.db.videos := by
        rw [hid]
        refine List.filter_eq_self.mpr fun other hother => decide_eq_true ?_
        have hle := hids other hother
        omega
      rw [hgone, hothers, List.append_nil]
  · refine iff_of_false (fun hsame => ?_) (fun hboth => hfate hboth.1)
    have hvideos : ((conn.next { conn.db with
          videos := conn.db.videos ++ [row]
          videoSeq := conn.db.videoSeq + 1
          videoChanges := conn.db.videoChanges + 1 }).exec fun db stmt =>
        dbDeleteVideoById db stmt (toInt (conn.db.videoSeq + 1))).2.db.videos = conn.db.videos ++ [row] := by
      simp [Conn.exec, Conn.stmt, Conn.next, dbDeleteVideoById, hfate]
    rw [hvideos] at hsame
    exact hnew (hsame ▸ List.mem_append_right _ (List.mem_singleton_self row))

theorem insert_failed_iff (env : StoreEnv) (data : Bytes) (hvideo : files u.videoPath ≠ some .dir) :
    (∀ path, SameFile (files path)
      (unlinkFile (unlinkFile (uploaded env files u data) u.videoPath) u.thumbPath path)) ↔ Unused files u := by
  rw [unlinked_iff hvideo (fun hdir => hvideo ((uploaded_dir_iff env files data).mp hdir))
    (uploaded_dir_iff env files data)]
  refine and_iff_left fun path hpath hpath' => ?_
  rw [uploaded_other env files data hpath hpath']
  exact SameFile.refl _

theorem script_failed_iff (env : StoreEnv) (data : Bytes) (videoId : Int) (hvideo : files u.videoPath ≠ some .dir) :
    (∀ path, SameFile (files path)
      (unlinkFile (unlinkFile (env.script.run (uploaded env files u data) (segmentDir videoId)) u.videoPath)
        u.thumbPath path)) ↔
      Unused files u ∧ ∀ path, InTree (segmentDir videoId) path →
        SameFile (files path) (env.script.leaves files (segmentDir videoId) path) := by
  obtain ⟨hvideoTree, hthumbTree⟩ := not_inTree_paths u videoId
  have hatVideo : env.script.run (uploaded env files u data) (segmentDir videoId) u.videoPath =
      uploaded env files u data u.videoPath := if_neg hvideoTree
  have hatThumb : env.script.run (uploaded env files u data) (segmentDir videoId) u.thumbPath =
      uploaded env files u data u.thumbPath := if_neg hthumbTree
  rw [unlinked_iff hvideo
    (by rw [hatVideo]; exact fun hdir => hvideo ((uploaded_dir_iff env files data).mp hdir))
    (by rw [hatThumb]; exact uploaded_dir_iff env files data)]
  refine and_congr_right fun _ => ⟨fun hsame path htree => ?_, fun htree path hpath hpath' => ?_⟩
  · have hpath : path ≠ u.videoPath := fun heq => hvideoTree (heq ▸ htree)
    have hpath' : path ≠ u.thumbPath := fun heq => hthumbTree (heq ▸ htree)
    have hleaves := hsame path hpath hpath'
    rw [Script.run, if_pos htree, env.script.leaves_congr (uploaded_other env files data hpath hpath')] at hleaves
    exact hleaves
  · rw [Script.run]
    split_ifs with hin
    · rw [env.script.leaves_congr (uploaded_other env files data hpath hpath')]
      exact htree path hin
    · rw [uploaded_other env files data hpath hpath']
      exact SameFile.refl _

theorem short_write_iff {data : Bytes} (hvideo : files u.videoPath ≠ some .dir) :
    (∀ path, SameFile (files path) (putFile files u.videoPath data path)) ↔
      files u.videoPath = some (.file data) := by
  constructor
  · intro hsame
    have hat := hsame u.videoPath
    rw [putFile_self hvideo] at hat
    cases hbefore : files u.videoPath with
    | none => cases hat.1 hbefore
    | some node =>
        cases node with
        | file before => exact (hat.2 before hbefore).symm
        | dir => exact absurd hbefore hvideo
  · intro hbefore path
    by_cases hpath : path = u.videoPath
    · rw [hpath, putFile_self hvideo, hbefore]
      exact SameFile.refl _
    · rw [putFile_other hpath]
      exact SameFile.refl _

theorem opened_leaves_iff {data : Bytes} {ok : Bool} (hids : ∀ row ∈ conn.db.videos, row.id ≤ conn.db.videoSeq)
    (hdirs : env.dirs = true) (hwrite : env.write = some (data, ok)) (hvideo : files u.videoPath ≠ some .dir) :
    ((storeFiles env conn files u).rc = -1 → LeavesNothing conn files (storeFiles env conn files u)) ↔
      Recovers env conn files u data ok := by
  have hwritten : writeFile env files u.videoPath = (ok, putFile files u.videoPath data) := by
    rw [writeFile, hwrite]
    exact if_neg hvideo
  rw [storeFiles, hwritten, Recovers]
  cases ok with
  | false =>
      simp only [hdirs, Bool.true_eq_false, if_true, if_false, forall_const, Bool.false_eq_true, false_imp_iff,
        and_true]
      rw [← short_write_iff hvideo]
      exact ⟨fun h => h.files, fun h => ⟨rfl, h⟩⟩
  | true =>
      simp only [hdirs, Bool.true_eq_false, if_false, forall_const, false_imp_iff, true_and]
      cases hcreate : dbCreateVideo conn.db conn.stmt u.title (some u.description) u.videoPath
          (some u.thumbPath) none env.duration with
      | error rc =>
          have hfate : conn.stmt.ok = false := by
            cases hok : conn.stmt.ok with
            | false => rfl
            | true => simp [dbCreateVideo, hok] at hcreate
          simp only [Conn.insert, hcreate, hfate, forall_const, Bool.false_eq_true, false_imp_iff, and_true]
          rw [← insert_failed_iff env data hvideo]
          exact ⟨fun h => h.files, fun h => ⟨rfl, h⟩⟩
      | ok created =>
          obtain ⟨videoId, db⟩ := created
          obtain ⟨hvideoId, -⟩ := dbCreateVideo_row hcreate
          have hfate := (dbCreateVideo_ok hcreate).1
          simp only [Conn.insert, hcreate, hfate, forall_const, Bool.true_eq_false, false_imp_iff, true_and]
          by_cases hscript : env.script.rc = 0
          · simp [hscript]
          · simp only [ne_eq, hscript, not_false_eq_true, if_true, forall_const]
            have hfiles := script_failed_iff env data videoId hvideo
            have hvideos := deleted_iff hids hcreate
            rw [← hvideoId] at hvideos ⊢
            constructor
            · rintro ⟨hrows, hsame⟩
              obtain ⟨hunused, htree⟩ := hfiles.mp hsame
              obtain ⟨hdelete, hid⟩ := hvideos.mp hrows
              exact ⟨hunused, hdelete, hid, htree⟩
            · rintro ⟨hunused, hdelete, hid, htree⟩
              exact ⟨hvideos.mpr ⟨hdelete, hid⟩, hfiles.mpr ⟨hunused, htree⟩⟩

theorem leavesNothing_refl (conn : Conn) (files : FileSystem) : LeavesNothing conn files ⟨-1, conn, files⟩ :=
  ⟨rfl, fun path => SameFile.refl (files path)⟩

/-- **The handler from a parsed body.** -/
theorem storeFiles_leaves_iff (hids : ∀ row ∈ conn.db.videos, row.id ≤ conn.db.videoSeq) :
    ((storeFiles env conn files u).rc = -1 → LeavesNothing conn files (storeFiles env conn files u)) ↔
      Undoes env conn files u := by
  by_cases hopened : env.dirs = true ∧ (∃ data ok, env.write = some (data, ok)) ∧ files u.videoPath ≠ some .dir
  · obtain ⟨hdirs, ⟨data, ok, hwrite⟩, hvideo⟩ := hopened
    rw [opened_leaves_iff hids hdirs hwrite hvideo]
    refine ⟨fun h _ data' ok' hwrite' _ => ?_, fun h => h hdirs data ok hwrite hvideo⟩
    obtain ⟨rfl, rfl⟩ := Prod.mk.inj (Option.some.inj (hwrite.symm.trans hwrite'))
    exact h
  · refine iff_of_true (fun _ => ?_) fun hdirs data ok hwrite hvideo =>
      absurd ⟨hdirs, ⟨data, ok, hwrite⟩, hvideo⟩ hopened
    have hfails : storeFiles env conn files u = ⟨-1, conn, files⟩ := by
      rw [storeFiles]
      cases hdirs : env.dirs with
      | false => rfl
      | true =>
          have hunopened : writeFile env files u.videoPath = (false, files) := by
            rw [writeFile]
            cases hwrite : env.write with
            | none => rfl
            | some written =>
                refine if_pos ?_
                by_contra hvideo
                exact hopened ⟨hdirs, ⟨written.1, written.2, hwrite⟩, hvideo⟩
          rw [hunopened]
          rfl
    rw [hfails]
    exact leavesNothing_refl conn files

end

/-- **A failed upload leaves nothing behind**, for every request and wherever it fails, exactly if what it has made
by then is taken back. -/
theorem failed_upload_leaves_nothing_iff (malloc : Nat → Bool) (time : Int64) (env : StoreEnv) (conn : Conn)
    (files : FileSystem) (contentType body : Bytes) (hids : ∀ row ∈ conn.db.videos, row.id ≤ conn.db.videoSeq) :
    let result := uploadFiles malloc time env conn files contentType body
    (result.rc = -1 → LeavesNothing conn files result) ↔
      ∀ u, parsedUpload malloc time contentType body = some u → Undoes env conn files u := by
  intro result
  have hresult : result = uploadFiles malloc time env conn files contentType body := rfl
  rw [hresult, uploadFiles]
  cases parsedUpload malloc time contentType body with
  | none => exact iff_of_true (fun _ => leavesNothing_refl conn files) (fun _ h => by cases h)
  | some u =>
      rw [storeFiles_leaves_iff hids]
      refine ⟨fun h u' hu => ?_, fun h => h u rfl⟩
      rw [← Option.some.inj hu]
      exact h

def sampleType : Bytes := ascii "multipart/form-data; boundary=B1"

/-- Everything succeeds but what the script or the write does. -/
def sampleStore (write : Option (Bytes × Bool)) (script : Script) : StoreEnv := ⟨true, write, 60, some [1], script⟩

/-- The upload of the form. -/
def sampleParsed : Upload := ⟨⟨some (ascii "X"), 1, [], [], 1⟩, 1⟩

theorem parsedUpload_sampleForm : parsedUpload (fun _ => true) 1 sampleType sampleForm = some sampleParsed := by
  have hparse : parseMultipart (fun _ => true) sampleForm (ascii "--B1") 128 256 =
      some ⟨some (ascii "X"), 1, [], [], 1⟩ := by decide
  rw [parsedUpload, if_neg (by decide), show uploadBoundary sampleType = .found (ascii "--B1") by decide]
  dsimp only
  rw [hparse]
  rfl

/-- The script is not run, in an empty catalogue. -/
theorem failed_upload_leaves_nothing_iff_sample :
    let env := sampleStore (some ([88], true)) .notRun
    let result := uploadFiles (fun _ => true) 1 env emptyConn (fun _ => none) sampleType sampleForm
    result.rc = -1 ∧ LeavesNothing emptyConn (fun _ => none) result := by
  intro env result
  have hid : toInt 1 = 1 := by decide
  have hrc : result.rc = -1 := by
    show (uploadFiles _ _ _ _ _ _ _).rc = -1
    rw [uploadFiles, parsedUpload_sampleForm]
    simp [storeFiles, env, sampleStore, writeFile, Conn.insert, Conn.stmt, dbCreateVideo, emptyConn, Script.rc, hid]
  refine ⟨hrc, (failed_upload_leaves_nothing_iff _ 1 env emptyConn _ _ _ fun row hrow => ?_).mpr
    (fun u _ _ data ok hwrite _ => ?_) hrc⟩
  · exact absurd hrow List.not_mem_nil
  · obtain ⟨rfl, rfl⟩ := Prod.mk.inj (Option.some.inj hwrite)
    have hunused : Unused (fun _ => none) u := fun data => by simp
    refine ⟨?_, fun _ _ => hunused, fun _ _ _ => ⟨hunused, rfl, by decide, fun path _ => SameFile.refl _⟩⟩
    exact fun hshort => absurd hshort (by decide)

/-- The disk is full. -/
def sampleShort : StoreResult :=
  uploadFiles (fun _ => true) 1 (sampleStore (some ([], false)) .notRun) emptyConn (fun _ => none) sampleType sampleForm

/-- `ffmpeg` fails before it writes anything. -/
def sampleFailed : StoreResult :=
  uploadFiles (fun _ => true) 1 (sampleStore (some ([88], true)) (.made (fun _ => none) 1)) emptyConn (fun _ => none)
    sampleType sampleForm

/-- The one leaves an empty video file, the other one the directory of the segments. -/
theorem failed_upload_leaves_files :
    (sampleShort.rc = -1 ∧ sampleShort.files sampleParsed.videoPath = some (.file []) ∧
      ¬ LeavesNothing emptyConn (fun _ => none) sampleShort) ∧
    sampleFailed.rc = -1 ∧ sampleFailed.files (segmentDir 1) = some .dir ∧
      ¬ LeavesNothing emptyConn (fun _ => none) sampleFailed := by
  constructor
  · have hshort : sampleShort = ⟨-1, emptyConn, putFile (fun _ => none) sampleParsed.videoPath []⟩ := by
      rw [sampleShort, uploadFiles, parsedUpload_sampleForm]
      simp [storeFiles, sampleStore, writeFile]
    have hfile : sampleShort.files sampleParsed.videoPath = some (.file []) := by
      rw [hshort]
      exact @putFile_self (fun _ => none) sampleParsed.videoPath [] (by simp)
    refine ⟨by rw [hshort], hfile, fun h => ?_⟩
    rw [(h.files sampleParsed.videoPath).1 rfl] at hfile
    cases hfile
  · have htree : InTree (segmentDir 1) (segmentDir 1) := .inl rfl
    obtain ⟨hvideo, hthumb⟩ := not_inTree_paths sampleParsed 1
    have hfailed : sampleFailed.rc = -1 ∧ ∃ files, sampleFailed.files =
        unlinkFile (unlinkFile (Script.run (.made (fun _ => none) 1) files (segmentDir 1)) sampleParsed.videoPath)
          sampleParsed.thumbPath := by
      have hid : toInt 1 = 1 := by decide
      rw [sampleFailed, uploadFiles, parsedUpload_sampleForm]
      simp [storeFiles, sampleStore, writeFile, Conn.insert, Conn.stmt, dbCreateVideo, emptyConn, Script.rc, hid]
      exact ⟨_, rfl⟩
    obtain ⟨hrc, files, hfiles⟩ := hfailed
    have hnotVideo : segmentDir 1 ≠ sampleParsed.videoPath := fun heq => hvideo (heq ▸ htree)
    have hnotThumb : segmentDir 1 ≠ sampleParsed.thumbPath := fun heq => hthumb (heq ▸ htree)
    have hdir : sampleFailed.files (segmentDir 1) = some .dir := by
      rw [hfiles, unlinkFile_other hnotThumb, unlinkFile_other hnotVideo, Script.run, if_pos htree]
      simp [Script.leaves]
    refine ⟨hrc, hdir, fun h => ?_⟩
    rw [(h.files (segmentDir 1)).1 rfl] at hdir
    cases hdir

end OttQuic.Http
