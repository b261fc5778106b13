import OttQuic.Http.Admin

/-!
# What an administrator asks for

`handle_admin_delete` and `handle_admin_update` read everything they act on from the body: the id of the video, and
for an update its title and description. Behind the check of the session, the two handlers are functions of what has
been read.
-/

namespace OttQuic.Http

open CString Db

/-- The request comes from an administrator. -/
def Permitted (env : ApiEnv) (req : HttpRequest) (conn : Conn) : Prop :=
  env.db = true ∧ (isAdminUser conn req).1 = true

/-- The connection when the session has been checked. -/
def checked (req : HttpRequest) (conn : Conn) : Conn := (isAdminUser conn req).2

/-- The id that is read; `0` when none is found. -/
def videoIdOf (body : Bytes) : Int := (jsonExtractIntField body "video_id").getD 0

/-- The reply to everyone else. -/
def refuse (env : ApiEnv) (req : HttpRequest) (conn : Conn) : ApiResult :=
  if env.db = false then .ofReply serviceUnavailable conn else .ofReply adminRequired (checked req conn)

def titleOf (body : Bytes) : Bytes := (jsonExtractString body "title" dbMaxTitle).getD []

def descriptionOf (body : Bytes) : Bytes := (jsonExtractString body "description" dbMaxDescription).getD []

/-- `handle_admin_delete` from the id on. -/
def deleteVideo (conn : Conn) (videoId : Int) : ApiResult :=
  if videoId ≤ 0 then .ofReply invalidVideoId conn
  else
    match conn.query fun db stmt => dbGetVideoById db stmt videoId with
    | (.error _, conn) => .ofReply (textReply "404 Not Found" "video-not-found") conn
    | (.ok v, conn) =>
      match conn.exec fun db stmt => dbDeleteVideoById db stmt videoId with
      | (_, conn) =>
        let unlinked := [v.filePath, v.thumbnailPath].filter fun path => path ≠ []
        let removed := [v.segmentPath].filter fun path => path ≠ []
        ⟨.reply (textReply "200 OK" "deleted"), conn,
          unlinked.map FileOp.unlink ++ removed.map FileOp.removeTree⟩

/-- `handle_admin_update` from the id on. -/
def updateVideo (conn : Conn) (videoId : Int) (title description : Bytes) : ApiResult :=
  if videoId ≤ 0 then .ofReply invalidVideoId conn
  else
    match conn.exec fun db stmt => dbUpdateVideoMetadata db stmt videoId title description with
    | (false, conn) => .ofReply (textReply "500 Internal Server Error" "update-failed") conn
    | (true, conn) => .ofReply (textReply "200 OK" "updated") conn

section

variable {env : ApiEnv} {req : HttpRequest} {conn : Conn} {videoId : Int} {title description : Bytes}

theorem handleAdminDelete_eq (h : Permitted env req conn) (memory : Bytes) :
    handleAdminDelete env req conn memory = deleteVideo (checked req conn) (videoIdOf (ofMemory memory)) := by
  obtain ⟨hdb, hadmin⟩ := h
  have hchecked : isAdminUser conn req = (true, checked req conn) := Prod.ext hadmin rfl
  rw [handleAdminDelete, if_neg (by simp [hdb]), hchecked]
  rfl

theorem handleAdminUpdate_eq (h : Permitted env req conn) (memory : Bytes) :
    handleAdminUpdate env req conn memory = updateVideo (checked req conn) (videoIdOf (ofMemory memory))
      (titleOf (ofMemory memory)) (descriptionOf (ofMemory memory)) := by
  obtain ⟨hdb, hadmin⟩ := h
  have hchecked : isAdminUser conn req = (true, checked req conn) := Prod.ext hadmin rfl
  rw [handleAdminUpdate, if_neg (by simp [hdb]), hchecked]
  rfl

theorem not_permitted (h : ¬ Permitted env req conn) (memory : Bytes) :
    handleAdminDelete env req conn memory = refuse env req conn ∧
      handleAdminUpdate env req conn memory = refuse env req conn := by
  rw [handleAdminDelete, handleAdminUpdate, refuse]
  cases hdb : env.db with
  | false => exact ⟨rfl, rfl⟩
  | true =>
      have hadmin : isAdminUser conn req = (false, checked req conn) := by
        refine Prod.ext ?_ rfl
        cases hrole : (isAdminUser conn req).1 with
        | false => rfl
        | true => exact absurd ⟨hdb, hrole⟩ h
      rw [hadmin]
      exact ⟨rfl, rfl⟩

theorem checked_videos (req : HttpRequest) (conn : Conn) : (checked req conn).db.videos = conn.db.videos := by
  have hchecked : isAdminUser conn req = ((isAdminUser conn req).1, checked req conn) := rfl
  exact (keeps_isAdminUser hchecked).videos

theorem updateVideo_db (hid : 0 < videoId) (hok : conn.stmt.ok = true) :
    updateVideo conn videoId title description =
      .ofReply (textReply "200 OK" "updated")
        (conn.next (conn.db.updateVideo videoId fun row =>
          { row with title := title, description := some description })) := by
  rw [updateVideo, if_neg (by omega), Conn.exec, dbUpdateVideoMetadata, if_pos hok]

theorem updateVideo_failed (hid : 0 < videoId) (hok : conn.stmt.ok = false) :
    updateVideo conn videoId title description =
      .ofReply (textReply "500 Internal Server Error" "update-failed") (conn.next conn.db) := by
  rw [updateVideo, if_neg (by omega), Conn.exec, dbUpdateVideoMetadata, if_neg (by simp [hok])]

theorem database_updateVideo_absent {db : Database} (f : VideoRow → VideoRow)
    (habsent : ¬ ∃ row ∈ db.videos, row.id = videoId) : db.updateVideo videoId f = db := by
  have hne : ∀ row ∈ db.videos, row.id ≠ videoId := fun row hrow hid => habsent ⟨row, hrow, hid⟩
  have hrows : (db.videos.map fun row => if row.id = videoId then f row else row) = db.videos :=
    (List.map_congr_left fun row hrow => if_neg (hne row hrow)).trans (List.map_id' db.videos)
  have hcount : (db.videos.countP fun row => row.id = videoId) = 0 :=
    List.countP_eq_zero.mpr fun row hrow => by simpa using hne row hrow
  rw [Database.updateVideo, hrows, hcount]
  rfl

theorem updateVideo_invalid (hid : videoId ≤ 0) :
    updateVideo conn videoId title description = .ofReply invalidVideoId conn := if_pos hid

end

/-- An administrator with the session `s`. -/
def sampleAdmin (videos : List VideoRow) : Conn :=
  ⟨⟨[⟨1, ascii "root", ascii "Root", ascii "hash", .admin⟩], [⟨1, ascii "s", 100⟩], videos, [], 1, 9, 0⟩, 0,
    fun _ => true, 0⟩

def sampleAdminRequest (path : String) : HttpRequest :=
  ⟨ascii "POST", ascii path, ascii "HTTP/1.1", [(ascii "authorization", ascii "Bearer s")]⟩

end OttQuic.Http
