import Mathlib.Data.List.Nodup
import OttQuic.Db.Conn
import OttQuic.Db.Sessions
import OttQuic.Lib.Transition

/-!
# The statements of the server

Every thread of the server works on one database, one statement at a time. `Statement` is what they execute, with
whatever values, and `tables` lets them do so in any order, at any time, some of the statements failing.
`Statement.effect` says once what a statement can do to the tables, and the invariants follow from it: the constraints
of the schema hold in every state (`schema_run`), and accounts are only added, never changed (`grown_run`).

What the handlers do with a connection is `Conn.Runs P`: they execute statements, each of which `P` allows.
-/

namespace OttQuic.Db

open Transition

/-- A statement of the server. It creates users without a privilege only. -/
inductive Statement where
  | select
  | createUser (username nickname passwordHash : Bytes)
  | createSession (userId : Int) (sessionId : Bytes) (ttlSeconds : Int)
  | deleteSession (sessionId : Bytes)
  | deleteExpired
  | createVideo (title : Bytes) (description : Option Bytes) (filePath : Bytes) (thumbnailPath segmentPath : Option Bytes)
      (duration : Int)
  | deleteVideo (videoId : Int)
  | updateSegmentPath (videoId : Int) (segmentPath : Bytes)
  | updateMetadata (videoId : Int) (title description : Bytes)
  | upsertWatch (userId videoId lastPosition : Int)

namespace Statement

def run (db : Database) (stmt : Stmt) : Statement → Except Rc Database
  | select => .ok db
  | createUser username nickname passwordHash =>
    (dbCreateUser db stmt username nickname passwordHash .user).map Prod.snd
  | createSession userId sessionId ttlSeconds => dbCreateSession db stmt userId sessionId ttlSeconds
  | deleteSession sessionId => dbDeleteSession db stmt sessionId
  | deleteExpired => dbDeleteExpiredSessions db stmt
  | createVideo title description filePath thumbnailPath segmentPath duration =>
    (dbCreateVideo db stmt title description filePath thumbnailPath segmentPath duration).map Prod.snd
  | deleteVideo videoId => dbDeleteVideoById db stmt videoId
  | updateSegmentPath videoId segmentPath => dbUpdateVideoSegmentPath db stmt videoId segmentPath
  | updateMetadata videoId title description => dbUpdateVideoMetadata db stmt videoId title description
  | upsertWatch userId videoId lastPosition => dbUpsertWatchHistory db stmt userId videoId lastPosition

/-- The tables after a statement: one that fails changes nothing. -/
def after (s : Statement) (db : Database) (stmt : Stmt) : Database :=
  match s.run db stmt with
  | .ok db => db
  | .error _ => db

end Statement

/-- `FOREIGN KEY(video_id) REFERENCES videos(id)`. -/
def Database.HasVideo (db : Database) (videoId : Int) : Prop := ∃ row ∈ db.videos, row.id = videoId

/-- The history of a user with a video. -/
def WatchRow.Is (userId videoId : Int) (row : WatchRow) : Prop := row.userId = userId ∧ row.videoId = videoId

instance (userId videoId : Int) (row : WatchRow) : Decidable (row.Is userId videoId) := by
  unfold WatchRow.Is
  infer_instance

/-- What a statement can do to the tables. -/
inductive Effect (db : Database) (stmt : Stmt) : Statement → Database → Prop where
  | nothing (s : Statement) : Effect db stmt s db
  | user {username nickname passwordHash : Bytes} (fresh : ∀ row ∈ db.users, row.username ≠ username) :
    Effect db stmt (.createUser username nickname passwordHash)
      { db with
        users := db.users ++ [⟨db.userSeq + 1, username, nickname, passwordHash, .user⟩]
        userSeq := db.userSeq + 1 }
  | session {userId ttlSeconds : Int} {sessionId : Bytes} (accepts : db.AcceptsSession userId sessionId) :
    Effect db stmt (.createSession userId sessionId ttlSeconds)
      { db with sessions := db.sessions ++ [⟨userId, sessionId, stmt.now + ttlSeconds⟩] }
  | sessionDeleted (sessionId : Bytes) : Effect db stmt (.deleteSession sessionId)
      { db with sessions := db.sessions.filter fun row => row.sessionId ≠ sessionId }
  | expired : Effect db stmt .deleteExpired
      { db with sessions := db.sessions.filter fun row => row.expiresAt > stmt.now }
  | video (title : Bytes) (description : Option Bytes) (filePath : Bytes) (thumbnailPath segmentPath : Option Bytes)
      (duration : Int) :
    Effect db stmt (.createVideo title description filePath thumbnailPath segmentPath duration)
      { db with
        videos := db.videos ++
          [⟨db.videoSeq + 1, title, description, filePath, thumbnailPath, segmentPath, duration, stmt.now⟩]
        videoSeq := db.videoSeq + 1
        videoChanges := db.videoChanges + 1 }
  | videoDeleted (videoId : Int) (ok : stmt.ok = true) : Effect db stmt (.deleteVideo videoId)
      { db with
        videos := db.videos.filter fun row => row.id ≠ videoId
        watchHistory := db.watchHistory.filter fun row => row.videoId ≠ videoId
        videoChanges := db.videoChanges + db.videos.countP fun row => row.id = videoId }
  | segmentPath (videoId : Int) (path : Bytes) : Effect db stmt (.updateSegmentPath videoId path)
      (db.updateVideo videoId fun row => { row with segmentPath := some path })
  | metadata (videoId : Int) (title description : Bytes) : Effect db stmt (.updateMetadata videoId title description)
      (db.updateVideo videoId fun row => { row with title := title, description := some description })
  | watchedAgain {userId videoId lastPosition : Int} (ok : stmt.ok = true)
      (found : ∃ row ∈ db.watchHistory, row.Is userId videoId) :
    Effect db stmt (.upsertWatch userId videoId lastPosition)
      { db with
        watchHistory := db.watchHistory.map fun row =>
          if row.userId = userId ∧ row.videoId = videoId then
            { row with lastPosition := lastPosition, updatedAt := stmt.now }
          else row }
  | watched {userId videoId lastPosition : Int} (ok : stmt.ok = true)
      (fresh : ∀ row ∈ db.watchHistory, ¬ row.Is userId videoId) (user : db.HasUser userId)
      (video : db.HasVideo videoId) :
    Effect db stmt (.upsertWatch userId videoId lastPosition)
      { db with watchHistory := db.watchHistory ++ [⟨userId, videoId, lastPosition, stmt.now⟩] }

variable {db db' : Database} {stmt : Stmt} {s : Statement} {es : List (Statement × Stmt)}

theorem upsert_effect (userId videoId lastPosition : Int) :
    Effect db stmt (.upsertWatch userId videoId lastPosition)
      ((Statement.upsertWatch userId videoId lastPosition).after db stmt) := by
  simp only [Statement.after, Statement.run, dbUpsertWatchHistory]
  by_cases hok : stmt.ok = true
  · rw [if_pos hok]
    by_cases hfound : (db.watchHistory.any fun row => row.userId = userId ∧ row.videoId = videoId) = true
    · rw [if_pos hfound]
      exact .watchedAgain hok (by simpa [WatchRow.Is] using hfound)
    · rw [if_neg hfound]
      have hfresh : ∀ row ∈ db.watchHistory, ¬ row.Is userId videoId := by simpa [WatchRow.Is] using hfound
      by_cases hrefs : (db.users.any fun row => row.id = userId) = true ∧ (db.videos.any fun row => row.id = videoId) = true
      · rw [if_pos hrefs]
        exact .watched hok hfresh (by simpa [Database.HasUser] using hrefs.1)
          (by simpa [Database.HasVideo] using hrefs.2)
      · rw [if_neg hrefs]
        exact .nothing _
  · rw [if_neg hok]
    exact .nothing _

/-- **What a statement does.** -/
theorem Statement.effect (s : Statement) (db : Database) (stmt : Stmt) : Effect db stmt s (s.after db stmt) := by
  cases s with
  | select => exact .nothing _
  | createUser username nickname passwordHash =>
      simp only [after, run, dbCreateUser]
      split_ifs with hok hused
      · exact .nothing _
      · exact .user (by simpa using hused)
      · exact .nothing _
  | createSession userId sessionId ttlSeconds =>
      simp only [after, run, dbCreateSession]
      split_ifs with hok haccepts
      · exact .session haccepts.2
      · exact .nothing _
      · exact .nothing _
  | deleteSession sessionId =>
      simp only [after, run, dbDeleteSession]
      split_ifs
      · exact .sessionDeleted sessionId
      · exact .nothing _
  | deleteExpired =>
      simp only [after, run, dbDeleteExpiredSessions]
      split_ifs
      · exact .expired
      · exact .nothing _
  | createVideo title description filePath thumbnailPath segmentPath duration =>
      simp only [after, run, dbCreateVideo]
      split_ifs
      · exact .video ..
      · exact .nothing _
  | deleteVideo videoId =>
      simp only [after, run, dbDeleteVideoById]
      split_ifs with hok
      · exact .videoDeleted videoId hok
      · exact .nothing _
  | updateSegmentPath videoId segmentPath =>
      simp only [after, run, dbUpdateVideoSegmentPath]
      split_ifs
      · exact .segmentPath videoId segmentPath
      · exact .nothing _
  | updateMetadata videoId title description =>
      simp only [after, run, dbUpdateVideoMetadata]
      split_ifs
      · exact .metadata videoId title description
      · exact .nothing _
  | upsertWatch userId videoId lastPosition => exact upsert_effect userId videoId lastPosition

/-! ### The schema -/

/-- The constraints of the schema. -/
structure Schema (db : Database) : Prop where
  /-- `id INTEGER PRIMARY KEY AUTOINCREMENT`. -/
  userIds : (db.users.map UserRow.id).Nodup ∧ 0 ≤ db.userSeq ∧ ∀ row ∈ db.users, 0 < row.id ∧ row.id ≤ db.userSeq
  usernames : (db.users.map UserRow.username).Nodup
  videoIds : (db.videos.map VideoRow.id).Nodup ∧ 0 ≤ db.videoSeq ∧
    ∀ row ∈ db.videos, 0 < row.id ∧ row.id ≤ db.videoSeq
  sessions : db.UniqueSessions
  sessionUsers : ∀ row ∈ db.sessions, db.HasUser row.userId
  /-- `UNIQUE(user_id, video_id)`. -/
  watched : (db.watchHistory.map fun row => (row.userId, row.videoId)).Nodup
  watchers : ∀ row ∈ db.watchHistory, db.HasUser row.userId ∧ db.HasVideo row.videoId

theorem schema_new : Schema ⟨[], [], [], [], 0, 0, 0⟩ := by
  constructor <;> simp [Database.UniqueSessions]

/-- The database, with the statements of the server in any order. -/
def tables : System Database (Statement × Stmt) where
  init := Schema
  step db e db' := db' = e.1.after db e.2

/-- The ids of users and videos, the next ones included, are `int`s. -/
structure IdsFit (db : Database) : Prop where
  users : db.userSeq + 1 < 2 ^ 31
  videos : db.videoSeq + 1 < 2 ^ 31

theorem Schema.toInt_userId {row : UserRow} (h : Schema db) (hfit : IdsFit db) (hrow : row ∈ db.users) :
    CString.toInt row.id = row.id := by
  have hbounds := h.userIds.2.2 row hrow
  have hseq := hfit.users
  exact CString.toInt_eq_iff.mpr ⟨by omega, by omega⟩

theorem Schema.toInt_sessionUser {session : SessionRow} (h : Schema db) (hfit : IdsFit db)
    (hsession : session ∈ db.sessions) : CString.toInt session.userId = session.userId := by
  obtain ⟨row, hrow, hid⟩ := h.sessionUsers session hsession
  rw [← hid]
  exact h.toInt_userId hfit hrow

theorem Schema.toInt_nextUser (h : Schema db) (hfit : IdsFit db) :
    CString.toInt (db.userSeq + 1) = db.userSeq + 1 := by
  have hseq := h.userIds.2.1
  exact CString.toInt_eq_iff.mpr ⟨by omega, hfit.users⟩

theorem Schema.toInt_nextVideo (h : Schema db) (hfit : IdsFit db) :
    CString.toInt (db.videoSeq + 1) = db.videoSeq + 1 := by
  have hseq := h.videoIds.2.1
  exact CString.toInt_eq_iff.mpr ⟨by omega, hfit.videos⟩

theorem nodup_map_append {α β : Type} {key : α → β} {rows : List α} {row : α} (h : (rows.map key).Nodup)
    (hfresh : ∀ other ∈ rows, key other ≠ key row) : ((rows ++ [row]).map key).Nodup := by
  rw [List.map_append, List.map_singleton, List.nodup_append]
  refine ⟨h, List.pairwise_singleton _ _, fun a ha b hb => ?_⟩
  obtain ⟨other, hother, rfl⟩ := List.mem_map.mp ha
  rw [List.mem_singleton.mp hb]
  exact hfresh other hother

theorem nodup_map_filter {α β : Type} {key : α → β} {rows : List α} (keep : α → Bool) (h : (rows.map key).Nodup) :
    ((rows.filter keep).map key).Nodup :=
  h.sublist (List.filter_sublist.map key)

theorem find?_key {α β : Type} [DecidableEq β] {key : α → β} {rows : List α} {row : α} (h : (rows.map key).Nodup)
    (hmem : row ∈ rows) : rows.find? (fun other => key other = key row) = some row := by
  cases hfound : rows.find? fun other => key other = key row with
  | none => exact absurd (decide_eq_true rfl) (List.find?_eq_none.mp hfound row hmem)
  | some other =>
      have hkey : key other = key row := by simpa using List.find?_some hfound
      rw [List.inj_on_of_nodup_map h (List.mem_of_find?_eq_some hfound) hmem hkey]

theorem map_key_map {α β : Type} {key : α → β} {rows : List α} {f : α → α} (h : ∀ row, key (f row) = key row) :
    (rows.map f).map key = rows.map key := by
  rw [List.map_map]
  exact List.map_congr_left fun row _ => h row

theorem autoincrement {α : Type} {key : α → Int} {rows : List α} {seq : Int} {row : α}
    (h : (rows.map key).Nodup ∧ 0 ≤ seq ∧ ∀ other ∈ rows, 0 < key other ∧ key other ≤ seq) (hrow : key row = seq + 1) :
    ((rows ++ [row]).map key).Nodup ∧ 0 ≤ seq + 1 ∧ ∀ other ∈ rows ++ [row], 0 < key other ∧ key other ≤ seq + 1 := by
  obtain ⟨hnodup, hseq, hbounds⟩ := h
  refine ⟨nodup_map_append hnodup fun other hother => ?_, by omega, fun other hother => ?_⟩
  · have hold := hbounds other hother
    omega
  · rcases List.mem_append.mp hother with hold | hnew
    · have hbound := hbounds other hold
      omega
    · rw [List.mem_singleton.mp hnew, hrow]
      omega

theorem HasUser.add {userId : Int} (users : List UserRow) (h : db.HasUser userId) :
    ∃ row ∈ db.users ++ users, row.id = userId := by
  obtain ⟨row, hrow, hid⟩ := h
  exact ⟨row, List.mem_append_left _ hrow, hid⟩

theorem Schema.updateVideo {videoId : Int} {f : VideoRow → VideoRow} (h : Schema db) (hf : ∀ row, (f row).id = row.id) :
    Schema (db.updateVideo videoId f) := by
  have hid (row : VideoRow) : (if row.id = videoId then f row else row).id = row.id := by
    split_ifs
    · exact hf row
    · rfl
  refine ⟨h.userIds, h.usernames, ⟨?_, h.videoIds.2.1, ?_⟩, h.sessions, h.sessionUsers, h.watched, ?_⟩
  · show ((db.videos.map _).map VideoRow.id).Nodup
    rw [map_key_map hid]
    exact h.videoIds.1
  · intro row hrow
    obtain ⟨old, hold, rfl⟩ := List.mem_map.mp hrow
    rw [hid old]
    exact h.videoIds.2.2 old hold
  · intro row hrow
    obtain ⟨huser, old, hold, hvideo⟩ := h.watchers row hrow
    exact ⟨huser, _, List.mem_map_of_mem hold, (hid old).trans hvideo⟩

theorem Schema.effect (h : Schema db) (he : Effect db stmt s db') : Schema db' := by
  cases he with
  | nothing => exact h
  | user fresh =>
      exact ⟨autoincrement h.userIds rfl, nodup_map_append h.usernames fresh, h.videoIds, h.sessions,
        fun row hrow => HasUser.add _ (h.sessionUsers row hrow), h.watched,
        fun row hrow => ⟨HasUser.add _ (h.watchers row hrow).1, (h.watchers row hrow).2⟩⟩
  | session accepts =>
      refine ⟨h.userIds, h.usernames, h.videoIds, nodup_map_append h.sessions accepts.1, ?_, h.watched, h.watchers⟩
      intro row hrow
      rcases List.mem_append.mp hrow with hold | hnew
      · exact h.sessionUsers row hold
      · rw [List.mem_singleton.mp hnew]
        exact accepts.2
  | sessionDeleted =>
      exact ⟨h.userIds, h.usernames, h.videoIds, nodup_map_filter _ h.sessions,
        fun row hrow => h.sessionUsers row (List.mem_of_mem_filter hrow), h.watched, h.watchers⟩
  | expired =>
      exact ⟨h.userIds, h.usernames, h.videoIds, nodup_map_filter _ h.sessions,
        fun row hrow => h.sessionUsers row (List.mem_of_mem_filter hrow), h.watched, h.watchers⟩
  | video =>
      refine ⟨h.userIds, h.usernames, autoincrement h.videoIds rfl, h.sessions, h.sessionUsers, h.watched, ?_⟩
      intro row hrow
      obtain ⟨huser, video, hvideo, hid⟩ := h.watchers row hrow
      exact ⟨huser, video, List.mem_append_left _ hvideo, hid⟩
  | videoDeleted videoId =>
      refine ⟨h.userIds, h.usernames, ⟨nodup_map_filter _ h.videoIds.1, h.videoIds.2.1,
        fun row hrow => h.videoIds.2.2 row (List.mem_of_mem_filter hrow)⟩, h.sessions, h.sessionUsers,
        nodup_map_filter _ h.watched, ?_⟩
      intro row hrow
      obtain ⟨hold, hne⟩ := List.mem_filter.mp hrow
      obtain ⟨huser, video, hvideo, hid⟩ := h.watchers row hold
      refine ⟨huser, video, List.mem_filter.mpr ⟨hvideo, ?_⟩, hid⟩
      rw [hid]
      exact hne
  | segmentPath => exact h.updateVideo fun _ => rfl
  | metadata => exact h.updateVideo fun _ => rfl
  | watchedAgain =>
      refine ⟨h.userIds, h.usernames, h.videoIds, h.sessions, h.sessionUsers, ?_, ?_⟩
      · show ((db.watchHistory.map _).map _).Nodup
        rw [map_key_map]
        · exact h.watched
        · intro row
          split_ifs <;> rfl
      · intro row hrow
        obtain ⟨old, hold, rfl⟩ := List.mem_map.mp hrow
        have hrefs := h.watchers old hold
        split_ifs <;> exact hrefs
  | watched _ fresh user video =>
      refine ⟨h.userIds, h.usernames, h.videoIds, h.sessions, h.sessionUsers, nodup_map_append h.watched ?_, ?_⟩
      · intro other hother heq
        exact fresh other hother (Prod.mk.inj heq)
      · intro row hrow
        rcases List.mem_append.mp hrow with hold | hnew
        · exact h.watchers row hold
        · rw [List.mem_singleton.mp hnew]
          exact ⟨user, video⟩

/-- **The schema holds** whatever the threads do. -/
theorem schema_run (h : tables.Run db es db') (hschema : Schema db) : Schema db' :=
  h.preserves hschema fun db e _ hdb hstep => hstep ▸ hdb.effect (e.1.effect db e.2)

/-! ### Accounts -/

/-- The accounts of `db` are in `db'` as they were, and those that have come later have no privilege. -/
structure Grown (db db' : Database) : Prop where
  kept : db.users <+: db'.users
  users : ∀ row ∈ db'.users, row ∈ db.users ∨ row.role = .user
  userSeq : db.userSeq ≤ db'.userSeq
  videoSeq : db.videoSeq ≤ db'.videoSeq

theorem Grown.refl (db : Database) : Grown db db :=
  ⟨List.prefix_refl _, fun _ hrow => .inl hrow, le_refl _, le_refl _⟩

theorem Grown.effect {db₀ : Database} (h : Grown db₀ db) (he : Effect db stmt s db') : Grown db₀ db' := by
  cases he with
  | user =>
      refine ⟨h.kept.trans (List.prefix_append _ _), fun row hrow => ?_, h.userSeq.trans (by simp), h.videoSeq⟩
      rcases List.mem_append.mp hrow with hold | hnew
      · exact h.users row hold
      · rw [List.mem_singleton.mp hnew]
        exact .inr rfl
  | video => exact ⟨h.kept, h.users, h.userSeq, h.videoSeq.trans (by simp)⟩
  | _ => exact ⟨h.kept, h.users, h.userSeq, h.videoSeq⟩

theorem Grown.idsFit (h : Grown db db') (hfit : IdsFit db') : IdsFit db := by
  obtain ⟨husers, hvideos⟩ := hfit
  exact ⟨lt_of_le_of_lt (Int.add_le_add_right h.userSeq 1) husers,
    lt_of_le_of_lt (Int.add_le_add_right h.videoSeq 1) hvideos⟩

theorem grown_run (h : tables.Run db es db') : Grown db db' :=
  h.preserves (Grown.refl db) fun db₁ e _ hgrown hstep => hstep ▸ hgrown.effect (e.1.effect db₁ e.2)

/-! ### Videos -/

/-- The statement changes or deletes the video with this id. -/
def Statement.Names (s : Statement) (videoId : Int) : Prop :=
  s = .deleteVideo videoId ∨ (∃ path, s = .updateSegmentPath videoId path) ∨
    ∃ title description, s = .updateMetadata videoId title description

theorem Effect.video_stays {row : VideoRow} (he : Effect db stmt s db') (hrow : row ∈ db.videos) :
    row ∈ db'.videos ∨ s.Names row.id := by
  have hupdate (videoId : Int) (f : VideoRow → VideoRow) (hne : row.id ≠ videoId) :
      row ∈ (db.updateVideo videoId f).videos :=
    List.mem_map.mpr ⟨row, hrow, if_neg hne⟩
  cases he with
  | video => exact .inl (List.mem_append_left _ hrow)
  | videoDeleted videoId =>
      by_cases hid : row.id = videoId
      · exact .inr (.inl (by rw [hid]))
      · exact .inl (List.mem_filter.mpr ⟨hrow, decide_eq_true hid⟩)
  | segmentPath videoId path =>
      by_cases hid : row.id = videoId
      · exact .inr (.inr (.inl ⟨path, by rw [hid]⟩))
      · exact .inl (hupdate videoId _ hid)
  | metadata videoId title description =>
      by_cases hid : row.id = videoId
      · exact .inr (.inr (.inr ⟨title, description, by rw [hid]⟩))
      · exact .inl (hupdate videoId _ hid)
  | _ => exact .inl hrow

/-! ### Statements of one connection -/

namespace Conn

def execute (conn : Conn) (s : Statement) : Conn := conn.next (s.after conn.db conn.stmt)

/-- What is done between the two is executing statements of the server, each of which `P` allows. -/
def Runs (P : Statement → Prop) (conn conn' : Conn) : Prop :=
  ∃ statements : List Statement, (∀ s ∈ statements, P s) ∧ conn' = statements.foldl execute conn

variable {conn conn' conn'' : Conn} {P Q : Statement → Prop}

theorem Runs.refl (conn : Conn) : Runs P conn conn := ⟨[], List.forall_mem_nil P, rfl⟩

theorem Runs.trans (h : Runs P conn conn') (h' : Runs P conn' conn'') : Runs P conn conn'' := by
  obtain ⟨before, hbefore, rfl⟩ := h
  obtain ⟨after, hafter, rfl⟩ := h'
  exact ⟨before ++ after, List.forall_mem_append.mpr ⟨hbefore, hafter⟩, (List.foldl_append ..).symm⟩

theorem Runs.mono (h : Runs P conn conn') (hPQ : ∀ s, P s → Q s) : Runs Q conn conn' := by
  obtain ⟨statements, hall, rfl⟩ := h
  exact ⟨statements, fun s hs => hPQ s (hall s hs), rfl⟩

theorem runs_singleton {s : Statement} (hs : P s) : Runs P conn (conn.execute s) :=
  ⟨[s], List.forall_mem_singleton.mpr hs, rfl⟩

theorem runs_query {α : Type} {f : Database → Stmt → Except Rc α} {result : Except Rc α} (hs : P .select)
    (h : conn.query f = (result, conn')) : Runs P conn conn' := by
  cases h
  exact runs_singleton hs

theorem runs_exec {s : Statement} (hs : P s) {ok : Bool} (h : (conn.exec fun db stmt => s.run db stmt) = (ok, conn')) :
    Runs P conn conn' := by
  have hexecute : conn.execute s = conn' := by
    simp only [Conn.exec] at h
    simp only [execute, Statement.after]
    cases hrun : s.run conn.db conn.stmt with
    | ok db =>
        rw [hrun] at h
        exact (Prod.mk.inj h).2
    | error rc =>
        rw [hrun] at h
        exact (Prod.mk.inj h).2
  rw [← hexecute]
  exact runs_singleton hs

theorem runs_insert {s : Statement} (hs : P s) {f : Database → Stmt → Except Rc (Int × Database)} {id : Option Int}
    (hf : ∀ db stmt, s.run db stmt = (f db stmt).map Prod.snd) (h : conn.insert f = (id, conn')) :
    Runs P conn conn' := by
  have hexecute : conn.execute s = conn' := by
    unfold Conn.insert at h
    simp only [execute, Statement.after, hf]
    cases hrun : f conn.db conn.stmt with
    | ok inserted =>
        rw [hrun] at h
        exact (Prod.mk.inj h).2
    | error rc =>
        rw [hrun] at h
        exact (Prod.mk.inj h).2
  rw [← hexecute]
  exact runs_singleton hs

theorem foldl_execute (statements : List Statement) (conn : Conn) :
    (statements.foldl execute conn).now = conn.now ∧ (statements.foldl execute conn).fates = conn.fates := by
  induction statements generalizing conn with
  | nil => exact ⟨rfl, rfl⟩
  | cons s statements ih => exact ih (conn.execute s)

/-- **The rule for what statements do**: what holds before, and is kept by every statement that is allowed, holds
after. -/
theorem Runs.preserves {I : Database → Prop} (h : Runs P conn conn') (hconn : I conn.db)
    (hstep : ∀ db stmt s db', stmt.now = conn.now → I db → P s → Effect db stmt s db' → I db') : I conn'.db := by
  obtain ⟨statements, hall, rfl⟩ := h
  induction statements using List.reverseRecOn with
  | nil => exact hconn
  | append_singleton statements s ih =>
      rw [List.foldl_append]
      exact hstep _ _ s _ (foldl_execute statements conn).1 (ih fun s' hs' => hall s' (List.mem_append_left _ hs'))
        (hall s (List.mem_append_right _ (List.mem_singleton_self s))) (s.effect _ _)

theorem Runs.tables (h : Runs P conn conn') :
    (∃ es, Db.tables.Run conn.db es conn'.db ∧ ∀ e ∈ es, P e.1 ∧ e.2.now = conn.now) ∧ conn'.now = conn.now ∧
      conn'.fates = conn.fates := by
  obtain ⟨statements, hall, rfl⟩ := h
  refine ⟨?_, foldl_execute statements conn⟩
  induction statements using List.reverseRecOn with
  | nil => exact ⟨[], .nil, List.forall_mem_nil _⟩
  | append_singleton statements s ih =>
      obtain ⟨hbefore, hlast⟩ := List.forall_mem_append.mp hall
      obtain ⟨es, hrun, hes⟩ := ih hbefore
      let before := statements.foldl execute conn
      rw [List.foldl_append]
      refine ⟨es ++ [(s, before.stmt)], hrun.snoc rfl, List.forall_mem_append.mpr ⟨hes, ?_⟩⟩
      exact List.forall_mem_singleton.mpr ⟨List.forall_mem_singleton.mp hlast, (foldl_execute statements conn).1⟩

theorem Runs.clock (h : Runs P conn conn') : conn.now ≤ conn'.now ∧ conn'.fates = conn.fates := by
  obtain ⟨-, hnow, hfates⟩ := h.tables
  exact ⟨Int.le_of_eq hnow.symm, hfates⟩

theorem Runs.sessions (h : Runs P conn conn') : ∀ row ∈ conn'.db.sessions,
    row ∈ conn.db.sessions ∨ ∃ ttlSeconds, P (.createSession row.userId row.sessionId ttlSeconds) := by
  refine h.preserves (I := fun db => ∀ row ∈ db.sessions, row ∈ conn.db.sessions ∨
    ∃ ttlSeconds, P (.createSession row.userId row.sessionId ttlSeconds)) (fun row hrow => .inl hrow) ?_
  intro db stmt s db' _ hdb hs he row hrow
  cases he with
  | session =>
      rcases List.mem_append.mp hrow with hold | hnew
      · exact hdb row hold
      · rw [List.mem_singleton.mp hnew]
        exact .inr ⟨_, hs⟩
  | sessionDeleted => exact hdb row (List.mem_of_mem_filter hrow)
  | expired => exact hdb row (List.mem_of_mem_filter hrow)
  | _ => exact hdb row hrow

theorem Runs.session_stays {row : SessionRow} (h : Runs P conn conn') (hrow : row ∈ conn.db.sessions)
    (hlive : conn.now < row.expiresAt) : row ∈ conn'.db.sessions ∨ P (.deleteSession row.sessionId) := by
  refine h.preserves (I := fun db => row ∈ db.sessions ∨ P (.deleteSession row.sessionId)) (.inl hrow) ?_
  rintro db stmt s db' hnow (hin | hdeleted) hs he
  · cases he with
    | session => exact .inl (List.mem_append_left _ hin)
    | sessionDeleted sessionId =>
        by_cases hid : row.sessionId = sessionId
        · exact .inr (hid ▸ hs)
        · exact .inl (List.mem_filter.mpr ⟨hin, decide_eq_true hid⟩)
    | expired =>
        refine .inl (List.mem_filter.mpr ⟨hin, decide_eq_true ?_⟩)
        rw [hnow]
        exact hlive
    | _ => exact .inl hin
  · exact .inr hdeleted

theorem Runs.video_stays {row : VideoRow} (h : Runs P conn conn') (hrow : row ∈ conn.db.videos) :
    row ∈ conn'.db.videos ∨ ∃ s, P s ∧ s.Names row.id := by
  refine h.preserves (I := fun db => row ∈ db.videos ∨ ∃ s, P s ∧ s.Names row.id) (.inl hrow) ?_
  rintro db stmt s db' - (hin | hnamed) hs he
  · rcases he.video_stays hin with hstays | hnames
    · exact .inl hstays
    · exact .inr ⟨s, hs, hnames⟩
  · exact .inr hnamed

end Conn

end OttQuic.Db
