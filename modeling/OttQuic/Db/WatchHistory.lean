import Mathlib.Logic.Function.Basic
import OttQuic.Db.Statements

/-!
# The watch history as a store

For its clients the table `watch_history` is a store: an update that is acknowledged puts the position of a user in a
video, a read gets the position that was put last, and deleting a video deletes its positions. `Watched` keeps beside the
tables what the acknowledged statements say, and `history_agrees` that a read agrees with it, in whatever order the
statements of all threads are executed.
-/

namespace OttQuic.Db

open Transition

/-- The position of a user in a video, and when it was put. -/
abbrev Positions := Int → Int → Option (Int × Int)

namespace Positions

def put (positions : Positions) (userId videoId : Int) (position : Int × Int) : Positions :=
  fun user video => if user = userId ∧ video = videoId then some position else positions user video

def forget (positions : Positions) (videoId : Int) : Positions :=
  fun user video => if video = videoId then none else positions user video

end Positions

/-- The tables, and what has been acknowledged. -/
structure Watched where
  db : Database
  positions : Positions

/-- What a statement says when it is acknowledged. -/
def Statement.positions (now : Int) (positions : Positions) : Statement → Positions
  | upsertWatch userId videoId lastPosition => positions.put userId videoId (lastPosition, now)
  | deleteVideo videoId => positions.forget videoId
  | _ => positions

def Watched.next (w : Watched) (s : Statement) (stmt : Stmt) : Watched :=
  match s.run w.db stmt with
  | .ok db => ⟨db, s.positions stmt.now w.positions⟩
  | .error _ => w

/-- A read finds what was put last, and nothing else. -/
def Watched.Reads (w : Watched) : Prop := ∀ now userId videoId,
  dbGetWatchHistory w.db ⟨true, now⟩ userId videoId =
    match w.positions userId videoId with
    | some (position, updatedAt) => .ok ⟨userId, videoId, position, updatedAt⟩
    | none => .error .notFound

/-- From tables and positions that agree. -/
def watchSystem : System Watched (Statement × Stmt) where
  init w := Schema w.db ∧ w.Reads
  step w e w' := w' = w.next e.1 e.2

variable {db db' : Database} {stmt : Stmt} {userId videoId lastPosition : Int} {w w' : Watched}
  {es : List (Statement × Stmt)}

/-! ### Acknowledged statements -/

/-- The row after an update. -/
def WatchRow.put (userId videoId lastPosition now : Int) (row : WatchRow) : WatchRow :=
  if row.userId = userId ∧ row.videoId = videoId then { row with lastPosition := lastPosition, updatedAt := now } else row

theorem upsertWatch_ok (h : dbUpsertWatchHistory db stmt userId videoId lastPosition = .ok db') : stmt.ok = true ∧
    ((∃ row ∈ db.watchHistory, row.Is userId videoId) ∧
        db' = { db with watchHistory := db.watchHistory.map (WatchRow.put userId videoId lastPosition stmt.now) } ∨
      ((∀ row ∈ db.watchHistory, ¬ row.Is userId videoId) ∧ db.HasUser userId ∧ db.HasVideo videoId) ∧
        db' = { db with watchHistory := db.watchHistory ++ [⟨userId, videoId, lastPosition, stmt.now⟩] }) := by
  unfold dbUpsertWatchHistory at h
  split_ifs at h with hok hfound hrefs
  · exact ⟨hok, .inl ⟨by simpa [WatchRow.Is] using hfound, (Except.ok.inj h).symm⟩⟩
  · exact ⟨hok, .inr ⟨⟨by simpa [WatchRow.Is] using hfound, by simpa [Database.HasUser] using hrefs.1,
      by simpa [Database.HasVideo] using hrefs.2⟩, (Except.ok.inj h).symm⟩⟩

/-- **When an update is acknowledged.** -/
theorem upsertWatch_ok_iff (h : Schema db) : (∃ db', dbUpsertWatchHistory db stmt userId videoId lastPosition = .ok db') ↔
    stmt.ok = true ∧ db.HasUser userId ∧ db.HasVideo videoId := by
  constructor
  · rintro ⟨db', hupsert⟩
    obtain ⟨hok, ⟨⟨row, hrow, rfl, rfl⟩, -⟩ | ⟨⟨-, huser, hvideo⟩, -⟩⟩ := upsertWatch_ok hupsert
    · exact ⟨hok, h.watchers row hrow⟩
    · exact ⟨hok, huser, hvideo⟩
  · rintro ⟨hok, huser, hvideo⟩
    have husers : (db.users.any fun row => row.id = userId) = true := by simpa [Database.HasUser] using huser
    have hvideos : (db.videos.any fun row => row.id = videoId) = true := by simpa [Database.HasVideo] using hvideo
    unfold dbUpsertWatchHistory
    rw [if_pos hok]
    split_ifs with hfound hrefs
    · exact ⟨_, rfl⟩
    · exact ⟨_, rfl⟩
    · exact absurd ⟨husers, hvideos⟩ hrefs

theorem Effect.watchHistory {s : Statement} (h : Effect db stmt s db') (hupsert : ∀ u v p, s ≠ .upsertWatch u v p)
    (hdelete : ∀ v, s ≠ .deleteVideo v) : db'.watchHistory = db.watchHistory := by
  cases h with
  | videoDeleted videoId => exact absurd rfl (hdelete videoId)
  | watchedAgain => exact absurd rfl (hupsert _ _ _)
  | watched => exact absurd rfl (hupsert _ _ _)
  | _ => rfl

/-! ### Reading -/

/-- What the table has for a user and a video. -/
def Database.position (db : Database) (userId videoId : Int) : Option (Int × Int) :=
  (db.watchHistory.find? fun row => row.userId = userId ∧ row.videoId = videoId).map fun row =>
    (row.lastPosition, row.updatedAt)

theorem dbGetWatchHistory_eq (db : Database) (now userId videoId : Int) :
    dbGetWatchHistory db ⟨true, now⟩ userId videoId =
      match db.position userId videoId with
      | some (position, updatedAt) => .ok ⟨userId, videoId, position, updatedAt⟩
      | none => .error .notFound := by
  unfold dbGetWatchHistory Database.position
  cases hfind : db.watchHistory.find? fun row => row.userId = userId ∧ row.videoId = videoId with
  | none => rfl
  | some row =>
      have hkey : row.userId = userId ∧ row.videoId = videoId := by simpa using List.find?_some hfind
      obtain ⟨rfl, rfl⟩ := hkey
      rfl

theorem reads_iff : w.Reads ↔ ∀ userId videoId, w.db.position userId videoId = w.positions userId videoId := by
  constructor
  · intro h userId videoId
    have hread := h 0 userId videoId
    rw [dbGetWatchHistory_eq] at hread
    cases hposition : w.db.position userId videoId with
    | none =>
        rw [hposition] at hread
        cases hput : w.positions userId videoId with
        | none => rfl
        | some found =>
            rw [hput] at hread
            cases hread
    | some found =>
        rw [hposition] at hread
        cases hput : w.positions userId videoId with
        | none =>
            rw [hput] at hread
            cases hread
        | some put =>
            rw [hput] at hread
            simp only [Except.ok.injEq, WatchRow.mk.injEq, true_and] at hread
            exact congrArg some (Prod.ext hread.1 hread.2)
  · intro h now userId videoId
    rw [dbGetWatchHistory_eq, h userId videoId]

theorem WatchRow.put_is (row : WatchRow) (now u v : Int) :
    (row.put userId videoId lastPosition now).Is u v ↔ row.Is u v := by
  unfold WatchRow.put
  split_ifs <;> exact Iff.rfl

theorem position_put (u v : Int) (hfound : ∃ row ∈ db.watchHistory, row.Is userId videoId) :
    Database.position { db with watchHistory := db.watchHistory.map (WatchRow.put userId videoId lastPosition stmt.now) }
      u v = if u = userId ∧ v = videoId then some (lastPosition, stmt.now) else db.position u v := by
  have hsame : ((fun row : WatchRow => decide (row.userId = u ∧ row.videoId = v)) ∘
      WatchRow.put userId videoId lastPosition stmt.now) = fun row => decide (row.userId = u ∧ row.videoId = v) := by
    funext row
    exact decide_eq_decide.mpr (row.put_is stmt.now u v)
  unfold Database.position
  rw [List.find?_map, hsame, Option.map_map]
  cases hfind : db.watchHistory.find? fun row => row.userId = u ∧ row.videoId = v with
  | none =>
      have hnot : ¬ (u = userId ∧ v = videoId) := by
        rintro ⟨rfl, rfl⟩
        obtain ⟨row, hrow, his⟩ := hfound
        exact List.find?_eq_none.mp hfind row hrow (decide_eq_true his)
      rw [if_neg hnot]
      rfl
  | some row =>
      have hkey : row.userId = u ∧ row.videoId = v := by simpa using List.find?_some hfind
      obtain ⟨rfl, rfl⟩ := hkey
      simp only [Option.map_some, Function.comp_apply, WatchRow.put]
      split_ifs <;> rfl

theorem position_add (u v : Int) (hfresh : ∀ row ∈ db.watchHistory, ¬ row.Is userId videoId) :
    Database.position { db with watchHistory := db.watchHistory ++ [⟨userId, videoId, lastPosition, stmt.now⟩] } u v =
      if u = userId ∧ v = videoId then some (lastPosition, stmt.now) else db.position u v := by
  unfold Database.position
  rw [List.find?_append]
  by_cases hkey : u = userId ∧ v = videoId
  · obtain ⟨rfl, rfl⟩ := hkey
    have hnone : (db.watchHistory.find? fun row => row.userId = u ∧ row.videoId = v) = none :=
      List.find?_eq_none.mpr fun row hrow heq => hfresh row hrow (of_decide_eq_true heq)
    rw [hnone]
    simp
  · have hnew : ([⟨userId, videoId, lastPosition, stmt.now⟩].find? fun row : WatchRow =>
        row.userId = u ∧ row.videoId = v) = none :=
      List.find?_eq_none.mpr fun row hrow heq => by
        rw [List.mem_singleton.mp hrow] at heq
        have hsame := of_decide_eq_true heq
        exact hkey ⟨hsame.1.symm, hsame.2.symm⟩
    rw [hnew, Option.or_none, if_neg hkey]

theorem position_forget (u v : Int) (hdelete : dbDeleteVideoById db stmt videoId = .ok db') :
    db'.position u v = if v = videoId then none else db.position u v := by
  unfold dbDeleteVideoById at hdelete
  split_ifs at hdelete
  obtain rfl := Except.ok.inj hdelete
  unfold Database.position
  rw [List.find?_filter]
  split_ifs with hv
  · subst hv
    rw [List.find?_eq_none.mpr]
    · rfl
    · intro row _
      simp +contextual
  · congr 2
    funext row
    by_cases hvideo : row.videoId = v
    · have hne : row.videoId ≠ videoId := hvideo ▸ hv
      simp [hne]
    · simp [hvideo]

theorem Watched.next_reads (s : Statement) (hschema : Schema w.db) (h : w.Reads) :
    Schema (w.next s stmt).db ∧ (w.next s stmt).Reads := by
  have heffect := s.effect w.db stmt
  have hdb : (w.next s stmt).db = s.after w.db stmt := by
    unfold Watched.next Statement.after
    cases s.run w.db stmt <;> rfl
  refine ⟨hdb ▸ hschema.effect heffect, ?_⟩
  rw [reads_iff] at h ⊢
  intro u v
  unfold Watched.next
  cases hrun : s.run w.db stmt with
  | error rc => exact h u v
  | ok db' =>
      have hafter : s.after w.db stmt = db' := by rw [Statement.after, hrun]
      rw [hafter] at heffect
      have hother (hupsert : ∀ u v p, s ≠ .upsertWatch u v p) (hdelete : ∀ v, s ≠ .deleteVideo v) :
          db'.position u v = w.positions u v := by
        rw [Database.position, heffect.watchHistory hupsert hdelete]
        exact h u v
      cases s with
      | upsertWatch userId videoId lastPosition =>
          show db'.position u v = w.positions.put userId videoId (lastPosition, stmt.now) u v
          rw [Positions.put, ← h u v]
          obtain ⟨-, ⟨hfound, rfl⟩ | ⟨⟨hfresh, -, -⟩, rfl⟩⟩ := upsertWatch_ok hrun
          · exact position_put u v hfound
          · exact position_add u v hfresh
      | deleteVideo videoId =>
          show db'.position u v = w.positions.forget videoId u v
          rw [Positions.forget, ← h u v]
          exact position_forget u v hrun
      | _ => exact hother (fun _ _ _ h => by cases h) fun _ h => by cases h

theorem watchSystem_sound (h : watchSystem.Run w es w') (hinit : watchSystem.init w) : Schema w'.db ∧ w'.Reads :=
  h.preserves hinit fun _ e _ hw hstep => hstep ▸ Watched.next_reads e.1 hw.1 hw.2

/-- **The watch history is a store.** Whatever statements are executed, in whatever order, a read gets the position that
was put last and acknowledged, unless the video has been deleted since; and an update is acknowledged exactly when it is
executed and its user and its video are there. -/
theorem history_agrees (h : watchSystem.Run w es w') (hinit : watchSystem.init w) :
    w'.Reads ∧ ∀ stmt userId videoId position,
      (∃ db', dbUpsertWatchHistory w'.db stmt userId videoId position = .ok db') ↔
        stmt.ok = true ∧ w'.db.HasUser userId ∧ w'.db.HasVideo videoId := by
  obtain ⟨hschema, hreads⟩ := watchSystem_sound h hinit
  exact ⟨hreads, fun _ _ _ _ => upsertWatch_ok_iff hschema⟩

/-- A user watches a video twice. -/
theorem history_agrees_twice :
    let watch (seconds : Int) : Statement × Stmt := (.upsertWatch 1 1 seconds, ⟨true, seconds⟩)
    let es := [(.createUser [97] [65] [104], ⟨true, 0⟩), (.createVideo [] none [118] none none 60, ⟨true, 0⟩), watch 5,
      watch 9]
    let w : Watched := ⟨⟨[], [], [], [], 0, 0, 0⟩, fun _ _ => none⟩
    let w' := es.foldl (fun w e => w.next e.1 e.2) w
    w'.positions 1 1 = some (9, 9) ∧ w'.Reads := by
  intro watch es w w'
  have hrun : watchSystem.Run w es w' := by
    refine System.run_cons_iff.mpr ⟨_, rfl, System.run_cons_iff.mpr ⟨_, rfl, ?_⟩⟩
    exact System.run_cons_iff.mpr ⟨_, rfl, System.run_cons_iff.mpr ⟨_, rfl, .nil⟩⟩
  exact ⟨by decide, (history_agrees hrun ⟨schema_new, fun _ _ _ => rfl⟩).1⟩

end OttQuic.Db
