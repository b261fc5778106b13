import OttQuic.Http.AdminBody
import OttQuic.Http.JsonBody

/-!
# What an update overwrites

`db_update_video_metadata` always writes both columns, and `handle_admin_update` gives it an empty string for every
field that `json_extract_string` does not read. `update_preserves_iff` says when an update that is answered with
"updated" has put into each column what the request supplies for it, or what was there before.
-/

namespace OttQuic.Http

open CString Db Json Utf8

/-- The body is the JSON text of an object with this string as the member. -/
def Supplied (body : Bytes) (key : String) (s : Bytes) : Prop :=
  JsonReply body fun v => ∃ ms t, v = .obj ms ∧ lookup key.toList ms = some (.str t) ∧ encode t = s

/-- The row has in each of the two columns what is supplied, or what it had. -/
structure Preserved (body : Bytes) (row row' : VideoRow) : Prop where
  id : row'.id = row.id
  title : row'.title = row.title ∨ Supplied body "title" row'.title
  description : row'.description = row.description ∨
    ∃ s, row'.description = some s ∧ Supplied body "description" s

/-- The text reads `s` for the key: behind the first place where the key stands in quotes, and blanks and colons,
there is `s` in quotes, and it fits. -/
def Reads (json : Bytes) (key : String) (outSize : Nat) (s : Bytes) : Prop :=
  ∃ p rest, strstr (quoted key) json = some (quoted key ++ p) ∧
    (p.dropWhile fun c => c = 32 ∨ c = 9 ∨ c = 58) = 34 :: (s ++ 34 :: rest) ∧ 34 ∉ s ∧ s ≠ [] ∧ s.length < outSize

/-- What the update does to a column is no loss: the string that is read is supplied or was there, and where none is
read the column was empty, or the empty string is supplied. -/
structure Spared (body json : Bytes) (key : String) (outSize : Nat) (previous : Option Bytes) : Prop where
  read : ∀ s, Reads json key outSize s → previous = some s ∨ Supplied body key s
  unread : (∀ s, ¬ Reads json key outSize s) → previous = some [] ∨ Supplied body key []

/-- The update is answered with "updated". -/
structure Updates (env : ApiEnv) (req : HttpRequest) (conn : Conn) (json : Bytes) : Prop where
  permitted : Permitted env req conn
  videoId : 0 < videoIdOf json
  executes : (checked req conn).stmt.ok = true

section

variable {body json s : Bytes} {key : String} {outSize : Nat} {previous : Option Bytes}

theorem stringValue_quote {p t rest : Bytes}
    (hstart : (p.dropWhile fun c => c = 32 ∨ c = 9 ∨ c = 58) = 34 :: (t ++ 34 :: rest))
    (ht : 34 ∉ t) : stringValue outSize p = if t.length = 0 ∨ t.length ≥ outSize then none else some t := by
  have hend : strchr 34 (t ++ 34 :: rest) = some (34 :: rest) := strchr_append_cons ht
  rw [stringValue, hstart]
  dsimp only
  rw [if_neg (by simp), List.tail_cons, hend]
  dsimp only
  rw [take_strchr hend, takeWhile_append_cons ht]

theorem stringValue_some_iff {p : Bytes} :
    stringValue outSize p = some s ↔
      ∃ rest, (p.dropWhile fun c => c = 32 ∨ c = 9 ∨ c = 58) = 34 :: (s ++ 34 :: rest) ∧ 34 ∉ s ∧ s ≠ [] ∧
        s.length < outSize := by
  constructor
  · intro h
    by_cases hquote : (p.dropWhile fun c => c = 32 ∨ c = 9 ∨ c = 58).head? = some 34
    · obtain ⟨u, hstart⟩ : ∃ u, (p.dropWhile fun c => c = 32 ∨ c = 9 ∨ c = 58) = 34 :: u :=
        ⟨_, List.eq_cons_of_mem_head? hquote⟩
      by_cases hmem : 34 ∈ u
      · obtain ⟨t, rest, rfl, ht⟩ := List.eq_append_cons_of_mem hmem
        rw [stringValue_quote hstart ht] at h
        split_ifs at h with hlength
        obtain ⟨hne, hfits⟩ := not_or.mp hlength
        obtain rfl := Option.some.inj h
        exact ⟨rest, hstart, ht, fun hnil => hne (congrArg List.length hnil), not_le.mp hfits⟩
      · rw [stringValue, hstart] at h
        dsimp only at h
        rw [if_neg (by simp), List.tail_cons, strchr_eq_none.mpr hmem] at h
        cases h
    · rw [stringValue] at h
      dsimp only at h
      rw [if_pos hquote] at h
      cases h
  · rintro ⟨rest, hstart, hs, hne, hfits⟩
    have hlength : ¬ (s.length = 0 ∨ s.length ≥ outSize) :=
      not_or.mpr ⟨fun hzero => hne (List.length_eq_zero_iff.mp hzero), not_le.mpr hfits⟩
    rw [stringValue_quote hstart hs, if_neg hlength]

theorem reads_iff : jsonExtractString json key outSize = some s ↔ Reads json key outSize s := by
  cases hfound : strstr (quoted key) json with
  | none =>
      have hnone : jsonExtractString json key outSize = none := by
        rw [jsonExtractString, show ascii "\"" ++ ascii key ++ ascii "\"" = quoted key from rfl, hfound]
      rw [hnone]
      refine iff_of_false (fun h => by cases h) ?_
      rintro ⟨p, rest, hp, -⟩
      cases hfound.symm.trans hp
  | some found =>
      obtain ⟨p, rfl⟩ := (strstr_some hfound).2
      rw [jsonExtractString_some hfound, stringValue_some_iff]
      constructor
      · rintro ⟨rest, h⟩
        exact ⟨p, rest, hfound, h⟩
      · rintro ⟨p', rest, hp', h⟩
        rw [List.append_cancel_left (Option.some.inj (hfound.symm.trans hp'))]
        exact ⟨rest, h⟩

theorem spared_iff :
    Spared body json key outSize previous ↔
      previous = some ((jsonExtractString json key outSize).getD []) ∨
        Supplied body key ((jsonExtractString json key outSize).getD []) := by
  cases hread : jsonExtractString json key outSize with
  | none =>
      have hnone (s : Bytes) : ¬ Reads json key outSize s := fun hs => by cases hread.symm.trans (reads_iff.mpr hs)
      exact ⟨fun h => h.unread hnone, fun h => ⟨fun s hs => absurd hs (hnone s), fun _ => h⟩⟩
  | some s =>
      have hs := reads_iff.mp hread
      refine ⟨fun h => h.read s hs, fun h => ⟨fun t ht => ?_, fun hnone => absurd hs (hnone s)⟩⟩
      rw [← Option.some.inj (hread.symm.trans (reads_iff.mpr ht))]
      exact h

theorem forall₂_map {R : VideoRow → VideoRow → Prop} (videos : List VideoRow) (f : VideoRow → VideoRow) :
    List.Forall₂ R videos (videos.map f) ↔ ∀ row ∈ videos, R row (f row) := by
  rw [List.forall₂_map_right_iff, List.forall₂_same]

theorem ofReply_ne {reply reply' : Reply} {conn : Conn} (h : reply ≠ reply') :
    (ApiResult.ofReply reply conn).answer ≠ .reply reply' := fun heq => h (Answer.reply.inj heq)

theorem updated_iff (env : ApiEnv) (req : HttpRequest) (conn : Conn) (memory : Bytes) :
    (handleAdminUpdate env req conn memory).answer = .reply (textReply "200 OK" "updated") ↔
      Updates env req conn (ofMemory memory) := by
  by_cases hpermitted : Permitted env req conn
  · rw [handleAdminUpdate_eq hpermitted]
    by_cases hid : 0 < videoIdOf (ofMemory memory)
    · cases hok : (checked req conn).stmt.ok with
      | true =>
          rw [updateVideo_db hid hok]
          exact iff_of_true rfl ⟨hpermitted, hid, hok⟩
      | false =>
          rw [updateVideo_failed hid hok]
          exact iff_of_false (ofReply_ne (by decide)) fun h => by cases hok.symm.trans h.executes
    · rw [updateVideo_invalid (not_lt.mp hid)]
      exact iff_of_false (ofReply_ne (by decide)) fun h => hid h.videoId
  · rw [(not_permitted hpermitted memory).2, refuse]
    refine iff_of_false ?_ fun h => hpermitted h.permitted
    split_ifs
    · exact ofReply_ne (by decide)
    · exact ofReply_ne (by decide)

theorem preserved_updated_iff {row : VideoRow} {title description : Bytes} :
    Preserved body row { row with title := title, description := some description } ↔
      (some row.title = some title ∨ Supplied body "title" title) ∧
        (row.description = some description ∨ Supplied body "description" description) := by
  constructor
  · rintro ⟨-, htitle, hdescription⟩
    refine ⟨htitle.imp_left fun h => congrArg some h.symm, hdescription.imp Eq.symm ?_⟩
    rintro ⟨s, hs, hsupplied⟩
    exact Option.some.inj hs ▸ hsupplied
  · rintro ⟨htitle, hdescription⟩
    exact ⟨rfl, htitle.imp_left fun h => (Option.some.inj h).symm,
      hdescription.imp Eq.symm fun h => ⟨description, rfl, h⟩⟩

end

/-- **An update preserves what it was not given**, for every request and whatever stands behind its body, exactly if
it writes no row, or for each of the two fields what is read was supplied or there before, and nothing was there to
lose where nothing is read. -/
theorem update_preserves_iff (env : ApiEnv) (req : HttpRequest) (conn : Conn) (body stale : Bytes) :
    let result := handleAdminUpdate env req conn (body ++ stale)
    let json := ofMemory (body ++ stale)
    (result.answer = .reply (textReply "200 OK" "updated") →
        List.Forall₂ (Preserved body) conn.db.videos result.conn.db.videos) ↔
      (Updates env req conn json → ∀ row ∈ conn.db.videos, row.id = videoIdOf json →
        Spared body json "title" dbMaxTitle (some row.title) ∧
          Spared body json "description" dbMaxDescription row.description) := by
  intro result json
  rw [updated_iff]
  refine forall_congr' fun hupdates => ?_
  have hresult : result = _ :=
    (handleAdminUpdate_eq hupdates.permitted _).trans (updateVideo_db hupdates.videoId hupdates.executes)
  have hvideos : result.conn.db.videos = conn.db.videos.map fun row => if row.id = videoIdOf json then
      { row with title := titleOf json, description := some (descriptionOf json) } else row := by
    rw [hresult, ← checked_videos req conn]
    rfl
  rw [hvideos, forall₂_map]
  refine forall₂_congr fun row _ => ?_
  by_cases hid : row.id = videoIdOf json
  · rw [if_pos hid, preserved_updated_iff, spared_iff, spared_iff]
    exact ⟨fun h _ => h, fun h => h hid⟩
  · rw [if_neg hid]
    exact iff_of_true ⟨rfl, .inl rfl, .inl rfl⟩ fun h => absurd h hid

/-- An update of the title only. -/
def sampleTitle : Json := .obj [("video_id".toList, .num (5 : ℤ)), ("title".toList, .str "New".toList)]

def sampleTitleBody : Bytes := encode (stringify sampleTitle)

def sampleDescribed : VideoRow := ⟨5, ascii "Intro", some (ascii "About"), ascii "5.mp4", none, none, 60, 0⟩

/-- The description is lost. -/
theorem update_blanks_description :
    let req := sampleAdminRequest "/admin/video/update"
    let result := handleAdminUpdate sampleApiEnv req (sampleAdmin [sampleDescribed]) (sampleTitleBody ++ [0])
    result.answer = .reply (textReply "200 OK" "updated") ∧
      result.conn.db.videos = [{ sampleDescribed with title := ascii "New", description := some [] }] ∧
      ¬ List.Forall₂ (Preserved sampleTitleBody) [sampleDescribed] result.conn.db.videos := by
  intro req result
  have hbody : sampleTitleBody = ascii "\x7b\"video_id\":5,\"title\":\"New\"\x7d" := by
    decide
  have hmemory : ofMemory (sampleTitleBody ++ [0]) = sampleTitleBody := by
    rw [hbody]
    decide
  have hupdates : Updates sampleApiEnv req (sampleAdmin [sampleDescribed]) sampleTitleBody := by
    refine ⟨⟨rfl, rfl⟩, ?_, rfl⟩
    rw [hbody]
    decide
  have hresult : result = _ := (handleAdminUpdate_eq hupdates.permitted _).trans
    (updateVideo_db (by rw [hmemory]; exact hupdates.videoId) hupdates.executes)
  have hread : videoIdOf sampleTitleBody = 5 ∧ titleOf sampleTitleBody = ascii "New" ∧
      descriptionOf sampleTitleBody = [] := by
    rw [hbody]
    decide
  have hvideos : result.conn.db.videos = [{ sampleDescribed with title := ascii "New", description := some [] }] := by
    rw [hresult, hmemory, hread.1, hread.2.1, hread.2.2]
    rfl
  refine ⟨by rw [hresult]; rfl, hvideos, fun hpreserved => ?_⟩
  rw [hvideos] at hpreserved
  obtain hsame | ⟨s, -, hsupplied⟩ := (List.forall₂_cons.mp hpreserved).1.description
  · exact absurd hsame (by decide)
  · obtain ⟨text, found, hbytes, hparse, ms, t, rfl, hlookup, -⟩ := hsupplied
    have hwhole : Whole sampleTitle := by
      refine .obj fun m hm => ?_
      obtain rfl | rfl := List.mem_pair.mp hm
      · exact .num 5
      · exact .str _
    rw [encode_injective hbytes, parse_stringify hwhole] at hparse
    obtain rfl := Json.obj.inj (Option.some.inj hparse)
    cases hlookup

end OttQuic.Http
