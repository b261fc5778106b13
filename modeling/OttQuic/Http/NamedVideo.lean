import OttQuic.Http.StaleBody
import OttQuic.Lib.FlatJson

/-!
# The video a body names

`json_extract_int_field` looks for `video_id` without quotes, so that the first key or string that has it anywhere is
taken for the member, and skips blanks, quotes and one separator in front of a number of any size, which is then cut
to an `int`. `admin_acts_on_named_iff` says for which flat objects the row that is deleted or updated is the one that
the member `video_id` names.
-/

namespace OttQuic.Http

open CString Db Scan FlatJson

/-- The object has the integer `r` as `video_id`. -/
def Names (o : Object) (r : Int) : Prop := ∃ i, o.lookup (ascii "video_id") = some (.integer i) ∧ i.value = r

/-- The row was there and is there no longer. -/
def Deleted (conn conn' : Conn) (r : Int) : Prop :=
  (∃ row ∈ conn.db.videos, row.id = r) ∧ ∀ row ∈ conn'.db.videos, row.id ≠ r

/-- The update of row `r` has run, and the row is there. -/
def Updated (env : ApiEnv) (req : HttpRequest) (conn : Conn) (memory : Bytes) (r : Int) : Prop :=
  chosenVideoId env req conn memory = some r ∧
    (handleAdminUpdate env req conn memory).conn.db.videoChanges ≠ conn.db.videoChanges

/-- A deletion of the row goes through: its three statements execute. -/
structure Deletes (conn : Conn) (r : Int) : Prop where
  positive : 0 < r
  found : conn.stmt.ok = true
  executes : (conn.next conn.db).stmt.ok = true
  row : ∃ row ∈ conn.db.videos, row.id = r

/-! ### What the object makes the handlers read -/

/-- A separator is skipped. -/
def afterMark (p : Bytes) : Bytes := if p.head? = some 58 ∨ p.head? = some 61 then p.tail else p

/-- The rest of the string, behind blanks and a separator. -/
def afterSeparator (tail : Bytes) : Bytes := afterMark (tail.dropWhile fun c => c = 32)

def AllSpaces (s : Bytes) : Prop := ∀ c ∈ s, c = 32

instance (s : Bytes) : Decidable (AllSpaces s) := inferInstanceAs (Decidable (∀ c ∈ s, c = 32))

/-- The number at the first place that has the word. -/
def Mention.number : Mention → Option Int
  | .inText tail => integerAt (afterSeparator tail)
  | .inKey m tail =>
    if ¬ AllSpaces tail then integerAt (afterSeparator tail)
    else if ¬ AllSpaces m.beforeColon.val then none
    else
      match m.value with
      | .integer i => some i.value
      | .text s => if AllSpaces m.afterColon.val then integerAt s.val else none

/-- The number the object makes the handlers read. -/
def foundNumber (o : Object) : Option Int := (o.mention (ascii "video_id")).bind Mention.number

/-- The word is found at the member `video_id` itself. -/
def FoundAtMember (o : Object) (v : Scalar) : Prop :=
  ∃ m, o.mention (ascii "video_id") = some (.inKey m []) ∧ m.key.val = ascii "video_id" ∧ m.value = v

/-- The number that is found is the one the object names: it stands at the member, which is an integer in the range of
`int`, or elsewhere, and what is left of it is by chance the member's value. -/
structure Right (o : Object) (n : Int) : Prop where
  member : ∀ v, FoundAtMember o v → (∃ i, v = .integer i) ∧ -(2 ^ 31) ≤ n ∧ n < 2 ^ 31
  elsewhere : (∀ v, ¬ FoundAtMember o v) → Names o (toInt (toLong n))

/-! ### The number -/

section

variable {tail t : Bytes} {place : Mention}

theorem integerAt_mark {c : UInt8} (hdigit : isDigit c = false) (hspace : isSpace c = false) (hplus : c ≠ 43)
    (hminus : c ≠ 45) : integerAt (c :: t) = none :=
  integerAt_append (s := []) hdigit hspace hplus hminus

theorem integerAt_comma {c : UInt8} (hc : c = 44 ∨ c = 125) (t : Bytes) : integerAt (c :: t) = none := by
  rcases hc with rfl | rfl
  all_goals exact integerAt_mark (by decide) (by decide) (by decide) (by decide)

def skipBlanks (p : Bytes) : Bytes := p.dropWhile fun c => c = 32 ∨ c = 34

theorem numberStart_eq (p : Bytes) : numberStart p = skipBlanks (afterMark (skipBlanks p)) := rfl

theorem skipBlanks_blank {c : UInt8} (hc : c = 32 ∨ c = 34) : skipBlanks (c :: t) = skipBlanks t :=
  List.dropWhile_cons_of_pos (by simpa using hc)

theorem skipBlanks_stop {c : UInt8} (hspace : c ≠ 32) (hquote : c ≠ 34) : skipBlanks (c :: t) = c :: t :=
  List.dropWhile_cons_of_neg (by simp [hspace, hquote])

theorem afterMark_stop {c : UInt8} (hcolon : c ≠ 58) (hequals : c ≠ 61) : afterMark (c :: t) = c :: t := by
  rw [afterMark, if_neg (by simp [hcolon, hequals])]

theorem skipBlanks_spaces {front : Bytes} (hfront : AllSpaces front) (t : Bytes) :
    skipBlanks (front ++ t) = skipBlanks t := by
  rw [skipBlanks, List.dropWhile_append_of_pos, skipBlanks]
  intro c hc
  simp [hfront c hc]

theorem split_spaces (s : Bytes) :
    AllSpaces s ∨ ∃ front d back, s = front ++ d :: back ∧ AllSpaces front ∧ d ≠ 32 := by
  induction s with
  | nil => exact .inl fun _ hc => nomatch hc
  | cons c s ih =>
      by_cases hc : c = 32
      · rcases ih with hall | ⟨front, d, back, rfl, hfront, hd⟩
        · exact .inl (List.forall_mem_cons.mpr ⟨hc, hall⟩)
        · exact .inr ⟨c :: front, d, back, rfl, List.forall_mem_cons.mpr ⟨hc, hfront⟩, hd⟩
      · exact .inr ⟨[], c, s, rfl, (fun _ hc => nomatch hc), hc⟩

theorem integerAt_spaces {front : Bytes} (hfront : AllSpaces front) (t : Bytes) :
    integerAt (front ++ t) = integerAt t := by
  refine integerAt_blank fun c hc => ?_
  rw [hfront c hc]
  rfl

theorem integerAt_allSpaces (hspaces : AllSpaces t) : integerAt t = none := by
  have hnil : integerAt (t ++ []) = integerAt [] := integerAt_spaces hspaces []
  rw [List.append_nil] at hnil
  exact hnil

theorem not_allSpaces {front back : Bytes} {d : UInt8} (hd : d ≠ 32) : ¬ AllSpaces (front ++ d :: back) := fun h =>
  hd (h d (by simp))

theorem integerAt_skip_string (htail : 34 ∉ tail) (t : Bytes) :
    integerAt (skipBlanks (tail ++ 34 :: t)) = if AllSpaces tail then integerAt (skipBlanks t) else integerAt tail := by
  rcases split_spaces tail with hspaces | ⟨front, d, back, rfl, hfront, hd⟩
  · rw [if_pos hspaces, skipBlanks_spaces hspaces, skipBlanks_blank (.inr rfl)]
  · have hquote : d ≠ 34 := fun heq => htail (by simp [heq])
    rw [if_neg (not_allSpaces hd), List.append_assoc, List.cons_append, skipBlanks_spaces hfront,
      skipBlanks_stop hd hquote, ← List.cons_append, integerAt_quote, integerAt_spaces hfront]

theorem integerAt_skip_space (space : Space) (t : Bytes) :
    integerAt (skipBlanks (space.val ++ t)) =
      if AllSpaces space.val then integerAt (skipBlanks t) else integerAt t := by
  split_ifs with hspaces
  · rw [skipBlanks_spaces hspaces]
  · obtain ⟨front, d, back, hsplit, hfront, hd⟩ := (split_spaces space.val).resolve_left hspaces
    have hquote : d ≠ 34 := fun heq => space.not_mem (c := 34) (by decide) (by simp [hsplit, heq])
    have hrest : integerAt (space.val ++ t) = integerAt t := integerAt_blank space.isSpace
    rw [hsplit, List.append_assoc, List.cons_append, integerAt_spaces hfront] at hrest
    rw [hsplit, List.append_assoc, List.cons_append, skipBlanks_spaces hfront, skipBlanks_stop hd hquote, hrest]

/-- The characters between two members, or between a key and its value. -/
def IsMark (c : UInt8) : Prop := c = 44 ∨ c = 125 ∨ c = 58

theorem IsMark.plain {c : UInt8} (hc : IsMark c) : c ≠ 32 ∧ c ≠ 34 ∧ integerAt (c :: t) = none := by
  rcases hc with rfl | rfl | rfl
  all_goals exact ⟨by decide, by decide, integerAt_mark (by decide) (by decide) (by decide) (by decide)⟩

theorem integerAt_skip_mark (space : Space) {c : UInt8} (hc : IsMark c) (t : Bytes) :
    integerAt (skipBlanks (space.val ++ c :: t)) = none := by
  obtain ⟨hspace, hquote, hnone⟩ := hc.plain (t := t)
  rw [integerAt_skip_space, skipBlanks_stop hspace hquote, hnone, ite_self]

theorem integerAt_numberStart_string (htail : 34 ∉ tail) (hspaces : ¬ AllSpaces tail)
    (hnone : integerAt (skipBlanks t) = none) :
    integerAt (numberStart (tail ++ 34 :: t)) = integerAt (afterSeparator tail) := by
  obtain ⟨front, d, back, rfl, hfront, hd⟩ := (split_spaces tail).resolve_left hspaces
  have hquote : d ≠ 34 := fun heq => htail (by simp [heq])
  have hback : 34 ∉ back := fun hmem => htail (by simp [hmem])
  have hrest : (front ++ d :: back).dropWhile (fun c => c = 32) = d :: back := by
    rw [List.dropWhile_append_of_pos fun c hc => by simpa using hfront c hc]
    exact List.dropWhile_cons_of_neg (by simpa using hd)
  rw [numberStart_eq, afterSeparator, hrest, List.append_assoc, List.cons_append, skipBlanks_spaces hfront,
    skipBlanks_stop hd hquote]
  by_cases hmark : d = 58 ∨ d = 61
  · rw [afterMark, afterMark, if_pos (by simpa using hmark), if_pos (by simpa using hmark), List.tail_cons,
      List.tail_cons, integerAt_skip_string hback, hnone]
    split_ifs with hall
    · rw [integerAt_allSpaces hall]
    · rfl
  · obtain ⟨hcolon, hequals⟩ := not_or.mp hmark
    rw [afterMark_stop hcolon hequals, afterMark_stop hcolon hequals, skipBlanks_stop hd hquote, ← List.cons_append,
      integerAt_quote]

theorem integerAt_numberStart_space (space : Space) (t : Bytes) :
    integerAt (numberStart (space.val ++ t)) =
      if AllSpaces space.val then integerAt (numberStart t) else integerAt t := by
  split_ifs with hspaces
  · rw [numberStart_eq, skipBlanks_spaces hspaces, ← numberStart_eq]
  · obtain ⟨front, d, back, hsplit, hfront, hd⟩ := (split_spaces space.val).resolve_left hspaces
    have hne {c : UInt8} (hc : isBlank c = false) : d ≠ c := fun heq => space.not_mem hc (by simp [hsplit, heq])
    have hrest : integerAt (space.val ++ t) = integerAt t := integerAt_blank space.isSpace
    rw [hsplit, List.append_assoc, List.cons_append, integerAt_spaces hfront] at hrest
    rw [hsplit, List.append_assoc, List.cons_append, numberStart_eq, skipBlanks_spaces hfront,
      skipBlanks_stop hd (hne (by decide)), afterMark_stop (hne (by decide)) (hne (by decide)),
      skipBlanks_stop hd (hne (by decide)), hrest]

theorem numberStart_allSpaces (hspaces : AllSpaces tail) (t : Bytes) :
    numberStart (tail ++ 34 :: t) = numberStart t := by
  rw [numberStart_eq, skipBlanks_spaces hspaces, skipBlanks_blank (.inr rfl), ← numberStart_eq]

theorem integerAt_numberStart_comma (space : Space) {c : UInt8} (hc : c = 44 ∨ c = 125) (t : Bytes) :
    integerAt (numberStart (space.val ++ c :: t)) = none := by
  have hstart : numberStart (c :: t) = c :: t := by
    rcases hc with rfl | rfl
    all_goals rfl
  rw [integerAt_numberStart_space, hstart, integerAt_comma hc, ite_self]

theorem integerAt_value (m : Member) {c : UInt8} (hc : c = 44 ∨ c = 125) (rest : Bytes) :
    integerAt (skipBlanks (m.afterColon.val ++ (m.value.print ++ (m.after.val ++ c :: rest)))) =
      match m.value with
      | .integer i => some i.value
      | .text s => if AllSpaces m.afterColon.val then integerAt s.val else none := by
  rw [integerAt_skip_space]
  cases m.value with
  | integer i =>
      obtain ⟨d, u, hprint, hspace, hquote⟩ := i.print_head
      have hd : d ≠ 32 := by
        rintro rfl
        cases hspace
      have hskip : skipBlanks (i.print ++ (m.after.val ++ c :: rest)) = i.print ++ (m.after.val ++ c :: rest) := by
        rw [hprint, List.cons_append, skipBlanks_stop hd hquote]
      rw [Scalar.print, hskip, integerAt_print i m.after rest hc, ite_self]
  | text s =>
      have hmark : IsMark c := by
        rcases hc with rfl | rfl
        · exact .inl rfl
        · exact .inr (.inl rfl)
      have hs : 34 ∉ s.val := s.not_mem (by decide)
      have htext : (Scalar.text s).print ++ (m.after.val ++ c :: rest) =
          34 :: (s.val ++ 34 :: (m.after.val ++ c :: rest)) := by simp [Scalar.print]
      have hnone : integerAt (34 :: (s.val ++ 34 :: (m.after.val ++ c :: rest))) = none := integerAt_quote [] _
      rw [htext, skipBlanks_blank (.inr rfl), integerAt_skip_string hs, integerAt_skip_mark m.after hmark, hnone]
      dsimp only
      by_cases hspaces : AllSpaces s.val
      · rw [if_pos hspaces, integerAt_allSpaces hspaces]
      · rw [if_neg hspaces]

/-- **The number at the first place that has the word.** -/
theorem mention_number (h : place.At t) : integerAt (numberStart t) = Mention.number place := by
  have hquote {tail : Bytes} (htail : ∀ c ∈ tail, isPlain c = true) : 34 ∉ tail := fun hmem => by
    cases htail 34 hmem
  cases h with
  | inText tail htail after c rest hc =>
      rw [Mention.number]
      by_cases hspaces : AllSpaces tail
      · have hnil : (tail ++ []).dropWhile (fun c => c = 32) = [] :=
          List.dropWhile_append_of_pos fun c hc => by simpa using hspaces c hc
        rw [List.append_nil] at hnil
        rw [numberStart_allSpaces hspaces, integerAt_numberStart_comma after hc, afterSeparator, hnil]
        rfl
      · have hmark : IsMark c := hc.elim .inl fun h => .inr (.inl h)
        exact integerAt_numberStart_string (hquote htail) hspaces (integerAt_skip_mark after hmark rest)
  | inKey m tail htail c rest hc =>
      rw [Mention.number]
      by_cases hspaces : AllSpaces tail
      · rw [if_neg (not_not_intro hspaces), numberStart_allSpaces hspaces, Member.behindKey,
          integerAt_numberStart_space]
        by_cases hbefore : AllSpaces m.beforeColon.val
        · rw [if_pos hbefore, if_neg (not_not_intro hbefore)]
          exact integerAt_value m hc rest
        · rw [if_neg hbefore, if_pos hbefore,
            integerAt_mark (by decide) (by decide) (by decide) (by decide)]
      · rw [if_pos hspaces]
        exact integerAt_numberStart_string (hquote htail) hspaces
          (integerAt_skip_mark m.beforeColon (.inr (.inr rfl)) _)

theorem videoIdOf_print (o : Object) :
    videoIdOf o.print = ((foundNumber o).map fun n => toInt (toLong n)).getD 0 := by
  have hword : IsBareWord (ascii "video_id") :=
    ⟨by decide, 118, ascii "ideo_id", by decide, by decide, by decide, by decide⟩
  have hfound := mention_print hword o
  have hnumber : videoIdOf o.print =
      ((behindWord (ascii "video_id") o.print).bind fun p => (strtol 10 (numberStart p)).map toInt).getD 0 := by
    rw [videoIdOf_eq, behindWord, Option.bind_map]
    cases strstr (ascii "video_id") o.print with
    | none => rfl
    | some p => rfl
  rw [hnumber, foundNumber]
  generalize behindWord (ascii "video_id") o.print = found, o.mention (ascii "video_id") = place at hfound
  cases hfound with
  | none => rfl
  | some hat =>
      rw [Option.bind_some, Option.bind_some, strtol_ten, mention_number hat, Option.map_map]
      rfl

/-! ### The member -/

theorem FoundAtMember.lookup {o : Object} {v : Scalar} (h : FoundAtMember o v) :
    o.lookup (ascii "video_id") = some v := by
  obtain ⟨m, hmention, hkey, rfl⟩ := h
  rw [← hkey]
  exact Object.lookup_of_mem (mentionIn_mem hmention).1

theorem FoundAtMember.number {o : Object} {i : Integer} {n : Int} (h : FoundAtMember o (.integer i))
    (hn : foundNumber o = some n) : i.value = n := by
  obtain ⟨m, hmention, -, hvalue⟩ := h
  rw [foundNumber, hmention, Option.bind_some, Mention.number, hvalue] at hn
  have hnil : AllSpaces [] := fun _ hc => nomatch hc
  rw [if_neg (not_not_intro hnil)] at hn
  split_ifs at hn with hbefore
  all_goals exact Option.some.inj hn

theorem right_iff {o : Object} {n : Int} (hn : foundNumber o = some n) : Right o n ↔ Names o (toInt (toLong n)) := by
  constructor
  · intro hright
    by_cases hmember : ∃ v, FoundAtMember o v
    · obtain ⟨v, hv⟩ := hmember
      obtain ⟨⟨i, rfl⟩, hrange⟩ := hright.member v hv
      exact ⟨i, hv.lookup, by rw [toInt_toLong.mpr hrange, hv.number hn]⟩
    · exact hright.elsewhere fun v hv => hmember ⟨v, hv⟩
  · intro hnames
    refine ⟨fun v hv => ?_, fun _ => hnames⟩
    obtain ⟨i, hlookup, hvalue⟩ := hnames
    obtain rfl := Option.some.inj (hv.lookup.symm.trans hlookup)
    rw [hv.number hn] at hvalue
    exact ⟨⟨i, rfl⟩, toInt_toLong.mp hvalue.symm⟩

end

/-! ### The two handlers -/

section

variable {env : ApiEnv} {req : HttpRequest} {conn : Conn} {r : Int} {title description : Bytes}

theorem checked_changes (req : HttpRequest) (conn : Conn) :
    (checked req conn).db.videoChanges = conn.db.videoChanges := by
  have hchecked : isAdminUser conn req = ((isAdminUser conn req).1, checked req conn) := rfl
  exact (keeps_isAdminUser hchecked).changes

theorem refuse_keeps (env : ApiEnv) (req : HttpRequest) (conn : Conn) :
    KeepsVideos conn (refuse env req conn).conn := by
  rw [refuse]
  split_ifs
  · exact .refl
  · exact ⟨checked_videos req conn, checked_changes req conn⟩

theorem deleteVideo_videos (conn : Conn) (r : Int) :
    Deletes conn r ∧ (deleteVideo conn r).conn.db.videos = (conn.db.videos.filter fun row => row.id ≠ r) ∨
      ¬ Deletes conn r ∧ (deleteVideo conn r).conn.db.videos = conn.db.videos := by
  rw [deleteVideo]
  split_ifs with hinvalid
  · exact .inr ⟨fun h => absurd h.positive (not_lt.mpr hinvalid), rfl⟩
  · rw [Conn.query, dbGetVideoById]
    cases hfound : conn.stmt.ok with
    | false => exact .inr ⟨fun h => (by cases hfound.symm.trans h.found), rfl⟩
    | true =>
        cases hrow : conn.db.videos.find? fun row => row.id = r with
        | none =>
            refine .inr ⟨fun h => ?_, rfl⟩
            obtain ⟨row, hmem, hid⟩ := h.row
            exact absurd (List.find?_eq_none.mp hrow row hmem) (by simp [hid])
        | some row =>
            have hexists : ∃ row ∈ conn.db.videos, row.id = r :=
              ⟨row, List.mem_of_find?_eq_some hrow, by simpa using List.find?_some hrow⟩
            rw [if_pos rfl]
            dsimp only
            rw [Conn.exec, dbDeleteVideoById]
            cases hexecutes : (conn.next conn.db).stmt.ok with
            | false => exact .inr ⟨fun h => (by cases hexecutes.symm.trans h.executes), rfl⟩
            | true => exact .inl ⟨⟨not_le.mp hinvalid, hfound, hexecutes, hexists⟩, rfl⟩

theorem deletes_row_iff (hpermitted : Permitted env req conn) (memory : Bytes) :
    Deleted conn (handleAdminDelete env req conn memory).conn r ↔
      videoIdOf (ofMemory memory) = r ∧ Deletes (checked req conn) r := by
  rw [handleAdminDelete_eq hpermitted, Deleted, ← checked_videos req conn]
  constructor
  · rintro ⟨⟨row, hrow, hid⟩, hgone⟩
    rcases deleteVideo_videos (checked req conn) (videoIdOf (ofMemory memory)) with ⟨hdeletes, hvideos⟩ | ⟨-, hvideos⟩
    · rw [hvideos] at hgone
      by_cases hsame : videoIdOf (ofMemory memory) = r
      · exact ⟨hsame, hsame ▸ hdeletes⟩
      · -- another row is removed
        have hkept : row ∈ (checked req conn).db.videos.filter fun row => row.id ≠ videoIdOf (ofMemory memory) :=
          List.mem_filter.mpr ⟨hrow, by simpa [hid] using Ne.symm hsame⟩
        exact absurd hid (hgone row hkept)
    · rw [hvideos] at hgone
      exact absurd hid (hgone row hrow)
  · rintro ⟨rfl, hdeletes⟩
    refine ⟨hdeletes.row, fun row hrow => ?_⟩
    rcases deleteVideo_videos (checked req conn) (videoIdOf (ofMemory memory)) with ⟨-, hvideos⟩ | ⟨hnot, -⟩
    · rw [hvideos] at hrow
      simpa using (List.mem_filter.mp hrow).2
    · exact absurd hdeletes hnot

theorem updateVideo_changes :
    (updateVideo conn r title description).conn.db.videoChanges ≠ conn.db.videoChanges ↔ Writes conn r := by
  by_cases hid : 0 < r
  · cases hok : conn.stmt.ok with
    | false =>
        rw [updateVideo_failed hid hok]
        exact iff_of_false (fun h => h rfl) fun hwrites => by cases hok.symm.trans hwrites.2.1
    | true =>
        rw [updateVideo_db hid hok]
        have hcount : (conn.db.videos.countP fun row => row.id = r) ≠ 0 ↔ ∃ row ∈ conn.db.videos, row.id = r := by
          rw [Nat.ne_zero_iff_zero_lt, List.countP_pos_iff]
          simp
        have hsum : conn.db.videoChanges + (conn.db.videos.countP fun row => row.id = r) ≠ conn.db.videoChanges ↔
            (conn.db.videos.countP fun row => row.id = r) ≠ 0 := by omega
        exact hsum.trans (hcount.trans ⟨fun hrow => ⟨hid, hok, hrow⟩, fun hwrites => hwrites.2.2⟩)
  · rw [updateVideo_invalid (not_lt.mp hid)]
    exact iff_of_false (fun h => h rfl) fun hwrites => hid hwrites.1

theorem updates_row_iff (hpermitted : Permitted env req conn) (memory : Bytes) :
    Updated env req conn memory r ↔ videoIdOf (ofMemory memory) = r ∧ Writes (checked req conn) r := by
  have hchosen : chosenVideoId env req conn memory = some (videoIdOf (ofMemory memory)) := if_pos hpermitted
  rw [Updated, hchosen, Option.some.injEq, handleAdminUpdate_eq hpermitted, ← checked_changes req conn,
    updateVideo_changes]
  constructor
  · rintro ⟨rfl, hwrites⟩
    exact ⟨rfl, hwrites⟩
  · rintro ⟨rfl, hwrites⟩
    exact ⟨rfl, hwrites⟩

theorem updated_of_changed {row : VideoRow} {memory : Bytes} (hrow : row ∈ conn.db.videos)
    (hchanged : row ∉ (handleAdminUpdate env req conn memory).conn.db.videos) : Updated env req conn memory row.id := by
  by_cases hpermitted : Permitted env req conn
  · rw [handleAdminUpdate_eq hpermitted] at hchanged
    rw [← checked_videos req conn] at hrow
    rw [updates_row_iff hpermitted]
    set videoId := videoIdOf (ofMemory memory)
    by_cases hid : 0 < videoId
    · cases hok : (checked req conn).stmt.ok with
      | false =>
          rw [updateVideo_failed hid hok] at hchanged
          exact absurd hrow hchanged
      | true =>
          rw [updateVideo_db hid hok] at hchanged
          by_cases hsame : row.id = videoId
          · exact ⟨hsame.symm, hsame ▸ hid, hok, row, hrow, rfl⟩
          · exact (hchanged (List.mem_map.mpr ⟨row, hrow, if_neg hsame⟩)).elim
    · rw [updateVideo_invalid (not_lt.mp hid)] at hchanged
      exact absurd hrow hchanged
  · rw [(not_permitted hpermitted memory).2, (refuse_keeps env req conn).videos] at hchanged
    exact absurd hrow hchanged

/-- What acts on the id that is read acts on a row that is named, if the number that is found is the one. -/
theorem acts_on_named_iff {o : Object} {acts : Int → Prop} (hpositive : ∀ r, acts r → 0 < r) :
    (∀ r, videoIdOf o.print = r ∧ acts r → Names o r) ↔
      ∀ n, foundNumber o = some n → acts (toInt (toLong n)) → Right o n := by
  rw [videoIdOf_print]
  cases hfound : foundNumber o with
  | none =>
      refine iff_of_true (fun r h => ?_) fun n hn => nomatch hn
      obtain ⟨rfl, hacts⟩ := h
      exact absurd (hpositive _ hacts) (by decide)
  | some n =>
      constructor
      · intro hnames n' hn hacts
        obtain rfl := Option.some.inj hn
        exact (right_iff hfound).mpr (hnames _ ⟨rfl, hacts⟩)
      · rintro hright r ⟨rfl, hacts⟩
        exact (right_iff hfound).mp (hright n rfl hacts)

end

/-- **A deletion or an update acts on the video that was named**, for every flat object. -/
theorem admin_acts_on_named_iff (env : ApiEnv) (req : HttpRequest) (conn : Conn) (o : Object) (rest : Bytes) :
    ((∀ r, Deleted conn (handleAdminDelete env req conn (o.print ++ 0 :: rest)).conn r → Names o r) ↔
      (Permitted env req conn → ∀ n, foundNumber o = some n →
        Deletes (checked req conn) (toInt (toLong n)) → Right o n)) ∧
    ((∀ r, Updated env req conn (o.print ++ 0 :: rest) r → Names o r) ↔
      (Permitted env req conn → ∀ n, foundNumber o = some n →
        Writes (checked req conn) (toInt (toLong n)) → Right o n)) := by
  have hmemory : ofMemory (o.print ++ 0 :: rest) = o.print :=
    takeWhile_append_cons (o.not_mem_print (by decide) (by decide) (by decide) (by decide))
  by_cases hpermitted : Permitted env req conn
  · simp only [deletes_row_iff hpermitted, updates_row_iff hpermitted, hmemory, hpermitted, forall_const]
    exact ⟨acts_on_named_iff fun r h => h.positive, acts_on_named_iff fun r h => h.1⟩
  · obtain ⟨hdelete, -⟩ := not_permitted hpermitted (o.print ++ 0 :: rest)
    refine ⟨iff_of_true (fun r hdeleted => ?_) fun h => absurd h hpermitted,
      iff_of_true (fun r hupdated => ?_) fun h => absurd h hpermitted⟩
    · obtain ⟨⟨row, hrow, hid⟩, hgone⟩ := hdeleted
      rw [hdelete, (refuse_keeps env req conn).videos] at hgone
      exact absurd hid (hgone row hrow)
    · have hchosen : chosenVideoId env req conn (o.print ++ 0 :: rest) = none := if_neg hpermitted
      cases hchosen.symm.trans hupdated.1

/-- The key in front contains the key of the id. -/
def sampleReplaceMembers : List Member := [
  .tight (.ofAscii "old_video_id" (by decide)) (.integer (.ofAscii "3" (by decide) (by decide))),
  .tight (.ofAscii "video_id" (by decide)) (.integer (.ofAscii "5" (by decide) (by decide)))]

theorem sampleReplaceMembers_distinct : (sampleReplaceMembers.map Member.key).Nodup := by decide

def sampleReplace : Object := ⟨noSpace, noSpace, sampleReplaceMembers, noSpace, sampleReplaceMembers_distinct⟩

/-- A catalogue with the videos 3 and 5. -/
def sampleThreeFive : Conn :=
  sampleAdmin [⟨3, ascii "Intro", none, ascii "3.mp4", none, none, 60, 0⟩,
    ⟨5, ascii "Outro", none, ascii "5.mp4", none, none, 60, 0⟩]

/-- The body names video 5, and video 3 is deleted. -/
theorem other_video_deleted :
    sampleReplace.print = ascii "\x7b\"old_video_id\":3,\"video_id\":5\x7d" ∧
      Deleted sampleThreeFive (handleAdminDelete sampleApiEnv (sampleAdminRequest "/admin/video/delete") sampleThreeFive
        (sampleReplace.print ++ [0])).conn 3 ∧
      ¬ Names sampleReplace 3 := by
  have hpermitted : Permitted sampleApiEnv (sampleAdminRequest "/admin/video/delete") sampleThreeFive := ⟨rfl, rfl⟩
  have hbody : ofMemory (sampleReplace.print ++ [0]) = sampleReplace.print := by decide
  refine ⟨by decide, (deletes_row_iff hpermitted _).mpr ?_, ?_⟩
  · rw [hbody]
    exact ⟨by decide, by decide, rfl, rfl, by decide⟩
  · rintro ⟨i, hlookup, hvalue⟩
    have hfive : sampleReplace.lookup (ascii "video_id") =
        some (.integer (.ofAscii "5" (by decide) (by decide))) := by decide
    obtain rfl := Scalar.integer.inj (Option.some.inj (hfive.symm.trans hlookup))
    exact absurd hvalue (by decide)

end OttQuic.Http
