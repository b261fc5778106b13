import OttQuic.Http.AdminBody
import OttQuic.Lib.Scan

/-!
# What stands behind the body

The body is read into memory that held something else before, and nothing ends it there, while the handlers of
`/admin/video/delete` and `/admin/video/update` search that memory as a C string. `admin_reads_body_only_iff` says
for which bodies they act as if there was nothing behind: the number and the texts they look for must stand in the
body together with the character that ends them.
-/

namespace OttQuic.Http

open CString Db Scan

/-- What the run gives depends on the body only, whatever the rest of the buffer holds, and what follows it. -/
def BodyOnly {α : Type} (run : Bytes → α) (body : Bytes) : Prop :=
  ∀ stale stale', httpMaxBody ≤ (body ++ stale).length → httpMaxBody ≤ (body ++ stale').length →
    run (body ++ stale) = run (body ++ stale')

/-- What a reader of strings finds in the body does not change when text follows. -/
def Settled {α : Type} (read : Bytes → α) (body : Bytes) : Prop := ∀ s, 0 ∉ s → read (body ++ s) = read body

/-! ### Strings in memory -/

section

variable {α : Type} {read : Bytes → α} {body : Bytes}

theorem bodyOnly_of_nul (hbody : 0 ∈ body) : BodyOnly (fun memory => read (ofMemory memory)) body := by
  intro stale stale' _ _
  simp only [ofMemory_append_of_nul hbody]

theorem bodyOnly_iff_settled (hbody : 0 ∉ body) :
    BodyOnly (fun memory => read (ofMemory memory)) body ↔ Settled read body := by
  constructor
  · intro honly s hs
    have hlength (s : Bytes) : httpMaxBody ≤ (body ++ (s ++ 0 :: List.replicate httpMaxBody 0)).length := by
      simp only [List.length_append, List.length_cons, List.length_replicate]
      omega
    have hread (s : Bytes) (hs : 0 ∉ s) :
        ofMemory (body ++ (s ++ 0 :: List.replicate httpMaxBody 0)) = body ++ s := by
      rw [ofMemory_append hbody, ofMemory_append hs]
      simp [ofMemory]
    have hsame := honly _ _ (hlength s) (hlength [])
    simp only [hread s hs, hread [] List.not_mem_nil, List.append_nil] at hsame
    exact hsame
  · intro hsettled stale stale' _ _
    simp only [ofMemory_append hbody]
    rw [hsettled _ (not_mem_ofMemory stale), hsettled _ (not_mem_ofMemory stale')]

end

/-! ### The number -/

/-- `json_extract_int_field` from behind the key to where `strtol` starts. -/
def numberStart (p : Bytes) : Bytes :=
  let p := p.dropWhile fun c => c = 32 ∨ c = 34
  let p := if p.head? = some 58 ∨ p.head? = some 61 then p.tail else p
  p.dropWhile fun c => c = 32 ∨ c = 34

/-- The text from the first digit on, if there is one. -/
def digitsStart (p : Bytes) : Bytes := afterSign (numberStart p)

def isNegative (p : Bytes) : Bool := ((numberStart p).dropWhile isSpace).head? = some 45

/-- The number behind the key. -/
def numberBehind (p : Bytes) : Int := ((strtol 10 (numberStart p)).map toInt).getD 0

/-- One more digit does not change what `strtol` and the conversion to `int` make of the number. -/
def Saturated (negative : Bool) (n : Nat) : Prop :=
  ∀ d < 10, toInt (clamp negative (n * 10 + d)) = toInt (clamp negative n)

/-- The text has the number with the character that ends it, or so many digits that no other one counts. -/
def NumberSettled (p : Bytes) : Prop :=
  digitsStart p ≠ [] ∧
    ((∀ c ∈ digitsStart p, isDigit c = true) → Saturated (isNegative p) (readDigits 10 0 (digitsStart p)))

section

variable {p s : Bytes} {negative : Bool} {n m : Nat}

theorem videoIdOf_eq (body : Bytes) :
    videoIdOf body = ((strstr (ascii "video_id") body).map fun p => numberBehind (p.drop 8)).getD 0 := by
  rw [videoIdOf, jsonExtractIntField]
  cases strstr (ascii "video_id") body with
  | none => rfl
  | some p => rfl

theorem numberStart_skips : Skips (fun c => isDigit c = true) numberStart := by
  have hquotes : Skips (fun c => isDigit c = true) (List.dropWhile fun c : UInt8 => c = 32 ∨ c = 34) :=
    Skips.dropWhile fun c hc => by
      simp only [decide_eq_false_iff_not, not_or]
      exact ⟨fun heq => absurd (heq ▸ hc) (by decide), fun heq => absurd (heq ▸ hc) (by decide)⟩
  exact hquotes.comp ((Skips.either (by decide) (by decide)).comp hquotes)

theorem digitsStart_skips : Skips (fun c => isDigit c = true) digitsStart := afterSign_skips.comp numberStart_skips

theorem numberBehind_eq (p : Bytes) :
    numberBehind p = if (digitsStart p).head?.any isDigit then
      toInt (clamp (isNegative p) (readDigits 10 0 (digitsStart p))) else 0 := by
  rw [numberBehind, strtol_eq, readNumber_ten, ← digitsStart, ← isNegative]
  split_ifs
  · rfl
  · rfl

theorem toInt_succ_ne {x : Int} : toInt x ≠ toInt (x + 1) := by
  simp only [toInt, Int.bmod_def]
  split_ifs <;> omega

theorem Saturated.more (h : Saturated negative n) (hm : n * 10 ≤ m) :
    toInt (clamp negative m) = toInt (clamp negative n) := by
  have hzero := h 0 (by omega)
  have hone := h 1 (by omega)
  have hlarge : 2 ^ 63 ≤ n * 10 := by
    by_contra hsmall
    have hne := hzero.trans hone.symm
    cases negative with
    | false =>
        have hclamp : clamp false (n * 10 + 1) = clamp false (n * 10 + 0) + 1 := by
          simp only [clamp, Bool.false_eq_true, if_false]
          omega
        rw [hclamp] at hne
        exact toInt_succ_ne hne
    | true =>
        have hclamp : clamp true (n * 10 + 0) = clamp true (n * 10 + 1) + 1 := by
          simp only [clamp, if_true]
          omega
        rw [hclamp] at hne
        exact toInt_succ_ne hne.symm
  have hsame : clamp negative m = clamp negative (n * 10 + 0) := by
    cases negative with
    | false =>
        simp only [clamp, Bool.false_eq_true, if_false]
        omega
    | true =>
        simp only [clamp, if_true]
        omega
  rw [hsame, hzero]

theorem readDigits_behind (t s : Bytes) (value : Nat) (ht : ∀ c ∈ t, isDigit c = true) :
    readDigits 10 value (t ++ s) = readDigits 10 value t ∨
      readDigits 10 value t * 10 ≤ readDigits 10 value (t ++ s) := by
  rw [readDigits_append ht]
  cases s with
  | nil => exact .inl rfl
  | cons c s =>
      cases hc : isDigit c with
      | false => exact .inl (readDigits_stop hc)
      | true =>
          rw [readDigits_digit hc]
          exact .inr ((Nat.le_add_right _ _).trans le_readDigits)

theorem numberBehind_append (hne : digitsStart p ≠ []) (s : Bytes) :
    numberBehind (p ++ s) = if (digitsStart p).head?.any isDigit then
      toInt (clamp (isNegative p) (readDigits 10 0 (digitsStart p ++ s))) else 0 := by
  have hstart : numberStart p ≠ [] := fun hnil => hne (by rw [digitsStart, hnil, afterSign_skips.nil])
  have hspace : (numberStart p).dropWhile isSpace ≠ [] := fun hnil => hne (by
    rw [digitsStart, afterSign, hnil]
    rfl)
  have hnegative : isNegative (p ++ s) = isNegative p := by
    rw [isNegative, numberStart_skips.left p s hstart, List.dropWhile_append, if_neg (by simpa using hspace),
      List.head?_append_of_ne_nil _ hspace, isNegative]
  rw [numberBehind_eq, digitsStart_skips.left p s hne, hnegative, List.head?_append_of_ne_nil _ hne]

theorem numberBehind_settled_iff (p : Bytes) : Settled numberBehind p ↔ NumberSettled p := by
  constructor
  · intro hsettled
    have hne : digitsStart p ≠ [] := by
      intro hnil
      -- the number begins behind the body
      have hdigit (c : UInt8) (hc : isDigit c = true) :
          numberBehind (p ++ [c]) = toInt (clamp (isNegative (p ++ [c])) (c.toNat - 48)) := by
        rw [numberBehind_eq, digitsStart_skips.stopped p c [] hc, hnil, List.nil_append, readDigits_digit hc]
        simp [hc, readDigits]
      have hfive := hdigit 53 (by decide)
      have hsix := hdigit 54 (by decide)
      rw [hsettled [53] (by decide)] at hfive
      rw [hsettled [54] (by decide), hfive] at hsix
      revert hsix
      cases isNegative (p ++ [53]) <;> cases isNegative (p ++ [54]) <;> decide
    refine ⟨hne, fun hdigits d hd => ?_⟩
    have hchar : isDigit (UInt8.ofNat (48 + d)) = true ∧ (UInt8.ofNat (48 + d)).toNat - 48 = d ∧
        UInt8.ofNat (48 + d) ≠ 0 := by
      revert d
      decide
    have hhead : (digitsStart p).head?.any isDigit = true := by
      cases hstart : digitsStart p with
      | nil => exact absurd hstart hne
      | cons c t => exact hdigits c (by simp [hstart])
    have hsame := hsettled [UInt8.ofNat (48 + d)] (by simpa using Ne.symm hchar.2.2)
    rw [numberBehind_append hne, numberBehind_eq, if_pos hhead, if_pos hhead, readDigits_append hdigits,
      readDigits_digit hchar.1, hchar.2.1] at hsame
    exact hsame
  · rintro ⟨hne, hlong⟩ s -
    rw [numberBehind_append hne, numberBehind_eq]
    split_ifs
    · by_cases hdigits : ∀ c ∈ digitsStart p, isDigit c = true
      · obtain hsame | hmore := readDigits_behind (digitsStart p) s 0 hdigits
        · rw [hsame]
        · exact (hlong hdigits).more hmore
      · push Not at hdigits
        obtain ⟨c, hc, hstop⟩ := hdigits
        rw [readDigits_append_stop ⟨c, hc, by simpa using hstop⟩]
    · rfl

/-- The body has the key, and the number behind it with its end. -/
def IdSettled (body : Bytes) : Prop := ∃ p, strstr (ascii "video_id") body = some p ∧ NumberSettled (p.drop 8)

theorem drop_found {word body p : Bytes} (hfound : strstr word body = some p) (s : Bytes) :
    (p ++ s).drop word.length = p.drop word.length ++ s :=
  List.drop_append_of_le_length (strstr_some hfound).2.length_le

theorem videoIdOf_settled_iff (body : Bytes) : Settled videoIdOf body ↔ IdSettled body := by
  cases hfound : strstr (ascii "video_id") body with
  | none =>
      refine iff_of_false (fun hsettled => ?_) (fun ⟨p, hp, _⟩ => by cases hfound.symm.trans hp)
      -- the key stands behind the body
      have habsent : ¬ ascii "video_id" <:+: body := fun hinfix => by
        rw [← strstr_isSome, hfound] at hinfix
        cases hinfix
      have hother := hsettled (32 :: (ascii "video_id:5")) (by decide)
      have hkey : strstr (ascii "video_id") (ascii "video_id:5") = some (ascii "video_id:5") := by decide
      rw [videoIdOf_eq, videoIdOf_eq, hfound, strstr_past (by decide) habsent, hkey] at hother
      exact absurd hother (by decide)
  | some p =>
      have hread (s : Bytes) : videoIdOf (body ++ s) = numberBehind (p.drop 8 ++ s) := by
        rw [videoIdOf_eq, strstr_append_right hfound]
        exact congrArg numberBehind (drop_found hfound s)
      have hbody : videoIdOf body = numberBehind (p.drop 8) := by
        rw [videoIdOf_eq, hfound]
        rfl
      have hiff : Settled videoIdOf body ↔ Settled numberBehind (p.drop 8) := by
        simp only [Settled, hread, hbody]
      rw [hiff, numberBehind_settled_iff]
      exact ⟨fun h => ⟨p, hfound, h⟩, fun ⟨p', hp', h⟩ => Option.some.inj (hfound.symm.trans hp') ▸ h⟩

/-! ### The texts -/

/-- `json_extract_string` from behind the key to the quote. -/
def textStart (p : Bytes) : Bytes := p.dropWhile fun c => c = 32 ∨ c = 9 ∨ c = 58

/-- The text between the quotes, if it fits. -/
def textBehind (outSize : Nat) (p : Bytes) : Bytes :=
  let u := textStart p
  if u.head? = some 34 ∧ 34 ∈ u.tail ∧ (u.tail.takeWhile fun c => c ≠ 34).length < outSize then
    u.tail.takeWhile fun c => c ≠ 34
  else []

/-- The body has the character that shows that there is no string, or the quote that ends it, or more characters than
fit. -/
def TextSettled (outSize : Nat) (p : Bytes) : Prop :=
  textStart p ≠ [] ∧
    ((textStart p).head? = some 34 → 34 ∈ (textStart p).tail ∨ outSize ≤ (textStart p).tail.length)

theorem textStart_skips : Skips (fun c => c = 34 ∨ c = 120) textStart :=
  Skips.dropWhile fun c hc => by
    rcases hc with rfl | rfl
    · decide
    · decide

theorem jsonExtractString_eq (json : Bytes) (key : String) (outSize : Nat) :
    (jsonExtractString json key outSize).getD [] =
      ((strstr (ascii "\"" ++ ascii key ++ ascii "\"") json).map fun p =>
        textBehind outSize (p.drop (ascii "\"" ++ ascii key ++ ascii "\"").length)).getD [] := by
  rw [jsonExtractString]
  cases strstr (ascii "\"" ++ ascii key ++ ascii "\"") json with
  | none => rfl
  | some p =>
      dsimp only
      rw [Option.map_some, Option.getD_some, textBehind, ← textStart]
      set u := textStart (p.drop (ascii "\"" ++ ascii key ++ ascii "\"").length)
      by_cases hquote : u.head? = some 34
      · rw [if_neg (not_not_intro hquote)]
        cases hend : strchr 34 u.tail with
        | none =>
            have hnot := strchr_eq_none.mp hend
            rw [if_neg fun h => hnot h.2.1]
            rfl
        | some rest =>
            have hmem : 34 ∈ u.tail := by
              by_contra hnot
              rw [strchr_eq_none.mpr hnot] at hend
              cases hend
            dsimp only
            rw [take_strchr hend]
            simp only [hquote, hmem, true_and]
            set text := u.tail.takeWhile fun c => c ≠ 34
            by_cases hfits : text.length < outSize
            · rw [if_pos hfits]
              cases htext : text with
              | nil => simp
              | cons c t =>
                  rw [htext] at hfits
                  rw [if_neg (by simp at hfits ⊢; omega), Option.getD_some]
            · rw [if_neg hfits, if_pos (.inr (not_lt.mp hfits)), Option.getD_none]
      · rw [if_pos hquote, if_neg fun h => hquote h.1, Option.getD_none]

theorem textBehind_append {outSize : Nat} (hne : textStart p ≠ []) (s : Bytes) :
    textBehind outSize (p ++ s) =
      if (textStart p).head? = some 34 ∧ 34 ∈ (textStart p).tail ++ s ∧
          (((textStart p).tail ++ s).takeWhile fun c => c ≠ 34).length < outSize then
        ((textStart p).tail ++ s).takeWhile fun c => c ≠ 34
      else [] := by
  rw [textBehind, textStart_skips.left p s hne, List.head?_append_of_ne_nil _ hne, List.tail_append_of_ne_nil hne]

theorem textBehind_open {outSize : Nat} (hend : 34 ∉ (textStart p).tail) : textBehind outSize p = [] :=
  if_neg fun h => hend h.2.1

theorem textBehind_settled_iff {outSize : Nat} (hsize : 1 < outSize) (p : Bytes) :
    Settled (textBehind outSize) p ↔ TextSettled outSize p := by
  have hplain {t : Bytes} (ht : 34 ∉ t) : ∀ c ∈ t, decide (c ≠ 34) = true := fun c hc =>
    decide_eq_true (ne_of_mem_of_not_mem hc ht)
  constructor
  · intro hsettled
    constructor
    · intro hnil
      have hbody : textBehind outSize p = [] := textBehind_open (by rw [hnil]; exact List.not_mem_nil)
      have hstart : textStart (p ++ [34, 120, 34]) = [34, 120, 34] := by
        rw [textStart_skips.stopped p 34 [120, 34] (.inl rfl), hnil, List.nil_append]
      have hother : textBehind outSize (p ++ [34, 120, 34]) = [120] := by
        rw [textBehind, hstart]
        simp [hsize]
      rw [hsettled [34, 120, 34] (by decide), hbody] at hother
      cases hother
    · intro hquote
      by_contra hopen
      obtain ⟨hend, hfits⟩ := not_or.mp hopen
      have hne : textStart p ≠ [] := fun hnil => by simp [hnil] at hquote
      cases htail : (textStart p).tail with
      | nil =>
          have hother := hsettled [120, 34] (by decide)
          rw [textBehind_open hend, textBehind_append hne, htail] at hother
          simp [hquote, hsize] at hother
      | cons c t =>
          have hother := hsettled [34] (by decide)
          rw [textBehind_open hend, textBehind_append hne, takeWhile_append_cons hend,
            if_pos ⟨hquote, by simp, not_le.mp hfits⟩, htail] at hother
          cases hother
  · rintro ⟨hne, hsettled⟩ s -
    rw [textBehind_append hne, textBehind]
    by_cases hquote : (textStart p).head? = some 34
    · by_cases hend : 34 ∈ (textStart p).tail
      · rw [takeWhile_append_of_mem hend]
        simp [hend]
      · have hlong := (hsettled hquote).resolve_left hend
        rw [List.takeWhile_append_of_pos (hplain hend), if_neg, if_neg fun h => hend h.2.1]
        rintro ⟨-, -, hfits⟩
        rw [List.length_append] at hfits
        omega
    · rw [if_neg fun h => hquote h.1, if_neg fun h => hquote h.1]

/-- The body has the key, and the string behind it with its end. -/
def FieldSettled (key : String) (outSize : Nat) (body : Bytes) : Prop :=
  ∃ p, strstr (ascii "\"" ++ ascii key ++ ascii "\"") body = some p ∧
    TextSettled outSize (p.drop (ascii "\"" ++ ascii key ++ ascii "\"").length)

theorem field_settled_iff {key : String} {outSize : Nat} (hspace : 32 ∉ ascii "\"" ++ ascii key ++ ascii "\"")
    (hnul : 0 ∉ ascii "\"" ++ ascii key ++ ascii "\"") (hsize : 1 < outSize) (body : Bytes) :
    Settled (fun json => (jsonExtractString json key outSize).getD []) body ↔ FieldSettled key outSize body := by
  set pattern := ascii "\"" ++ ascii key ++ ascii "\"" with hpattern
  cases hfound : strstr pattern body with
  | none =>
      refine iff_of_false (fun hsettled => ?_) (fun ⟨p, hp, _⟩ => by cases hfound.symm.trans hp)
      -- the key stands behind the body
      have habsent : ¬ pattern <:+: body := fun hinfix => by
        rw [← strstr_isSome, hfound] at hinfix
        cases hinfix
      have hs : 0 ∉ 32 :: (pattern ++ [34, 120, 34]) := by simp [hnul]
      have hother := hsettled (32 :: (pattern ++ [34, 120, 34])) hs
      have htext : textBehind outSize [34, 120, 34] = [120] := by simp [textBehind, textStart, hsize]
      simp only [jsonExtractString_eq, ← hpattern, hfound, strstr_past hspace habsent,
        strstr_prefix (List.prefix_append pattern [34, 120, 34]), Option.map_some, Option.map_none,
        Option.getD_some, Option.getD_none, List.drop_left, htext] at hother
      cases hother
  | some p =>
      have hread (s : Bytes) : (jsonExtractString (body ++ s) key outSize).getD [] =
          textBehind outSize (p.drop pattern.length ++ s) := by
        rw [jsonExtractString_eq, ← hpattern, strstr_append_right hfound]
        exact congrArg (textBehind outSize) (drop_found hfound s)
      have hbody : (jsonExtractString body key outSize).getD [] = textBehind outSize (p.drop pattern.length) := by
        rw [jsonExtractString_eq, ← hpattern, hfound]
        rfl
      have hiff : Settled (fun json => (jsonExtractString json key outSize).getD []) body ↔
          Settled (textBehind outSize) (p.drop pattern.length) := by
        simp only [Settled, hread, hbody]
      rw [hiff, textBehind_settled_iff hsize]
      exact ⟨fun h => ⟨p, hfound, h⟩, fun ⟨p', hp', h⟩ => Option.some.inj (hfound.symm.trans hp') ▸ h⟩

end

/-! ### The two handlers -/

/-- The id the handlers choose, where they come to it. -/
def chosenVideoId (env : ApiEnv) (req : HttpRequest) (conn : Conn) (memory : Bytes) : Option Int :=
  if env.db = true ∧ (isAdminUser conn req).1 = true then some (videoIdOf (ofMemory memory)) else none

/-- An update with this id changes a row. -/
def Writes (conn : Conn) (videoId : Int) : Prop :=
  0 < videoId ∧ conn.stmt.ok = true ∧ ∃ row ∈ conn.db.videos, row.id = videoId

section

variable {env : ApiEnv} {req : HttpRequest} {conn : Conn} {videoId : Int}
    {title title' description description' body : Bytes}

theorem updateVideo_eq_iff :
    updateVideo conn videoId title description = updateVideo conn videoId title' description' ↔
      (Writes conn videoId → title = title' ∧ description = description') := by
  by_cases hid : 0 < videoId
  · cases hok : conn.stmt.ok with
    | false =>
        rw [updateVideo_failed hid hok, updateVideo_failed hid hok]
        exact iff_of_true rfl fun hwrites => by cases hok.symm.trans hwrites.2.1
    | true =>
        rw [updateVideo_db hid hok, updateVideo_db hid hok]
        constructor
        · rintro hsame ⟨-, -, row, hrow, hrowId⟩
          have hrows : (conn.db.videos.map fun row => if row.id = videoId then
                { row with title := title, description := some description } else row) =
              conn.db.videos.map fun row => if row.id = videoId then
                { row with title := title', description := some description' } else row :=
            congrArg (fun result : ApiResult => result.conn.db.videos) hsame
          have hat := List.map_inj_left.mp hrows row hrow
          rw [if_pos hrowId, if_pos hrowId] at hat
          simp only [VideoRow.mk.injEq, Option.some.injEq, true_and, and_true] at hat
          exact hat
        · intro hsame
          by_cases hrow : ∃ row ∈ conn.db.videos, row.id = videoId
          · obtain ⟨rfl, rfl⟩ := hsame ⟨hid, hok, hrow⟩
            rfl
          · rw [database_updateVideo_absent _ hrow, database_updateVideo_absent _ hrow]
  · rw [updateVideo_invalid (not_lt.mp hid), updateVideo_invalid (not_lt.mp hid)]
    exact iff_of_true rfl fun hwrites => absurd hwrites.1 hid

theorem update_settled_iff (conn : Conn) (body : Bytes) :
    Settled (fun json => (some (videoIdOf json), updateVideo conn (videoIdOf json) (titleOf json) (descriptionOf json)))
        body ↔
      Settled videoIdOf body ∧ (Writes conn (videoIdOf body) → Settled titleOf body ∧ Settled descriptionOf body) := by
  constructor
  · intro hsettled
    have hid : Settled videoIdOf body := fun s hs => Option.some.inj (congrArg Prod.fst (hsettled s hs))
    have htexts (hwrites : Writes conn (videoIdOf body)) (s : Bytes) (hs : 0 ∉ s) :
        titleOf (body ++ s) = titleOf body ∧ descriptionOf (body ++ s) = descriptionOf body := by
      have hresult := congrArg Prod.snd (hsettled s hs)
      simp only [hid s hs] at hresult
      exact updateVideo_eq_iff.mp hresult hwrites
    exact ⟨hid, fun hwrites => ⟨fun s hs => (htexts hwrites s hs).1, fun s hs => (htexts hwrites s hs).2⟩⟩
  · rintro ⟨hid, htexts⟩ s hs
    have hresult := updateVideo_eq_iff.mpr fun hwrites : Writes conn (videoIdOf body) =>
      And.intro ((htexts hwrites).1 s hs) ((htexts hwrites).2 s hs)
    simp only [hid s hs, hresult]

end

/-- **Delete and update depend only on the body**, for every body and whatever the buffer held before, exactly if the
requester is refused, a NUL ends the body, or what the handler looks for stands in the body with its end: the number
for a delete, and for an update that changes a row the two texts as well. -/
theorem admin_reads_body_only_iff (env : ApiEnv) (req : HttpRequest) (conn : Conn) (body : Bytes) :
    (BodyOnly (fun memory => (chosenVideoId env req conn memory, handleAdminDelete env req conn memory)) body ↔
      ¬ Permitted env req conn ∨ 0 ∈ body ∨ IdSettled body) ∧
    (BodyOnly (fun memory => (chosenVideoId env req conn memory, handleAdminUpdate env req conn memory)) body ↔
      ¬ Permitted env req conn ∨ 0 ∈ body ∨ IdSettled body ∧
        (Writes (checked req conn) (videoIdOf body) →
          FieldSettled "title" dbMaxTitle body ∧ FieldSettled "description" dbMaxDescription body)) := by
  by_cases hpermitted : Permitted env req conn
  · have hchosen (memory : Bytes) : chosenVideoId env req conn memory = some (videoIdOf (ofMemory memory)) :=
      if_pos hpermitted
    let deleteRead (json : Bytes) := (some (videoIdOf json), deleteVideo (checked req conn) (videoIdOf json))
    let updateRead (json : Bytes) := (some (videoIdOf json),
      updateVideo (checked req conn) (videoIdOf json) (titleOf json) (descriptionOf json))
    have hdelete : (fun memory => (chosenVideoId env req conn memory, handleAdminDelete env req conn memory)) =
        fun memory => deleteRead (ofMemory memory) := by
      funext memory
      rw [hchosen, handleAdminDelete_eq hpermitted]
    have hupdate : (fun memory => (chosenVideoId env req conn memory, handleAdminUpdate env req conn memory)) =
        fun memory => updateRead (ofMemory memory) := by
      funext memory
      rw [hchosen, handleAdminUpdate_eq hpermitted]
    rw [hdelete, hupdate]
    by_cases hbody : 0 ∈ body
    · exact ⟨iff_of_true (bodyOnly_of_nul hbody) (.inr (.inl hbody)),
        iff_of_true (bodyOnly_of_nul hbody) (.inr (.inl hbody))⟩
    · have hdeleteIff : Settled deleteRead body ↔ Settled videoIdOf body := by
        refine ⟨fun hsettled s hs => Option.some.inj (congrArg Prod.fst (hsettled s hs)), fun hsettled s hs => ?_⟩
        simp only [deleteRead, hsettled s hs]
      have htitle : Settled titleOf body ↔ FieldSettled "title" dbMaxTitle body :=
        field_settled_iff (by decide) (by decide) (by decide) body
      have hdescription : Settled descriptionOf body ↔ FieldSettled "description" dbMaxDescription body :=
        field_settled_iff (by decide) (by decide) (by decide) body
      have hupdateIff : Settled updateRead body ↔ IdSettled body ∧ (Writes (checked req conn) (videoIdOf body) →
          FieldSettled "title" dbMaxTitle body ∧ FieldSettled "description" dbMaxDescription body) := by
        rw [← videoIdOf_settled_iff, ← htitle, ← hdescription]
        exact update_settled_iff (checked req conn) body
      rw [bodyOnly_iff_settled hbody, bodyOnly_iff_settled hbody, hdeleteIff, hupdateIff, videoIdOf_settled_iff]
      simp only [hpermitted, hbody, not_true_eq_false, false_or, and_self]
  · have hrefused (memory : Bytes) : chosenVideoId env req conn memory = none := if_neg hpermitted
    have hsame (memory memory' : Bytes) :
        chosenVideoId env req conn memory = chosenVideoId env req conn memory' := by rw [hrefused, hrefused]
    refine ⟨iff_of_true (fun stale stale' _ _ => ?_) (.inl hpermitted),
      iff_of_true (fun stale stale' _ _ => ?_) (.inl hpermitted)⟩
    · exact Prod.ext (hsame _ _) ((not_permitted hpermitted _).1.trans (not_permitted hpermitted _).1.symm)
    · exact Prod.ext (hsame _ _) ((not_permitted hpermitted _).2.trans (not_permitted hpermitted _).2.symm)

/-- A catalogue with the one video 7. -/
def sampleSeven : Conn := sampleAdmin [⟨7, ascii "Intro", none, ascii "7.mp4", none, none, 60, 0⟩]

/-- The buffer as an earlier request for the video has left it, and a buffer of zeros. -/
def sampleStale : Bytes := ascii "\x7b\"video_id\":7\x7d" ++ List.replicate httpMaxBody 0

def sampleZeros : Bytes := List.replicate httpMaxBody 0

/-- A request to delete with an empty body deletes the video that the earlier request has named. -/
theorem stale_id_deletes :
    let req := sampleAdminRequest "/admin/video/delete"
    (handleAdminDelete sampleApiEnv req sampleSeven ([] ++ sampleStale)).conn.db.videos = [] ∧
      (handleAdminDelete sampleApiEnv req sampleSeven ([] ++ sampleZeros)).conn.db.videos = sampleSeven.db.videos ∧
      ¬ BodyOnly (fun memory => (chosenVideoId sampleApiEnv req sampleSeven memory,
        handleAdminDelete sampleApiEnv req sampleSeven memory)) [] := by
  intro req
  have hzeros : ofMemory sampleZeros = [] := by simp [ofMemory, sampleZeros]
  have hstale : ofMemory sampleStale = ascii "\x7b\"video_id\":7\x7d" := by
    rw [sampleStale, ofMemory_append (by decide), ← sampleZeros, hzeros, List.append_nil]
  have hpermitted : Permitted sampleApiEnv req sampleSeven := ⟨rfl, rfl⟩
  have hdeleted : (handleAdminDelete sampleApiEnv req sampleSeven ([] ++ sampleStale)).conn.db.videos = [] := by
    rw [handleAdminDelete_eq hpermitted, List.nil_append, hstale,
      show videoIdOf (ascii "\x7b\"video_id\":7\x7d") = 7 by decide]
    rfl
  have hkept : (handleAdminDelete sampleApiEnv req sampleSeven ([] ++ sampleZeros)).conn.db.videos =
      sampleSeven.db.videos := by
    rw [handleAdminDelete_eq hpermitted, List.nil_append, hzeros, show videoIdOf [] = 0 by decide]
    rfl
  refine ⟨hdeleted, hkept, fun honly => ?_⟩
  have hlength : httpMaxBody ≤ ([] ++ sampleStale).length ∧ httpMaxBody ≤ ([] ++ sampleZeros).length := by
    simp [sampleStale, sampleZeros]
  have hsame := congrArg Prod.snd (honly _ _ hlength.1 hlength.2)
  rw [show handleAdminDelete sampleApiEnv req sampleSeven ([] ++ sampleStale) =
    handleAdminDelete sampleApiEnv req sampleSeven ([] ++ sampleZeros) from hsame, hkept] at hdeleted
  cases hdeleted

end OttQuic.Http
