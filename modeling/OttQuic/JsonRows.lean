import Mathlib.Data.List.Nodup
import OttQuic.Json
import OttQuic.Lib.JsonWeight
import OttQuic.Lib.Utf8

/-!
# Rows as JSON objects

The replies with rows of the database print a row as an object, its texts between quotes as they are and
its numbers with `%d`, and read a number with `sqlite3_column_int`. What `JSON.parse` finds under the key
of a column is what the row holds exactly when the text needs no escape and the number fits an `int`.
-/

namespace OttQuic

open CString Json Utf8

/-- What a row holds in a column. -/
inductive Column where
  | number (n : Int)
  | text (bytes : Bytes)

/-- The columns of a row under their keys. -/
abbrev Columns := List (String × Column)

namespace Column

/-- The column in a reply. -/
def print : Column → Bytes
  | number n => decimal (toInt n)
  | text bytes => ascii "\"" ++ bytes ++ ascii "\""

/-- The value has what the row holds. -/
def Denotes (v : Json) : Column → Prop
  | number n => v = .num n
  | text bytes => ∃ s, v = .str s ∧ encode s = bytes

/-- A number of an `int`, or a UTF-8 text without quotes, backslashes and control characters. -/
def Clean : Column → Prop
  | number n => toInt n = n
  | text bytes => ∃ s, encode s = bytes ∧ ∀ c ∈ s, isPlain c = true

/-- The value the row holds, when its text is UTF-8. -/
def value : Column → Json
  | number n => .num n
  | text bytes => .str (decode bytes)

/-- The value the reply has, when its text is UTF-8 and needs no escape. -/
def printed : Column → Json
  | number n => .num (toInt n)
  | text bytes => .str (decode bytes)

def IsUtf8 : Column → Prop
  | number _ => True
  | text bytes => encode (decode bytes) = bytes

theorem denotes_iff {v : Json} {column : Column} : column.Denotes v ↔ v = column.value ∧ column.IsUtf8 := by
  cases column with
  | number n => exact ⟨fun h => ⟨h, trivial⟩, fun h => h.1⟩
  | text bytes =>
      constructor
      · rintro ⟨s, rfl, rfl⟩
        rw [value, IsUtf8, decode_encode]
        exact ⟨rfl, rfl⟩
      · rintro ⟨rfl, hutf8⟩
        exact ⟨_, rfl, hutf8⟩

theorem cost_value (column : Column) : cost column.value = cost column.printed := by
  cases column <;> rfl

theorem printed_whole (column : Column) : Whole column.printed := by
  cases column with
  | number n => exact .num (toInt n)
  | text bytes => exact .str _

theorem value_distinct (column : Column) : Distinct column.value := by
  cases column with
  | number n => exact .num n
  | text bytes => exact .str _

end Column

/-- The members of an object, with what comes after the columns; it is told the separator. -/
def columnsText (last : Bytes → Bytes) (separator : Bytes) : Columns → Bytes
  | [] => last separator
  | (k, column) :: columns =>
    separator ++ ascii "\"" ++ ascii k ++ ascii "\":" ++ column.print ++ columnsText last (ascii ",") columns

def rowText (columns : Columns) : Bytes := ascii "\x7b" ++ columnsText (fun _ => ascii "\x7d") [] columns

/-- The rows of a list, up to its end. -/
def rowsText (separator : Bytes) : List Columns → Bytes
  | [] => ascii "]"
  | columns :: rows => separator ++ rowText columns ++ rowsText (ascii ",") rows

/-- A reply with some texts of its own and rows under `items`. -/
def listText (top : Columns) (rows : List Columns) : Bytes :=
  ascii "\x7b" ++ columnsText
    (fun separator => separator ++ ascii "\"items\":[" ++ rowsText [] rows ++ ascii "\x7d") [] top

/-! ### The value of a row -/

def members (f : Column → Json) (columns : Columns) : List (List Char × Json) :=
  columns.map fun column => (column.1.toList, f column.2)

theorem members_cons (f : Column → Json) (column : String × Column) (columns : Columns) :
    members f (column :: columns) = (column.1.toList, f column.2) :: members f columns := rfl

def rowValue (f : Column → Json) (columns : Columns) : Json := .obj (members f columns)

/-- Different keys of plain ASCII characters. -/
def GoodKeys (keys : List String) : Prop :=
  keys.Nodup ∧ ∀ k ∈ keys, ∀ c ∈ k.toList, c.toNat < 128 ∧ isPlain c = true

instance (keys : List String) : Decidable (GoodKeys keys) :=
  inferInstanceAs (Decidable (keys.Nodup ∧ ∀ k ∈ keys, ∀ c ∈ k.toList, c.toNat < 128 ∧ isPlain c = true))

theorem members_nodup {columns : Columns} (h : GoodKeys (columns.map Prod.fst)) (f : Column → Json) :
    ((members f columns).map Prod.fst).Nodup := by
  have hkeys : (members f columns).map Prod.fst = (columns.map Prod.fst).map String.toList := by
    rw [members, List.map_map, List.map_map]
    rfl
  rw [hkeys]
  exact h.1.map fun k l => String.toList_injective

theorem rowValue_whole (columns : Columns) : Whole (rowValue Column.printed columns) := by
  refine .obj fun m hm => ?_
  obtain ⟨column, -, rfl⟩ := List.mem_map.mp hm
  exact column.2.printed_whole

theorem rowValue_distinct {columns : Columns} (h : GoodKeys (columns.map Prod.fst)) :
    Distinct (rowValue Column.value columns) := by
  refine .obj (members_nodup h _) fun m hm => ?_
  obtain ⟨column, -, rfl⟩ := List.mem_map.mp hm
  exact column.2.value_distinct

theorem membersCost_members (columns : Columns) :
    membersCost (members Column.value columns) = membersCost (members Column.printed columns) := by
  induction columns with
  | nil => rfl
  | cons column columns ih =>
      rw [members_cons, members_cons, membersCost, membersCost, column.2.cost_value, ih]

theorem cost_rowValue (columns : Columns) :
    cost (rowValue Column.value columns) = cost (rowValue Column.printed columns) := by
  rw [rowValue, rowValue, cost, cost, membersCost_members]

/-! ### The text of a row -/

theorem decimal_eq (n : Int) : decimal n = encode (toString n).toList := by
  refine ascii_eq fun c hc => ?_
  obtain rfl | hdigit := number_chars hc
  · decide
  · simp only [Char.isDigit, Bool.and_eq_true, decide_eq_true_eq, ge_iff_le, UInt32.le_iff_toNat_le] at hdigit
    have hnine : ('9' : Char).val.toNat = 57 := rfl
    have hnat : c.toNat = c.val.toNat := rfl
    omega

theorem Column.print_eq {column : Column} (h : column.IsUtf8) :
    column.print = encode (Json.print verbatim column.printed) := by
  cases column with
  | number n => exact decimal_eq (toInt n)
  | text bytes =>
      have hbytes : encode (decode bytes) = bytes := h
      have hquote : ascii "\"" = encode ['"'] := rfl
      rw [Column.print, Column.printed, Json.print, quote, flatMap_verbatim, encode_append, encode_cons, hbytes,
        hquote]

theorem columnsText_eq {columns : Columns} (hkeys : ∀ k ∈ columns.map Prod.fst, ∀ c ∈ k.toList, c.toNat < 128)
    (hutf8 : ∀ column ∈ columns, column.2.IsUtf8) {last : Bytes → Bytes} {tail : List (List Char × Json)}
    (hlast : ∀ separator, last (encode separator) = encode (printMembers verbatim separator tail))
    (separator : List Char) : columnsText last (encode separator) columns =
      encode (printMembers verbatim separator (members Column.printed columns ++ tail)) := by
  have hquote : ascii "\"" = encode ['"'] := rfl
  have hcolon : ascii "\":" = encode ['"'] ++ encode [':'] := rfl
  have hcomma : ascii "," = encode [','] := rfl
  induction columns generalizing separator with
  | nil => exact hlast separator
  | cons column columns ih =>
      obtain ⟨k, column⟩ := column
      rw [List.map_cons, List.forall_mem_cons] at hkeys
      obtain ⟨hcolumn, hcolumns⟩ := List.forall_mem_cons.mp hutf8
      have hrest := ih hkeys.2 hcolumns [',']
      rw [columnsText, hquote, hcolon, hcomma, ascii_eq hkeys.1, Column.print_eq hcolumn, hrest, members_cons,
        List.cons_append, printMembers, quote, flatMap_verbatim]
      have hmember : ∀ v : List Char, separator ++ ('"' :: k.toList ++ ['"']) ++ ':' :: v =
          separator ++ ['"'] ++ k.toList ++ (['"'] ++ [':']) ++ v := by
        simp
      rw [hmember]
      simp only [encode_append]

theorem rowText_eq {columns : Columns} (hkeys : GoodKeys (columns.map Prod.fst))
    (hutf8 : ∀ column ∈ columns, column.2.IsUtf8) :
    rowText columns = encode (Json.print verbatim (rowValue Column.printed columns)) := by
  have hascii : ∀ k ∈ columns.map Prod.fst, ∀ c ∈ k.toList, c.toNat < 128 := fun k hk c hc =>
    (hkeys.2 k hk c hc).1
  have hlast : ∀ separator, ascii "\x7d" = encode (printMembers verbatim separator []) := fun _ => rfl
  have hmembers := @columnsText_eq columns hascii hutf8 (fun _ => ascii "\x7d") [] hlast []
  have hopen : ascii "\x7b" = encode ['\x7b'] := rfl
  rw [List.append_nil] at hmembers
  rw [rowText, rowValue, Json.print, encode_cons, ← hmembers, hopen]
  rfl

/-! ### Replies -/

/-- The bytes are a JSON text, and `P` holds of its value. -/
def JsonReply (bytes : Bytes) (P : Json → Prop) : Prop :=
  ∃ text found, encode text = bytes ∧ parse text = some found ∧ P found

/-- The object has what the row holds under each of its keys. -/
def RowOf (columns : Columns) (v : Json) : Prop :=
  ∃ ms, v = .obj ms ∧ ∀ column ∈ columns, ∃ w, lookup column.1.toList ms = some w ∧ column.2.Denotes w

theorem jsonReply_iff {v required : Json} {P : Json → Prop} (hw : Whole v) (hd : Distinct required)
    (hcost : cost v = cost required) (hP : ∀ found, P found → Carries required found) :
    JsonReply (encode (Json.print verbatim v)) P ↔ Plain v ∧ P v := by
  constructor
  · rintro ⟨text, found, hbytes, hparse, hfound⟩
    rw [encode_injective hbytes] at hparse
    have hplain := plain_of_carries hparse (hP found hfound) hd hcost
    rw [parse_verbatim hw hplain] at hparse
    exact ⟨hplain, Option.some.inj hparse ▸ hfound⟩
  · rintro ⟨hplain, hv⟩
    exact ⟨_, v, rfl, parse_verbatim hw hplain, hv⟩

theorem Column.clean_iff {column : Column} :
    column.Clean ↔ column.Denotes column.printed ∧ Plain column.printed := by
  cases column with
  | number n =>
      constructor
      · intro hn
        exact ⟨congrArg (fun m : Int => Json.num m) hn, .num _⟩
      · rintro ⟨hn, -⟩
        exact_mod_cast Json.num.inj hn
  | text bytes =>
      constructor
      · rintro ⟨s, rfl, hs⟩
        rw [printed, decode_encode]
        exact ⟨⟨s, rfl, rfl⟩, .str hs⟩
      · rintro ⟨⟨s, hs, rfl⟩, hplain⟩
        rw [printed, decode_encode] at hplain
        cases hplain with
        | str hplain => exact ⟨s, rfl, hplain⟩

theorem Column.value_carries {v : Json} {column : Column} (h : column.Denotes v) : Carries column.value v := by
  rw [(Column.denotes_iff.mp h).1]
  cases column with
  | number n => exact .num _
  | text bytes => exact .str _

theorem RowOf.utf8 {columns : Columns} {v : Json} (h : RowOf columns v) :
    ∀ column ∈ columns, column.2.IsUtf8 := by
  obtain ⟨ms, -, hcolumns⟩ := h
  intro column hcolumn
  obtain ⟨w, -, hdenotes⟩ := hcolumns column hcolumn
  exact (Column.denotes_iff.mp hdenotes).2

theorem RowOf.carries {columns : Columns} {v : Json} (h : RowOf columns v) :
    Carries (rowValue Column.value columns) v := by
  obtain ⟨ms, rfl, hcolumns⟩ := h
  refine carries_obj fun m hm => ?_
  obtain ⟨column, hcolumn, rfl⟩ := List.mem_map.mp hm
  obtain ⟨w, hlookup, hdenotes⟩ := hcolumns column hcolumn
  exact ⟨w, hlookup, Column.value_carries hdenotes⟩

theorem rowOf_printed_iff {columns : Columns} (h : GoodKeys (columns.map Prod.fst)) :
    Plain (rowValue Column.printed columns) ∧ RowOf columns (rowValue Column.printed columns) ↔
      ∀ column ∈ columns, column.2.Clean := by
  have hlookup : ∀ column ∈ columns,
      lookup column.1.toList (members Column.printed columns) = some column.2.printed := fun column hcolumn =>
    lookup_self (members_nodup h _) (List.mem_map_of_mem hcolumn)
  constructor
  · rintro ⟨hplain, ms, hms, hcolumns⟩ column hcolumn
    obtain rfl := Json.obj.inj hms
    obtain ⟨w, hw, hdenotes⟩ := hcolumns column hcolumn
    rw [hlookup column hcolumn] at hw
    rw [← Option.some.inj hw] at hdenotes
    cases hplain with
    | obj _ hplain => exact Column.clean_iff.mpr ⟨hdenotes, hplain _ (List.mem_map_of_mem hcolumn)⟩
  · intro hclean
    refine ⟨.obj (fun m hm c hc => ?_) fun m hm => ?_, _, rfl, fun column hcolumn => ?_⟩
    · obtain ⟨column, hcolumn, rfl⟩ := List.mem_map.mp hm
      exact (h.2 column.1 (List.mem_map_of_mem hcolumn) c hc).2
    · obtain ⟨column, hcolumn, rfl⟩ := List.mem_map.mp hm
      exact (Column.clean_iff.mp (hclean column hcolumn)).2
    · exact ⟨_, hlookup column hcolumn, (Column.clean_iff.mp (hclean column hcolumn)).1⟩

theorem Column.Clean.isUtf8 {column : Column} (h : column.Clean) : column.IsUtf8 :=
  (Column.denotes_iff.mp (Column.clean_iff.mp h).1).2

theorem rowText_reply_iff {columns : Columns} (h : GoodKeys (columns.map Prod.fst)) :
    JsonReply (rowText columns) (RowOf columns) ↔ ∀ column ∈ columns, column.2.Clean := by
  by_cases hutf8 : ∀ column ∈ columns, column.2.IsUtf8
  · rw [rowText_eq h hutf8, jsonReply_iff (rowValue_whole columns) (rowValue_distinct h)
      (cost_rowValue columns).symm fun _ hfound => hfound.carries]
    exact rowOf_printed_iff h
  · constructor
    · rintro ⟨text, found, -, -, hfound⟩
      exact absurd hfound.utf8 hutf8
    · exact fun hclean => absurd (fun column hcolumn => (hclean column hcolumn).isUtf8) hutf8

/-! ### Lists of rows -/

/-- The object has the texts, and the rows in their order under `items`. -/
def ListOf (top : Columns) (rows : List Columns) (v : Json) : Prop :=
  RowOf top v ∧ ∃ ms vs, v = .obj ms ∧ lookup "items".toList ms = some (.arr vs) ∧ List.Forall₂ RowOf rows vs

def listValue (f : Column → Json) (top : Columns) (rows : List Columns) : Json :=
  .obj (members f top ++ [("items".toList, .arr (rows.map (rowValue f)))])

/-- The keys of a list and of its rows. -/
structure GoodLists (top : Columns) (rows : List Columns) : Prop where
  top : GoodKeys (top.map Prod.fst ++ ["items"])
  rows : ∀ columns ∈ rows, GoodKeys (columns.map Prod.fst)

variable {top : Columns} {rows : List Columns}

theorem GoodLists.topKeys (h : GoodLists top rows) : GoodKeys (top.map Prod.fst) :=
  ⟨(List.nodup_append.mp h.top.1).1, fun k hk => h.top.2 k (List.mem_append_left _ hk)⟩

theorem GoodLists.nodup (h : GoodLists top rows) (f : Column → Json) (v : Json) :
    ((members f top ++ [("items".toList, v)]).map Prod.fst).Nodup := by
  have hkeys : (members f top ++ [("items".toList, v)]).map Prod.fst =
      (top.map Prod.fst ++ ["items"]).map String.toList := by
    rw [members, List.map_append, List.map_append, List.map_map, List.map_map]
    rfl
  rw [hkeys]
  exact h.top.1.map fun k l => String.toList_injective

theorem listValue_whole (top : Columns) (rows : List Columns) : Whole (listValue Column.printed top rows) := by
  refine .obj fun m hm => ?_
  obtain htop | hitems := List.mem_append.mp hm
  · obtain ⟨column, -, rfl⟩ := List.mem_map.mp htop
    exact column.2.printed_whole
  · rw [List.mem_singleton.mp hitems]
    refine .arr fun v hv => ?_
    obtain ⟨columns, -, rfl⟩ := List.mem_map.mp hv
    exact rowValue_whole columns

theorem listValue_distinct (h : GoodLists top rows) : Distinct (listValue Column.value top rows) := by
  refine .obj (h.nodup _ _) fun m hm => ?_
  obtain htop | hitems := List.mem_append.mp hm
  · obtain ⟨column, -, rfl⟩ := List.mem_map.mp htop
    exact column.2.value_distinct
  · rw [List.mem_singleton.mp hitems]
    refine .arr fun v hv => ?_
    obtain ⟨columns, hcolumns, rfl⟩ := List.mem_map.mp hv
    exact rowValue_distinct (h.rows columns hcolumns)

theorem cost_listValue (top : Columns) (rows : List Columns) :
    cost (listValue Column.value top rows) = cost (listValue Column.printed top rows) := by
  have hitems : itemsCost (rows.map (rowValue Column.value)) = itemsCost (rows.map (rowValue Column.printed)) := by
    induction rows with
    | nil => rfl
    | cons columns rows ih => rw [List.map_cons, List.map_cons, itemsCost, itemsCost, cost_rowValue, ih]
  have hmembers : ∀ tail tail', membersCost tail = membersCost tail' →
      membersCost (members Column.value top ++ tail) = membersCost (members Column.printed top ++ tail') := by
    intro tail tail' htail
    induction top with
    | nil => exact htail
    | cons column top ih =>
        rw [members_cons, members_cons, List.cons_append, List.cons_append, membersCost, membersCost,
          column.2.cost_value, ih]
  have htail : membersCost [("items".toList, .arr (rows.map (rowValue Column.value)))] =
      membersCost [("items".toList, .arr (rows.map (rowValue Column.printed)))] := by
    simp only [membersCost, cost, hitems]
  rw [listValue, listValue, cost, cost, hmembers _ _ htail]

theorem rowsText_eq (hkeys : ∀ columns ∈ rows, GoodKeys (columns.map Prod.fst))
    (hutf8 : ∀ columns ∈ rows, ∀ column ∈ columns, column.2.IsUtf8) (separator : List Char) :
    rowsText (encode separator) rows =
      encode (printItems verbatim separator (rows.map (rowValue Column.printed))) := by
  induction rows generalizing separator with
  | nil => rfl
  | cons columns rows ih =>
      obtain ⟨hrow, hrows⟩ := List.forall_mem_cons.mp hkeys
      obtain ⟨hcolumns, hrest⟩ := List.forall_mem_cons.mp hutf8
      have hcomma : ascii "," = encode [','] := rfl
      rw [rowsText, hcomma, ih hrows hrest [','], rowText_eq hrow hcolumns, List.map_cons, printItems,
        encode_append, encode_append]

theorem listText_eq (h : GoodLists top rows) (htop : ∀ column ∈ top, column.2.IsUtf8)
    (hrows : ∀ columns ∈ rows, ∀ column ∈ columns, column.2.IsUtf8) :
    listText top rows = encode (Json.print verbatim (listValue Column.printed top rows)) := by
  have hascii : ∀ k ∈ top.map Prod.fst, ∀ c ∈ k.toList, c.toNat < 128 := fun k hk c hc =>
    (h.topKeys.2 k hk c hc).1
  have hitems : ∀ separator : List Char,
      encode separator ++ ascii "\"items\":[" ++ rowsText [] rows ++ ascii "\x7d" =
        encode (printMembers verbatim separator
          [("items".toList, .arr (rows.map (rowValue Column.printed)))]) := by
    intro separator
    have hrowsText := rowsText_eq h.rows hrows []
    have hkey : ascii "\"items\":[" = encode (quote verbatim "items".toList ++ [':', '[']) := by decide
    have hclose : ascii "\x7d" = encode ['\x7d'] := rfl
    have hmember : ∀ items : List Char, separator ++ quote verbatim "items".toList ++ ':' :: '[' :: items ++
        ['\x7d'] = separator ++ (quote verbatim "items".toList ++ [':', '[']) ++ items ++ ['\x7d'] := by
      simp
    rw [printMembers, printMembers, Json.print, hmember, encode_append, encode_append, encode_append,
      ← hrowsText, ← hkey, ← hclose]
    rfl
  have hmembers := @columnsText_eq top hascii htop
    (fun separator => separator ++ ascii "\"items\":[" ++ rowsText [] rows ++ ascii "\x7d") _ hitems []
  have hopen : ascii "\x7b" = encode ['\x7b'] := rfl
  rw [listText, listValue, Json.print, encode_cons, ← hmembers, hopen]
  rfl

theorem ListOf.utf8 {v : Json} (h : ListOf top rows v) :
    (∀ column ∈ top, column.2.IsUtf8) ∧ ∀ columns ∈ rows, ∀ column ∈ columns, column.2.IsUtf8 := by
  obtain ⟨htop, ms, vs, -, -, hrows⟩ := h
  refine ⟨htop.utf8, ?_⟩
  induction hrows with
  | nil => exact List.forall_mem_nil _
  | cons hrow _ ih => exact List.forall_mem_cons.mpr ⟨hrow.utf8, ih⟩

theorem ListOf.carries {v : Json} (h : ListOf top rows v) : Carries (listValue Column.value top rows) v := by
  obtain ⟨⟨ms, rfl, hcolumns⟩, ns, vs, hns, hitems, hrows⟩ := h
  obtain rfl := Json.obj.inj hns
  refine carries_obj fun m hm => ?_
  obtain htop | hlast := List.mem_append.mp hm
  · obtain ⟨column, hcolumn, rfl⟩ := List.mem_map.mp htop
    obtain ⟨w, hlookup, hdenotes⟩ := hcolumns column hcolumn
    exact ⟨w, hlookup, Column.value_carries hdenotes⟩
  · rw [List.mem_singleton.mp hlast]
    refine ⟨_, hitems, .arr ?_ fun p hp => ?_⟩
    · rw [List.length_map, hrows.length_eq]
    · rw [List.zip_map_left] at hp
      obtain ⟨⟨columns, v⟩, hmem, rfl⟩ := List.mem_map.mp hp
      exact RowOf.carries ((List.forall₂_iff_zip.mp hrows).2 hmem)

theorem listOf_printed_iff (h : GoodLists top rows) :
    Plain (listValue Column.printed top rows) ∧ ListOf top rows (listValue Column.printed top rows) ↔
      (∀ column ∈ top, column.2.Clean) ∧ ∀ columns ∈ rows, ∀ column ∈ columns, column.2.Clean := by
  have hlookup : ∀ m ∈ members Column.printed top ++
      [("items".toList, Json.arr (rows.map (rowValue Column.printed)))],
      lookup m.1 (members Column.printed top ++
        [("items".toList, Json.arr (rows.map (rowValue Column.printed)))]) = some m.2 := fun m hm =>
    lookup_self (h.nodup _ _) hm
  have htopLookup := fun column (hcolumn : column ∈ top) => hlookup _
    (List.mem_append_left _ (List.mem_map_of_mem hcolumn))
  have hitems := hlookup _ (List.mem_append_right _ (List.mem_singleton.mpr rfl))
  constructor
  · rintro ⟨hplain, ⟨ms, hms, hcolumns⟩, ns, vs, hns, hvs, hrows⟩
    obtain rfl := Json.obj.inj hms
    obtain rfl := Json.obj.inj hns
    rw [hitems] at hvs
    obtain rfl := Json.arr.inj (Option.some.inj hvs)
    cases hplain with
    | obj _ hplain =>
        constructor
        · intro column hcolumn
          obtain ⟨w, hw, hdenotes⟩ := hcolumns column hcolumn
          rw [htopLookup column hcolumn] at hw
          rw [← Option.some.inj hw] at hdenotes
          have hmem := List.mem_append_left [("items".toList, Json.arr (rows.map (rowValue Column.printed)))]
            (List.mem_map_of_mem (f := fun c : String × Column => (c.1.toList, c.2.printed)) hcolumn)
          exact Column.clean_iff.mpr ⟨hdenotes, hplain _ hmem⟩
        · have hlist := hplain _ (List.mem_append_right _ (List.mem_singleton.mpr rfl))
          cases hlist with
          | arr hrowPlain =>
              intro columns hcolumns
              have hrow := List.forall₂_map_right_iff.mp hrows
              have hself : RowOf columns (rowValue Column.printed columns) :=
                List.forall₂_same.mp hrow columns hcolumns
              exact (rowOf_printed_iff (h.rows columns hcolumns)).mp
                ⟨hrowPlain _ (List.mem_map_of_mem hcolumns), hself⟩
  · rintro ⟨htop, hrows⟩
    have hrowPlain := fun columns (hcolumns : columns ∈ rows) =>
      (rowOf_printed_iff (h.rows columns hcolumns)).mpr (hrows columns hcolumns)
    refine ⟨.obj (fun m hm c hc => ?_) fun m hm => ?_, ⟨_, rfl, fun column hcolumn => ?_⟩, _, _, rfl, hitems, ?_⟩
    · obtain hmem | hlast := List.mem_append.mp hm
      · obtain ⟨column, hcolumn, rfl⟩ := List.mem_map.mp hmem
        exact (h.topKeys.2 column.1 (List.mem_map_of_mem hcolumn) c hc).2
      · rw [List.mem_singleton.mp hlast] at hc
        exact (h.top.2 "items" (List.mem_append_right _ (List.mem_singleton.mpr rfl)) c hc).2
    · obtain hmem | hlast := List.mem_append.mp hm
      · obtain ⟨column, hcolumn, rfl⟩ := List.mem_map.mp hmem
        exact (Column.clean_iff.mp (htop column hcolumn)).2
      · rw [List.mem_singleton.mp hlast]
        refine .arr fun v hv => ?_
        obtain ⟨columns, hcolumns, rfl⟩ := List.mem_map.mp hv
        exact (hrowPlain columns hcolumns).1
    · exact ⟨_, htopLookup column hcolumn, (Column.clean_iff.mp (htop column hcolumn)).1⟩
    · rw [List.forall₂_map_right_iff, List.forall₂_same]
      exact fun columns hcolumns => (hrowPlain columns hcolumns).2

theorem listText_reply_iff (h : GoodLists top rows) :
    JsonReply (listText top rows) (ListOf top rows) ↔
      (∀ column ∈ top, column.2.Clean) ∧ ∀ columns ∈ rows, ∀ column ∈ columns, column.2.Clean := by
  by_cases hutf8 : (∀ column ∈ top, column.2.IsUtf8) ∧ ∀ columns ∈ rows, ∀ column ∈ columns, column.2.IsUtf8
  · rw [listText_eq h hutf8.1 hutf8.2, jsonReply_iff (listValue_whole top rows) (listValue_distinct h)
      (cost_listValue top rows).symm fun _ hfound => hfound.carries]
    exact listOf_printed_iff h
  · constructor
    · rintro ⟨text, found, -, -, hfound⟩
      exact absurd hfound.utf8 hutf8
    · rintro ⟨htop, hrows⟩
      refine absurd ⟨fun column hcolumn => (htop column hcolumn).isUtf8, ?_⟩ hutf8
      exact fun columns hcolumns column hcolumn => (hrows columns hcolumns column hcolumn).isUtf8

end OttQuic
