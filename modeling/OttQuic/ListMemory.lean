import OttQuic.Http.JsonBody
import OttQuic.Lib.Memory
import OttQuic.Lists

/-!
# The buffers of the list builders

`list_videos`, `list_continue` and `handle_admin_list` once more, with the buffer, the position and the differences of
the code. `pos` runs past the end of the buffer when a row does not fit, since `snprintf` returns the length of the
whole row; the loop ends there, and what is left of it is checked. The text that is due is that of the rows under their
keys (`videosText`, `continueText`, `adminText`). `list_builders_safe` says that no rows lead to a fault, and that this
text is sent, if it fits.
-/

namespace OttQuic

open CString Db Memory WebSocket Http

/-- `if (!first) buf[pos++] = ','`. -/
def printComma (buf : Bytes) (pos : Nat) (first : Bool) : Checked (Nat × Bytes) :=
  if first then .ok (pos, buf)
  else do
    let buf ← store buf pos (ascii ",")
    .ok (pos + 1, buf)

/-- A list builder's `while` loop over the rows. -/
def printItems (size : Nat) : List Bytes → Bool → Nat → Bytes → Checked (Nat × Bytes)
  | [], _, pos, buf => .ok (pos, buf)
  | item :: items, first, pos, buf => do
    let (pos, buf) ← printComma buf pos first
    let room ← distance size pos
    let (n, buf) ← snprintfAt buf pos room item
    let pos := advance pos n
    if pos ≥ size - 1 then .ok (pos, buf) else printItems size items false pos buf

/-- A list builder with what is in its buffer at the start: `pos` and the buffer when the reply is sent, nothing when
`response-too-large` is answered. -/
def printList (buf head : Bytes) (items : List Bytes) : Checked (Option (Nat × Bytes)) := do
  let size := buf.length
  let room ← distance size 0
  let (n, buf) ← snprintfAt buf 0 room head
  let pos := advance 0 n
  let (pos, buf) ← printItems size items true pos buf
  if pos ≥ size - 2 then .ok none
  else
    let room ← distance size pos
    let (n, buf) ← snprintfAt buf pos room (ascii "]\x7d")
    .ok (some (advance pos n, buf))

/-- What `%s` prints of the texts of a row. -/
def printedRow (row : VideoRow) : VideoRow :=
  { row with
    title := ofMemory row.title
    description := row.description.map ofMemory
    filePath := ofMemory row.filePath
    thumbnailPath := row.thumbnailPath.map ofMemory }

def listVideosItem (row : VideoRow) : Bytes := videoItem (printedRow row) ++ ascii "\x7d"

def listContinueItem (entry : VideoRow × Int) : Bytes :=
  videoItem (printedRow entry.1) ++ ascii ",\"position\":" ++ decimal (toInt entry.2) ++ ascii "\x7d"

def handleAdminListItem (row : VideoRow) : Bytes := adminListItem (printedRow row)

/-- How a list builder ends. -/
inductive ListAnswer where
  /-- The list is sent. -/
  | list (text : Bytes)
  /-- `response-too-large` is sent. -/
  | tooLarge
  deriving DecidableEq

def videosHead : Bytes := ascii "\x7b\"type\":\"videos\",\"items\":["

def continueHead : Bytes := ascii "\x7b\"type\":\"continue_videos\",\"items\":["

def adminHead : Bytes := ascii "\x7b\"items\":["

/-- `ws_send_frame(io, 0x1, buf, pos)` with a list in `char buf[4096]`. -/
def sendList (buf : Vector UInt8 4096) (head : Bytes) (items : List Bytes) : Checked ListAnswer := do
  match ← printList buf.toList head items with
  | none => .ok .tooLarge
  | some (pos, buf) =>
    let payload ← load buf 0 pos
    .ok (.list payload)

def listVideosAnswer (buf : Vector UInt8 4096) (rows : List VideoRow) : Checked ListAnswer :=
  sendList buf videosHead (rows.map listVideosItem)

def listContinueAnswer (buf : Vector UInt8 4096) (rows : List (VideoRow × Int)) : Checked ListAnswer :=
  sendList buf continueHead (rows.map listContinueItem)

/-- The rows of `handle_admin_list` in `char buf[8192]`, which is sent as a string. -/
def handleAdminListAnswer (buf : Vector UInt8 8192) (rows : List VideoRow) : Checked ListAnswer := do
  match ← printList buf.toList adminHead (rows.map handleAdminListItem) with
  | none => .ok .tooLarge
  | some (_, buf) =>
    let body ← text buf 0
    .ok (.list body)

variable {size : Nat} {s buf : Bytes}

/-! ### The loop -/

/-- What stands in front of the next row. -/
def separator (first : Bool) : Bytes := if first then [] else ascii ","

theorem printComma_ok (first : Bool) (hs : s <+: buf) (hpos : s.length < buf.length) :
    ∃ buf', printComma buf s.length first = .ok ((s ++ separator first).length, buf') ∧
      buf'.length = buf.length ∧ s ++ separator first <+: buf' := by
  cases first with
  | true =>
      have hnone : s ++ separator true = s := List.append_nil s
      rw [hnone]
      exact ⟨buf, rfl, rfl, hs⟩
  | false =>
      obtain ⟨buf', hstore, hlength, hprefix⟩ :=
        store_behind hs (show s.length + (ascii ",").length ≤ buf.length from hpos)
      refine ⟨buf', ?_, hlength, hprefix⟩
      rw [printComma, if_neg (by simp), hstore, List.length_append]
      rfl

/-- Where the loop ends: behind all the rows, or at the end of the buffer or past it when they do not fit. -/
theorem printItems_ok (hsize : size < 2 ^ 31) {items : List Bytes} (hitems : ∀ item ∈ items, item.length < 2 ^ 31)
    (first : Bool) (hs : s <+: buf) (hbuf : buf.length = size) (hpos : s.length < size - 1) :
    ∃ pos buf', printItems size items first s.length buf = .ok (pos, buf') ∧ buf'.length = size ∧
      ((pos = (s ++ itemsText (separator first) items).length ∧ pos < size - 1 ∧
          s ++ itemsText (separator first) items <+: buf') ∨
        (size - 1 ≤ pos ∧ size - 1 ≤ (s ++ itemsText (separator first) items).length)) := by
  induction items generalizing first s buf with
  | nil =>
      rw [itemsText, List.append_nil]
      exact ⟨s.length, buf, rfl, hbuf, .inl ⟨rfl, hpos, hs⟩⟩
  | cons item items ih =>
      obtain ⟨hitem, hrest⟩ := List.forall_mem_cons.mp hitems
      obtain ⟨buf₁, hcomma, hbuf₁, hs₁⟩ := printComma_ok first hs (by omega)
      have hroom : (s ++ separator first).length < buf₁.length := by
        have hone : (separator first).length ≤ 1 := by cases first <;> decide
        rw [List.length_append]
        omega
      have hdistance : distance (size : Int) ((s ++ separator first).length : Int) =
          .ok (buf₁.length - (s ++ separator first).length) := by
        rw [hbuf₁, hbuf]
        exact distance_ok (by omega)
      have hadvance : advance (s ++ separator first).length (printed item.length) =
          (s ++ separator first ++ item).length := by
        rw [advance_printed (by omega) hitem]
        exact List.length_append.symm
      rw [itemsText, ← List.append_assoc, ← List.append_assoc, printItems, hcomma, bind_ok]
      dsimp only
      rw [hdistance, bind_ok]
      have hlong : (s ++ separator first ++ item).length = (s ++ separator first).length + item.length :=
        List.length_append
      by_cases hfits : (s ++ separator first ++ item).length < size - 1
      · have hin : (s ++ separator first).length + item.length < buf₁.length := by omega
        obtain ⟨buf₂, hprint, hbuf₂, hs₂⟩ := snprintfAt_fits hs₁ hin
        rw [hprint, bind_ok]
        dsimp only
        rw [hadvance, if_neg (by omega)]
        exact ih hrest false ((List.prefix_append _ _).trans hs₂) (by omega) hfits
      · obtain ⟨buf₂, hprint, hbuf₂, -⟩ := snprintfAt_ok hs₁ hroom item
        rw [hprint, bind_ok]
        dsimp only
        rw [hadvance, if_pos (by omega)]
        refine ⟨_, buf₂, rfl, by omega, .inr ⟨by omega, ?_⟩⟩
        rw [List.length_append]
        omega

/-! ### The whole buffer -/

/-- The complete text of a list. -/
def listed (head : Bytes) (items : List Bytes) : Bytes := head ++ itemsText [] items ++ ascii "]\x7d"

variable {head : Bytes} {items : List Bytes}

theorem printList_ok (hsize : buf.length < 2 ^ 31) (hhead : head.length < buf.length - 1)
    (hitems : ∀ item ∈ items, item.length < 2 ^ 31) :
    (∃ buf', printList buf head items = .ok (some ((listed head items).length, buf')) ∧
        (listed head items).length + 1 ≤ buf.length ∧ listed head items ++ [0] <+: buf') ∨
      (printList buf head items = .ok none ∧ buf.length < (listed head items).length + 1) := by
  have hclose : (ascii "]\x7d").length = 2 := rfl
  have htext : (listed head items).length = (head ++ itemsText [] items).length + 2 := by
    rw [listed, List.length_append, hclose]
  have hstart : distance (buf.length : Int) 0 = .ok buf.length := distance_ok (Nat.zero_le _)
  obtain ⟨buf₁, hprint, hbuf₁, hhead₁⟩ : ∃ buf', snprintfAt buf 0 buf.length head = .ok (printed head.length, buf') ∧
      buf'.length = buf.length ∧ [] ++ head ++ [0] <+: buf' :=
    snprintfAt_fits (List.nil_prefix) (show 0 + head.length < buf.length by omega)
  have hadvance : advance 0 (printed head.length) = head.length := by
    rw [advance_printed (by omega) (by omega), Nat.zero_add]
  obtain ⟨pos, buf₂, hloop, hbuf₂, hend⟩ :=
    printItems_ok hsize hitems true ((List.prefix_append _ _).trans hhead₁) hbuf₁ hhead
  rw [printList]
  dsimp only
  rw [hstart, bind_ok, hprint, bind_ok]
  dsimp only
  rw [hadvance]
  rw [List.nil_append] at hloop
  rw [hloop, bind_ok]
  dsimp only
  have hnone : separator true = [] := rfl
  rw [hnone, List.nil_append] at hend
  rcases hend with ⟨hpos, hlt, hrows⟩ | ⟨hpos, hlong⟩
  · by_cases hfits : (listed head items).length + 1 ≤ buf.length
    · -- the bracket and the brace fit
      obtain ⟨buf₃, hlast, hbuf₃, hall⟩ := snprintfAt_fits hrows
        (show (head ++ itemsText [] items).length + (ascii "]\x7d").length < buf₂.length by omega)
      have hroom : distance (buf.length : Int) pos = .ok (buf₂.length - (head ++ itemsText [] items).length) := by
        rw [distance_ok (by omega), hbuf₂, hpos]
      have htotal : advance pos (printed (ascii "]\x7d").length) = (listed head items).length := by
        rw [advance_printed (by omega) (by decide), hpos, htext, hclose]
      refine .inl ⟨buf₃, ?_, hfits, hall⟩
      rw [if_neg (by omega), hroom, bind_ok, hpos, hlast, bind_ok]
      dsimp only
      rw [← hpos, htotal]
    · exact .inr ⟨if_pos (by omega), by omega⟩
  · exact .inr ⟨if_pos (by omega), by omega⟩

/-- The text when it and its NUL fit. -/
def fittedList (size : Nat) (text : Bytes) : ListAnswer := if text.length + 1 ≤ size then .list text else .tooLarge

theorem sendList_ok (buf : Vector UInt8 4096) (hhead : head.length < 4095)
    (hitems : ∀ item ∈ items, item.length < 2 ^ 31) :
    sendList buf head items = .ok (fittedList 4096 (listed head items)) := by
  have hbuf : buf.toList.length = 4096 := Vector.length_toList
  rw [sendList, fittedList]
  rcases printList_ok (by omega) (by omega : head.length < buf.toList.length - 1) hitems with
    ⟨buf', hprint, hfits, hall⟩ | ⟨hprint, hlong⟩
  · rw [hprint, bind_ok, if_pos (by omega)]
    have hin : 0 + (listed head items).length ≤ buf'.length := by
      have hle := hall.length_le
      rw [List.length_append] at hle
      omega
    have hload : load buf' 0 (listed head items).length = .ok (buf'.take (listed head items).length) := load_ok hin
    dsimp only
    rw [hload, ← List.prefix_iff_eq_take.mp ((List.prefix_append _ _).trans hall)]
    rfl
  · rw [hprint, bind_ok, if_neg (by omega)]

/-! ### The rows -/

theorem nul_notMem_printed (row : VideoRow) :
    0 ∉ (printedRow row).title ∧ 0 ∉ (printedRow row).description.getD [] ∧ 0 ∉ (printedRow row).filePath ∧
      0 ∉ (printedRow row).thumbnailPath.getD [] := by
  have hoption (s : Option Bytes) : 0 ∉ (s.map ofMemory).getD [] := by
    cases s with
    | none => exact List.not_mem_nil
    | some s => exact not_mem_ofMemory s
  exact ⟨not_mem_ofMemory _, hoption _, not_mem_ofMemory _, hoption _⟩

theorem nul_notMem_handleAdminListItem (row : VideoRow) : 0 ∉ handleAdminListItem row := by
  obtain ⟨htitle, hdescription, hfile, hthumbnail⟩ := nul_notMem_printed row
  have hid : 0 ∉ decimal (toInt (printedRow row).id) := not_mem_decimal (c := '\x00') (by decide) (by decide) _
  simp only [handleAdminListItem, adminListItem, List.mem_append, not_or]
  refine ⟨⟨⟨⟨⟨⟨⟨⟨⟨⟨?_, hid⟩, ?_⟩, htitle⟩, ?_⟩, hdescription⟩, ?_⟩, hfile⟩, ?_⟩, hthumbnail⟩, ?_⟩
  · decide
  · decide
  · decide
  · decide
  · decide
  · decide

theorem nul_notMem_itemsText (first : Bool) (hitems : ∀ item ∈ items, 0 ∉ item) :
    0 ∉ itemsText (separator first) items := by
  induction items generalizing first with
  | nil => exact List.not_mem_nil
  | cons item items ih =>
      obtain ⟨hitem, hrest⟩ := List.forall_mem_cons.mp hitems
      have hcomma : 0 ∉ separator first := by cases first <;> decide
      rw [itemsText, List.mem_append, List.mem_append, not_or, not_or]
      exact ⟨⟨hcomma, hitem⟩, ih false hrest⟩

theorem handleAdminListAnswer_ok (buf : Vector UInt8 8192) (rows : List VideoRow)
    (hrows : ∀ row ∈ rows, (handleAdminListItem row).length < 2 ^ 31) :
    handleAdminListAnswer buf rows = .ok (fittedList 8192 (listed adminHead (rows.map handleAdminListItem))) := by
  have hbuf : buf.toList.length = 8192 := Vector.length_toList
  have hhead : adminHead.length < buf.toList.length - 1 := by
    rw [hbuf]
    decide
  have hnul : 0 ∉ listed adminHead (rows.map handleAdminListItem) := by
    have hitems : 0 ∉ itemsText [] (rows.map handleAdminListItem) :=
      nul_notMem_itemsText true (List.forall_mem_map.mpr fun row _ => nul_notMem_handleAdminListItem row)
    simp only [listed, List.mem_append, not_or]
    exact ⟨⟨by decide, hitems⟩, by decide⟩
  rw [handleAdminListAnswer, fittedList]
  rcases printList_ok (by omega) hhead (List.forall_mem_map.mpr hrows) with
    ⟨buf', hprint, hfits, tail, rfl⟩ | ⟨hprint, hlong⟩
  · have htext : text (listed adminHead (rows.map handleAdminListItem) ++ 0 :: tail) 0 =
        .ok (listed adminHead (rows.map handleAdminListItem)) := text_ok hnul (Nat.zero_le _)
    rw [hprint, bind_ok, if_pos (by omega)]
    dsimp only
    rw [List.append_assoc, List.singleton_append, htext]
    rfl
  · rw [hprint, bind_ok, if_neg (by omega)]

/-! ### The texts that are due -/

/-- A text ends at its NUL. -/
def Column.cString : Column → Column
  | .number n => .number n
  | .text bytes => .text (bytes.takeWhile fun c => c ≠ 0)

/-- The texts of a row as C strings. -/
def cStrings (columns : Columns) : Columns := columns.map fun (key, column) => (key, column.cString)

/-- The JSON text of a `list_videos` reply. -/
def videosText (rows : List VideoRow) : Bytes := listText videosTop (rows.map fun row => cStrings (videoColumns row))

/-- The JSON text of a `list_continue` reply. -/
def continueText (entries : List (VideoRow × Int)) : Bytes :=
  listText continueTop (entries.map fun entry => cStrings (continueColumns entry))

/-- The JSON text of an `/admin/video/list` reply. -/
def adminText (rows : List VideoRow) : Bytes := listText [] (rows.map fun row => cStrings (adminColumns row))

theorem getD_map_ofMemory (s : Option Bytes) : (s.map ofMemory).getD [] = (s.getD []).takeWhile fun c => c ≠ 0 := by
  cases s <;> rfl

theorem videoColumns_printedRow (row : VideoRow) : videoColumns (printedRow row) = cStrings (videoColumns row) := by
  simp only [videoColumns, printedRow, getD_map_ofMemory]
  rfl

theorem listVideosItem_eq (row : VideoRow) : listVideosItem row = rowText (cStrings (videoColumns row)) := by
  rw [listVideosItem, videoItem_eq, videoColumns_printedRow]

theorem listContinueItem_eq (entry : VideoRow × Int) :
    listContinueItem entry = rowText (cStrings (continueColumns entry)) := by
  have hcolumns : continueColumns (printedRow entry.1, entry.2) = cStrings (continueColumns entry) := by
    rw [continueColumns, videoColumns_printedRow, continueColumns, cStrings, cStrings, List.map_append]
    rfl
  rw [listContinueItem, ← hcolumns, ← continueItem_eq]

theorem handleAdminListItem_eq (row : VideoRow) : handleAdminListItem row = rowText (cStrings (adminColumns row)) := by
  have hcolumns : adminColumns (printedRow row) = cStrings (adminColumns row) := by
    simp only [adminColumns, printedRow, getD_map_ofMemory]
    rfl
  rw [handleAdminListItem, adminListItem_eq, hcolumns]

theorem listed_rows (rows : List Columns) :
    listed head (rows.map rowText) = head ++ rowsText [] rows ++ ascii "\x7d" := by
  have hends : ascii "]\x7d" = ascii "]" ++ ascii "\x7d" := rfl
  rw [listed, rowsText_itemsText, hends]
  simp only [List.append_assoc]

theorem listed_videos (rows : List VideoRow) : listed videosHead (rows.map listVideosItem) = videosText rows := by
  have hitems : rows.map listVideosItem = (rows.map fun row => cStrings (videoColumns row)).map rowText := by
    rw [List.map_map]
    exact List.map_congr_left fun row _ => listVideosItem_eq row
  rw [hitems, listed_rows, videosText]
  simp [listText, videosTop, videosHead, columnsText, Column.print, ascii]

theorem listed_continue (entries : List (VideoRow × Int)) :
    listed continueHead (entries.map listContinueItem) = continueText entries := by
  have hitems : entries.map listContinueItem =
      (entries.map fun entry => cStrings (continueColumns entry)).map rowText := by
    rw [List.map_map]
    exact List.map_congr_left fun entry _ => listContinueItem_eq entry
  rw [hitems, listed_rows, continueText]
  simp [listText, continueTop, continueHead, columnsText, Column.print, ascii]

theorem listed_admin (rows : List VideoRow) : listed adminHead (rows.map handleAdminListItem) = adminText rows := by
  have hitems : rows.map handleAdminListItem = (rows.map fun row => cStrings (adminColumns row)).map rowText := by
    rw [List.map_map]
    exact List.map_congr_left fun row _ => handleAdminListItem_eq row
  rw [hitems, listed_rows, adminText]
  simp [listText, adminHead, columnsText, ascii]

/-- **The list builders stay in their buffers**, and what is sent is the complete text of all the rows if it fits with its
NUL, and `response-too-large` otherwise. -/
theorem list_builders_safe (buf continueBuf : Vector UInt8 4096) (adminBuf : Vector UInt8 8192) (rows : List VideoRow)
    (entries : List (VideoRow × Int)) (adminRows : List VideoRow)
    (hrows : ∀ row ∈ rows, (rowText (cStrings (videoColumns row))).length < 2 ^ 31)
    (hentries : ∀ entry ∈ entries, (rowText (cStrings (continueColumns entry))).length < 2 ^ 31)
    (hadminRows : ∀ row ∈ adminRows, (rowText (cStrings (adminColumns row))).length < 2 ^ 31) :
    listVideosAnswer buf rows = .ok (fittedList 4096 (videosText rows)) ∧
      listContinueAnswer continueBuf entries = .ok (fittedList 4096 (continueText entries)) ∧
      handleAdminListAnswer adminBuf adminRows = .ok (fittedList 8192 (adminText adminRows)) := by
  simp only [← listVideosItem_eq] at hrows
  simp only [← listContinueItem_eq] at hentries
  simp only [← handleAdminListItem_eq] at hadminRows
  rw [← listed_videos, ← listed_continue, ← listed_admin]
  exact ⟨sendList_ok buf (by decide) (List.forall_mem_map.mpr hrows),
    sendList_ok continueBuf (by decide) (List.forall_mem_map.mpr hentries),
    handleAdminListAnswer_ok adminBuf adminRows hadminRows⟩

/-- Another video. -/
def titledVideo (title : Bytes) : VideoRow := ⟨2, title, none, ascii "2.mp4", none, none, 0, 0⟩

theorem rowText_titledVideo {title : Bytes} (h : 0 ∉ title) :
    rowText (cStrings (continueColumns (titledVideo title, 30))) = ascii "\x7b\"id\":2,\"title\":\"" ++ title ++
        ascii "\",\"description\":\"\",\"thumbnail_path\":\"\",\"duration\":0,\"position\":30\x7d" ∧
      rowText (cStrings (adminColumns (titledVideo title))) = ascii "\x7b\"id\":2,\"title\":\"" ++ title ++
        ascii "\",\"description\":\"\",\"file_path\":\"2.mp4\",\"thumbnail_path\":\"\"\x7d" := by
  have htitle : title.takeWhile (fun c => c ≠ 0) = title := by
    rw [List.takeWhile_eq_self_iff]
    exact fun c hc => by simpa using ne_of_mem_of_not_mem hc h
  have hid : decimal (toInt 2) = ascii "2" := by decide
  have hduration : decimal (toInt 0) = ascii "0" := by decide
  have hposition : decimal (toInt 30) = ascii "30" := by decide
  constructor
  · simp only [rowText, columnsText, cStrings, continueColumns, videoColumns, titledVideo, List.map_cons, List.map_nil,
      List.cons_append, List.nil_append, Column.cString, Column.print, htitle, hid, hduration, hposition, Option.getD_none]
    simp [ascii]
  · simp only [rowText, columnsText, cStrings, adminColumns, titledVideo, List.map_cons, List.map_nil, Column.cString,
      Column.print, htitle, hid, Option.getD_none]
    simp [ascii]

/-- Two rows that fit, one with a title up to a NUL; and a row that fits in 8192 bytes and not in 4096. -/
theorem list_builders_safe_two :
    listVideosAnswer (Vector.replicate 4096 255) [titledVideo (ascii "A\x00b"), sampleVideo] =
        .ok (.list (ascii "\x7b\"type\":\"videos\",\"items\":[" ++
          ascii "\x7b\"id\":2,\"title\":\"A\",\"description\":\"\",\"thumbnail_path\":\"\",\"duration\":0\x7d," ++
          ascii "\x7b\"id\":1,\"title\":\"Intro\",\"description\":\"\",\"thumbnail_path\":\"\",\"duration\":60\x7d]\x7d")) ∧
      listContinueAnswer (Vector.replicate 4096 255) [(titledVideo (List.replicate 4096 97), 30)] = .ok .tooLarge ∧
      handleAdminListAnswer (Vector.replicate 8192 255) [titledVideo (List.replicate 4096 97)] =
        .ok (.list (ascii "\x7b\"items\":[\x7b\"id\":2,\"title\":\"" ++ List.replicate 4096 97 ++
          ascii "\",\"description\":\"\",\"file_path\":\"2.mp4\",\"thumbnail_path\":\"\"\x7d]\x7d")) := by
  obtain ⟨title, htitle, hlength, hnul⟩ :
      ∃ title : Bytes, title = List.replicate 4096 97 ∧ title.length = 4096 ∧ 0 ∉ title :=
    ⟨_, rfl, List.length_replicate, fun h => absurd (List.eq_of_mem_replicate h) (by decide)⟩
  obtain ⟨hcontinueRow, hadminRow⟩ := rowText_titledVideo hnul
  have hcontinueText : continueText [(titledVideo title, 30)] = continueHead ++
      rowText (cStrings (continueColumns (titledVideo title, 30))) ++ ascii "]\x7d" := by
    rw [← listed_continue, List.map_singleton, listContinueItem_eq]
    simp [listed, itemsText]
  have hadminText : adminText [titledVideo title] =
      adminHead ++ rowText (cStrings (adminColumns (titledVideo title))) ++ ascii "]\x7d" := by
    rw [← listed_admin, List.map_singleton, handleAdminListItem_eq]
    simp [listed, itemsText]
  rw [hcontinueRow] at hcontinueText
  rw [hadminRow] at hadminText
  obtain ⟨hvideos, hcontinue, hadmin⟩ := list_builders_safe (Vector.replicate 4096 255) (Vector.replicate 4096 255)
    (Vector.replicate 8192 255) [titledVideo (ascii "A\x00b"), sampleVideo] [(titledVideo title, 30)] [titledVideo title]
    (by decide) (List.forall_mem_singleton.mpr (by rw [hcontinueRow]; simp [hlength, ascii]))
    (List.forall_mem_singleton.mpr (by rw [hadminRow]; simp [hlength, ascii]))
  rw [← htitle, hvideos, hcontinue, hadmin, hcontinueText, hadminText]
  refine ⟨by decide +kernel, ?_, ?_⟩
  · rw [fittedList, if_neg (by simp [hlength, continueHead, ascii])]
  · rw [fittedList, if_pos (by simp [hlength, adminHead, ascii])]
    simp [adminHead, ascii]

/-! ### The lists on texts -/

/-- The text that is sent, if any. -/
def ListAnswer.text : ListAnswer → Option Bytes
  | .list text => some text
  | .tooLarge => none

theorem fittedList_text {size : Nat} (hsize : 2 ≤ size) (head : Bytes) (items : List Bytes) :
    (fittedList size (listed head items)).text = buildList size head items := by
  rw [buildList_itemsText hsize, fittedList, ← listed]
  by_cases hfits : (listed head items).length + 1 ≤ size
  · rw [if_pos hfits, if_neg (by omega)]
    rfl
  · rw [if_neg hfits, if_pos (by omega)]
    rfl

/-- The texts are C strings. -/
def Printable (row : VideoRow) : Prop := printedRow row = row

variable {env : TextEnv} {conn : Conn}

theorem listVideosReply_answer (hdb : env.db = true) (hok : conn.stmt.ok = true) (buf : Vector UInt8 4096)
    (hprintable : ∀ row ∈ newestVideos conn.db, Printable row)
    (hrows : ∀ row ∈ newestVideos conn.db, (listVideosItem row).length < 2 ^ 31) :
    ∃ answer, listVideosAnswer buf (newestVideos conn.db) = .ok answer ∧
      (listVideosReply env conn).1 = answer.text.getD tooLarge := by
  have hitems : (newestVideos conn.db).map listVideosItem =
      (newestVideos conn.db).map fun row => videoItem row ++ ascii "\x7d" :=
    List.map_congr_left fun row hrow => by rw [listVideosItem, hprintable row hrow]
  refine ⟨_, sendList_ok buf (by decide) (List.forall_mem_map.mpr hrows), ?_⟩
  rw [fittedList_text (by decide), hitems, listVideosReply, if_neg (by simp [hdb]), Conn.query, dbSelect, if_pos hok]
  rfl

theorem listContinueReply_answer {userId : Int} (hdb : env.db = true) (huser : 0 < userId) (hok : conn.stmt.ok = true)
    (buf : Vector UInt8 4096) (hprintable : ∀ entry ∈ watchedVideos env.latestFirst conn.db userId, Printable entry.1)
    (hentries : ∀ entry ∈ watchedVideos env.latestFirst conn.db userId, (listContinueItem entry).length < 2 ^ 31) :
    ∃ answer, listContinueAnswer buf (watchedVideos env.latestFirst conn.db userId) = .ok answer ∧
      (listContinueReply env userId conn).1 = answer.text.getD tooLarge := by
  have hitems : (watchedVideos env.latestFirst conn.db userId).map listContinueItem =
      ((env.latestFirst.order (startedVideos conn.db userId)).take 10).map fun entry =>
        videoItem entry.1 ++ ascii ",\"position\":" ++ decimal (toInt entry.2.lastPosition) ++ ascii "\x7d" := by
    rw [watchedVideos, List.map_map]
    refine List.map_congr_left fun entry hentry => ?_
    have hrow : Printable entry.1 := hprintable (entry.1, entry.2.lastPosition) (List.mem_map_of_mem hentry)
    rw [Function.comp_apply, listContinueItem, hrow]
  refine ⟨_, sendList_ok buf (by decide) (List.forall_mem_map.mpr hentries), ?_⟩
  rw [fittedList_text (by decide), hitems, listContinueReply, if_neg (by simp [hdb]), if_neg (by omega), Conn.query,
    dbSelect, if_pos hok]
  rfl

theorem handleAdminList_answer {api : ApiEnv} {req : HttpRequest} {conn' : Conn} (hdb : api.db = true)
    (hadmin : isAdminUser conn req = (true, conn')) (hok : conn'.stmt.ok = true) (buf : Vector UInt8 8192)
    (hprintable : ∀ row ∈ allVideos conn'.db, Printable row)
    (hrows : ∀ row ∈ allVideos conn'.db, (handleAdminListItem row).length < 2 ^ 31) :
    ∃ answer, handleAdminListAnswer buf (allVideos conn'.db) = .ok answer ∧
      (handleAdminList api req conn).answer = .reply (adminListed answer.text) := by
  have hitems : (allVideos conn'.db).map handleAdminListItem = (allVideos conn'.db).map adminListItem :=
    List.map_congr_left fun row hrow => by rw [handleAdminListItem, hprintable row hrow]
  refine ⟨_, handleAdminListAnswer_ok buf _ hrows, ?_⟩
  rw [fittedList_text (by decide), hitems, handleAdminList, if_neg (by simp [hdb]), hadmin]
  dsimp only
  rw [Conn.query, dbSelect, if_pos hok]
  dsimp only
  rw [← allVideos, ← adminHead]
  cases buildList 8192 adminHead ((allVideos conn'.db).map adminListItem) with
  | none => rfl
  | some body => rfl

end OttQuic
