import OttQuic.Http.Request
import OttQuic.Lib.Tokens

/-!
# Parsing requests (`http_parse_request`)

The parser looks for the first empty line, drops every carriage return in front of it, and cuts what is left into
lines. The request line is read by `sscanf`, each header by its first colon; both are cut to the fields of
`http_request_t`. `httpParseRequest_print` says what it makes of a request as a client writes it.
-/

namespace OttQuic.Http

open CString Tokens

abbrev httpMaxMethod : Nat := 8
abbrev httpMaxPath : Nat := 128
abbrev httpMaxVersion : Nat := 16
abbrev httpMaxHeaders : Nat := 32
abbrev httpMaxHeaderKey : Nat := 64
abbrev httpMaxHeaderVal : Nat := 256

def lineEnd : Bytes := [13, 10]

/-- Two line ends. -/
def emptyLine : Bytes := [13, 10, 13, 10]

/-- A `%s` of `sscanf` with a width, and the text behind it. -/
def scanString (width : Nat) (s : Bytes) : Option (Bytes × Bytes) :=
  let s := s.dropWhile isSpace
  let word := (s.takeWhile fun c => !isSpace c).take width
  if word = [] then none else some (word, s.drop word.length)

/-- `sscanf(line, "%7s %127s %15s", ...)`, when it is `3`. -/
def scanRequestLine (line : Bytes) : Option (Bytes × Bytes × Bytes) :=
  match scanString (httpMaxMethod - 1) line with
  | none => none
  | some (method, line) =>
    match scanString (httpMaxPath - 1) line with
    | none => none
    | some (path, line) =>
      match scanString (httpMaxVersion - 1) line with
      | none => none
      | some (version, _) => some (method, path, version)

/-- A line of the loop over the headers; one without a colon is skipped. -/
def parseHeader (line : Bytes) : Option (Bytes × Bytes) :=
  (strchr 58 line).map fun colon =>
    let key := line.take (line.length - colon.length)
    let value := colon.tail.dropWhile fun c => c = 32 ∨ c = 9
    ((key.take (httpMaxHeaderKey - 1)).map toLower, value.take (httpMaxHeaderVal - 1))

/-- The lines of the header block, from its copy without carriage returns. -/
def blockLines (block : Bytes) : List Bytes := tokens (fun c => c = 10) (ofMemory (block.filter fun c => c ≠ 13))

/-- `http_parse_request`; `malloc` is whether the copy of the header block is allocated. -/
def httpParseRequest (malloc : Bool) (raw : Bytes) : Option HttpRequest :=
  match strstr emptyLine raw with
  | none => none
  | some separator =>
    if malloc = false then none
    else
      match blockLines (raw.take (raw.length - separator.length)) with
      | [] => none
      | line :: lines =>
        match scanRequestLine line with
        | none => none
        | some (method, path, version) =>
          some ⟨method, path, version, (lines.filterMap parseHeader).take httpMaxHeaders⟩

example : httpParseRequest true (ascii "GET /x HTTP/1.1\r\nHost:  a\r\nbad\r\nCookie: b=1; c\r\n\r\nbody") =
    some ⟨ascii "GET", ascii "/x", ascii "HTTP/1.1",
      [(ascii "host", ascii "a"), (ascii "cookie", ascii "b=1; c")]⟩ := by
  decide

/-! ### Requests as they are written -/

/-- A character of a line. -/
def IsLineChar (c : UInt8) : Prop := c ≠ 13 ∧ c ≠ 10 ∧ c ≠ 0

instance : DecidablePred IsLineChar := fun c => inferInstanceAs (Decidable (c ≠ 13 ∧ c ≠ 10 ∧ c ≠ 0))

/-- A character of a token, the name of a header. -/
def isTokenChar (c : UInt8) : Bool :=
  (48 ≤ c ∧ c ≤ 57) ∨ (65 ≤ c ∧ c ≤ 90) ∨ (97 ≤ c ∧ c ≤ 122) ∨ c ∈ ascii "!#$%&'*+-.^_`|~"

/-- A header line: a name, and all that follows the colon. -/
structure HeaderLine where
  name : Bytes
  field : Bytes
  name_ne_nil : name ≠ []
  name_isToken : ∀ c ∈ name, isTokenChar c = true
  field_isLine : ∀ c ∈ field, IsLineChar c

/-- A request up to its body. -/
structure RequestHead where
  line : Bytes
  headers : List HeaderLine
  line_ne_nil : line ≠ []
  line_isLine : ∀ c ∈ line, IsLineChar c

def HeaderLine.text (header : HeaderLine) : Bytes := header.name ++ 58 :: header.field

def HeaderLine.print (header : HeaderLine) : Bytes := header.text ++ lineEnd

/-- The request as a client sends it, with the empty line. -/
def RequestHead.print (head : RequestHead) : Bytes :=
  head.line ++ lineEnd ++ head.headers.flatMap HeaderLine.print ++ lineEnd

/-- The value of the header, without blanks in front. -/
def HeaderLine.value (header : HeaderLine) : Bytes := header.field.dropWhile fun c => c = 32 ∨ c = 9

/-- What the parser keeps of the header. -/
def HeaderLine.stored (header : HeaderLine) : Bytes × Bytes :=
  ((header.name.take (httpMaxHeaderKey - 1)).map toLower, header.value.take (httpMaxHeaderVal - 1))

section

variable {c : UInt8} {s t : Bytes} {header : HeaderLine}

theorem isTokenChar_plain (hc : isTokenChar c = true) : IsLineChar c ∧ c ≠ 58 := by
  have hne {d : UInt8} (hd : isTokenChar d = false) : c ≠ d := fun heq => by
    rw [heq, hd] at hc
    cases hc
  exact ⟨⟨hne (by decide), hne (by decide), hne (by decide)⟩, hne (by decide)⟩

theorem HeaderLine.text_isLine (header : HeaderLine) : ∀ c ∈ header.text, IsLineChar c := by
  intro c hc
  rcases List.mem_append.mp hc with hname | hfield
  · exact (isTokenChar_plain (header.name_isToken c hname)).1
  · rcases List.mem_cons.mp hfield with rfl | hfield
    · exact ⟨by decide, by decide, by decide⟩
    · exact header.field_isLine c hfield

theorem HeaderLine.text_ne_nil (header : HeaderLine) : header.text ≠ [] := by simp [HeaderLine.text]

theorem parseHeader_text (header : HeaderLine) : parseHeader header.text = some header.stored := by
  have hcolon : 58 ∉ header.name := fun hmem => (isTokenChar_plain (header.name_isToken 58 hmem)).2 rfl
  rw [parseHeader, HeaderLine.text, strchr_append_cons hcolon, Option.map_some, take_front, List.tail_cons]
  rfl

/-! ### The header block -/

/-- The lines with the line ends between them. -/
def joinLines (line : Bytes) : List Bytes → Bytes
  | [] => line
  | next :: lines => line ++ (lineEnd ++ joinLines next lines)

theorem strstr_lineEnd (hc : c ≠ 13) (t : Bytes) :
    strstr emptyLine (lineEnd ++ c :: t) = strstr emptyLine (c :: t) := by
  have hfirst : ¬ emptyLine.isPrefixOf (13 :: 10 :: c :: t) := by
    simp [emptyLine, Ne.symm hc]
  have hsecond : ¬ emptyLine.isPrefixOf (10 :: c :: t) := by simp [emptyLine]
  rw [lineEnd, List.cons_append, List.singleton_append, strstr, if_neg hfirst, strstr, if_neg hsecond]

theorem head_joinLines {line : Bytes} (hline : 13 ∉ line) (hne : line ≠ []) (lines : List Bytes) :
    ∃ c t, joinLines line lines = c :: t ∧ c ≠ 13 := by
  obtain ⟨c, w, rfl⟩ := List.exists_cons_of_ne_nil hne
  have hc : c ≠ 13 := fun heq => hline (by simp [heq])
  cases lines with
  | nil => exact ⟨c, w, rfl, hc⟩
  | cons next lines => exact ⟨c, w ++ (lineEnd ++ joinLines next lines), rfl, hc⟩

theorem strstr_joinLines {line : Bytes} {lines : List Bytes} (hline : 13 ∉ line)
    (hlines : ∀ s ∈ lines, 13 ∉ s ∧ s ≠ []) (body : Bytes) :
    strstr emptyLine (joinLines line lines ++ (emptyLine ++ body)) = some (emptyLine ++ body) := by
  induction lines generalizing line with
  | nil =>
      rw [joinLines, emptyLine, strstr_skip_front hline]
      exact strstr_prefix (List.prefix_append _ _)
  | cons next lines ih =>
      obtain ⟨hnext, hne⟩ := hlines next List.mem_cons_self
      obtain ⟨c, t, hjoin, hc⟩ := head_joinLines hnext hne lines
      have hrest := ih hnext fun s hs => hlines s (List.mem_cons_of_mem next hs)
      have hskip : strstr emptyLine (line ++ (lineEnd ++ (joinLines next lines ++ (emptyLine ++ body)))) =
          strstr emptyLine (lineEnd ++ (joinLines next lines ++ (emptyLine ++ body))) := strstr_skip_front hline
      rw [joinLines, List.append_assoc, List.append_assoc, hskip, ← hrest, hjoin, List.cons_append]
      exact strstr_lineEnd hc _

theorem blockLines_joinLines {line : Bytes} {lines : List Bytes}
    (hlines : ∀ s ∈ line :: lines, (∀ c ∈ s, IsLineChar c) ∧ s ≠ []) :
    blockLines (joinLines line lines) = line :: lines := by
  have hfilter {s : Bytes} (hs : ∀ c ∈ s, IsLineChar c) : (s.filter fun c => c ≠ 13) = s :=
    List.filter_eq_self.mpr fun c hc => by simpa using (hs c hc).1
  have hnul {s : Bytes} (hs : ∀ c ∈ s, IsLineChar c) : 0 ∉ s := fun hmem => (hs 0 hmem).2.2 rfl
  have hword {s : Bytes} (hs : ∀ c ∈ s, IsLineChar c) : ∀ c ∈ s, decide (c = 10) = false := fun c hc => by
    simpa using (hs c hc).2.1
  rw [blockLines]
  induction lines generalizing line with
  | nil =>
      obtain ⟨hline, hne⟩ := hlines line List.mem_cons_self
      rw [joinLines, hfilter hline, ofMemory_eq (hnul hline), tokens_word (hword hline) hne]
  | cons next lines ih =>
      obtain ⟨hline, hne⟩ := hlines line List.mem_cons_self
      have hrest := ih fun s hs => hlines s (List.mem_cons_of_mem line hs)
      have hend : (lineEnd.filter fun c => c ≠ 13) = [10] := rfl
      have hten : ofMemory (10 :: (joinLines next lines).filter fun c => c ≠ 13) =
          10 :: ofMemory ((joinLines next lines).filter fun c => c ≠ 13) :=
        ofMemory_append (s := [10]) (by decide)
      rw [joinLines, List.filter_append, List.filter_append, hfilter hline, hend, ofMemory_append (hnul hline),
        List.singleton_append, hten, tokens_append (hword hline) hne rfl, hrest]

theorem RequestHead.print_eq (head : RequestHead) :
    head.print = joinLines head.line (head.headers.map HeaderLine.text) ++ emptyLine := by
  have hjoin (line : Bytes) (headers : List HeaderLine) :
      line ++ lineEnd ++ headers.flatMap HeaderLine.print =
        joinLines line (headers.map HeaderLine.text) ++ lineEnd := by
    induction headers generalizing line with
    | nil => simp [joinLines]
    | cons header headers ih =>
        have hnext := ih header.text
        rw [List.flatMap_cons, HeaderLine.print, hnext, List.map_cons, joinLines]
        simp only [List.append_assoc]
  rw [RequestHead.print, hjoin, List.append_assoc]
  rfl

/-- **The parser on a request as it is written.** -/
theorem httpParseRequest_print (head : RequestHead) (body : Bytes) :
    httpParseRequest true (head.print ++ body) =
      (scanRequestLine head.line).map fun (method, path, version) =>
        ⟨method, path, version, (head.headers.map HeaderLine.stored).take httpMaxHeaders⟩ := by
  have hlines : ∀ s ∈ head.line :: head.headers.map HeaderLine.text, (∀ c ∈ s, IsLineChar c) ∧ s ≠ [] := by
    intro s hs
    rcases List.mem_cons.mp hs with rfl | hs
    · exact ⟨head.line_isLine, head.line_ne_nil⟩
    · obtain ⟨header, -, rfl⟩ := List.mem_map.mp hs
      exact ⟨header.text_isLine, header.text_ne_nil⟩
  have hplain : ∀ s ∈ head.line :: head.headers.map HeaderLine.text, 13 ∉ s ∧ s ≠ [] := fun s hs =>
    ⟨fun hmem => ((hlines s hs).1 13 hmem).1 rfl, (hlines s hs).2⟩
  have hseparator := strstr_joinLines (hplain head.line List.mem_cons_self).1
    (fun s hs => hplain s (List.mem_cons_of_mem _ hs)) body
  have hheaders : (head.headers.map HeaderLine.text).filterMap parseHeader = head.headers.map HeaderLine.stored := by
    rw [List.filterMap_map, ← List.filterMap_eq_map]
    exact List.filterMap_congr fun header _ => parseHeader_text header
  rw [httpParseRequest, head.print_eq, List.append_assoc, hseparator]
  dsimp only
  rw [if_neg (by simp), take_front, blockLines_joinLines hlines]
  dsimp only
  rw [hheaders]
  cases scanRequestLine head.line with
  | none => rfl
  | some fields => rfl

end

end OttQuic.Http
