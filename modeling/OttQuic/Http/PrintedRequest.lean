import OttQuic.Http.ParseRequest

/-!
# Printing and parsing

A request that fits the fields of `http_request_t` is parsed as it was printed: `parse_print` gives its three words,
its headers in order, and what `http_get_header` finds among them.
-/

namespace OttQuic.Http

open CString

/-- A character of the words in a request line. -/
def IsWordChar (c : UInt8) : Prop := c ≠ 0 ∧ isSpace c = false

instance : DecidablePred IsWordChar := fun c => inferInstanceAs (Decidable (c ≠ 0 ∧ isSpace c = false))

/-- A word that fits a field of `size` bytes. -/
structure FieldWord (size : Nat) where
  bytes : Bytes
  ne_nil : bytes ≠ []
  fits : bytes.length < size
  isWord : ∀ c ∈ bytes, IsWordChar c

/-- A header that fits. -/
structure PrintedHeader where
  name : Bytes
  value : Bytes
  name_ne_nil : name ≠ []
  name_fits : name.length < httpMaxHeaderKey
  name_isToken : ∀ c ∈ name, isTokenChar c = true
  value_fits : value.length < httpMaxHeaderVal
  value_isLine : ∀ c ∈ value, IsLineChar c
  value_start : ∀ c ∈ value.head?, c ≠ 32 ∧ c ≠ 9

structure PrintedRequest where
  method : FieldWord httpMaxMethod
  path : FieldWord httpMaxPath
  version : FieldWord httpMaxVersion
  headers : List PrintedHeader
  headers_fit : headers.length ≤ httpMaxHeaders

def PrintedHeader.print (header : PrintedHeader) : Bytes := header.name ++ ascii ": " ++ header.value ++ ascii "\r\n"

def PrintedRequest.print (r : PrintedRequest) : Bytes :=
  r.method.bytes ++ ascii " " ++ r.path.bytes ++ ascii " " ++ r.version.bytes ++ ascii "\r\n" ++
    r.headers.flatMap PrintedHeader.print ++ ascii "\r\n"

/-- The header as a line. -/
def PrintedHeader.line (header : PrintedHeader) : HeaderLine where
  name := header.name
  field := 32 :: header.value
  name_ne_nil := header.name_ne_nil
  name_isToken := header.name_isToken
  field_isLine := List.forall_mem_cons.mpr ⟨⟨by decide, by decide, by decide⟩, header.value_isLine⟩

section

variable {width size : Nat} {blanks word rest : Bytes}

theorem IsWordChar.isLine {c : UInt8} (hc : IsWordChar c) : IsLineChar c := by
  have hne {d : UInt8} (hd : isSpace d = true) : c ≠ d := fun heq => by
    rw [heq, IsWordChar, hd] at hc
    cases hc.2
  exact ⟨hne (by decide), hne (by decide), hc.1⟩

theorem FieldWord.scan (word : FieldWord size) (hblanks : ∀ c ∈ blanks, isSpace c = true)
    (hrest : ∀ c ∈ rest.head?, isSpace c = true) :
    scanString (size - 1) (blanks ++ (word.bytes ++ rest)) = some (word.bytes, rest) := by
  have hplain : ∀ c ∈ word.bytes, isSpace c = false := fun c hc => (word.isWord c hc).2
  obtain ⟨c, w, hword⟩ := List.exists_cons_of_ne_nil word.ne_nil
  have hstart : (blanks ++ (word.bytes ++ rest)).dropWhile isSpace = word.bytes ++ rest := by
    rw [List.dropWhile_append_of_pos hblanks, hword, List.cons_append]
    exact List.dropWhile_cons_of_neg (by simp [hplain c (by simp [hword])])
  have hend : rest.takeWhile (fun c => !isSpace c) = [] := by
    cases rest with
    | nil => rfl
    | cons d t => exact List.takeWhile_cons_of_neg (by simp [hrest d (by simp)])
  have htake : (word.bytes ++ rest).takeWhile (fun c => !isSpace c) = word.bytes := by
    rw [List.takeWhile_append_of_pos fun d hd => by simp [hplain d hd], hend, List.append_nil]
  rw [scanString, hstart, htake, List.take_of_length_le (Nat.le_sub_one_of_lt word.fits), if_neg word.ne_nil,
    List.drop_left]

/-- **The request line is read back.** -/
theorem scanRequestLine_print (r : PrintedRequest) :
    scanRequestLine (r.method.bytes ++ 32 :: (r.path.bytes ++ 32 :: r.version.bytes)) =
      some (r.method.bytes, r.path.bytes, r.version.bytes) := by
  have hspace : ∀ c ∈ [(32 : UInt8)], isSpace c = true := List.forall_mem_singleton.mpr (by decide)
  have hmethod : scanString (httpMaxMethod - 1) (r.method.bytes ++ 32 :: (r.path.bytes ++ 32 :: r.version.bytes)) =
      some (r.method.bytes, 32 :: (r.path.bytes ++ 32 :: r.version.bytes)) :=
    r.method.scan (List.forall_mem_nil _) (by simp; decide)
  have hpath : scanString (httpMaxPath - 1) (32 :: (r.path.bytes ++ 32 :: r.version.bytes)) =
      some (r.path.bytes, 32 :: r.version.bytes) := r.path.scan hspace (by simp; decide)
  have hversion : scanString (httpMaxVersion - 1) (32 :: (r.version.bytes ++ [])) = some (r.version.bytes, []) :=
    r.version.scan hspace (by simp)
  rw [List.append_nil] at hversion
  rw [scanRequestLine, hmethod]
  dsimp only
  rw [hpath]
  dsimp only
  rw [hversion]

theorem PrintedHeader.stored_line (header : PrintedHeader) :
    header.line.stored = (header.name.map toLower, header.value) := by
  have hvalue : header.line.value = header.value := by
    have hblank : (32 :: header.value).dropWhile (fun c => c = 32 ∨ c = 9) =
        header.value.dropWhile fun c => c = 32 ∨ c = 9 := List.dropWhile_cons_of_pos (by decide)
    rw [HeaderLine.value, PrintedHeader.line, hblank]
    cases hstart : header.value with
    | nil => rfl
    | cons c w =>
        have hc := header.value_start c (by simp [hstart])
        exact List.dropWhile_cons_of_neg (by simpa using hc)
  rw [HeaderLine.stored, hvalue, List.take_of_length_le (Nat.le_sub_one_of_lt header.value_fits)]
  exact congrArg (fun name => (name.map toLower, header.value))
    (List.take_of_length_le (Nat.le_sub_one_of_lt header.name_fits))

/-- The request with its lines. -/
def PrintedRequest.head (r : PrintedRequest) : RequestHead where
  line := r.method.bytes ++ 32 :: (r.path.bytes ++ 32 :: r.version.bytes)
  headers := r.headers.map PrintedHeader.line
  line_ne_nil := by simp
  line_isLine := by
    have hspace : IsLineChar 32 := ⟨by decide, by decide, by decide⟩
    have hword {size : Nat} (word : FieldWord size) : ∀ c ∈ word.bytes, IsLineChar c := fun c hc =>
      (word.isWord c hc).isLine
    refine List.forall_mem_append.mpr ⟨hword r.method, List.forall_mem_cons.mpr ⟨hspace, ?_⟩⟩
    exact List.forall_mem_append.mpr ⟨hword r.path, List.forall_mem_cons.mpr ⟨hspace, hword r.version⟩⟩

theorem PrintedRequest.print_head (r : PrintedRequest) : r.head.print = r.print := by
  have hheader (header : PrintedHeader) : header.line.print = header.print := by
    simp [HeaderLine.print, HeaderLine.text, PrintedHeader.line, PrintedHeader.print, ascii, lineEnd]
  simp [RequestHead.print, PrintedRequest.head, PrintedRequest.print, List.flatMap_map, hheader, ascii, lineEnd]

theorem toLower_toLower (c : UInt8) : toLower (toLower c) = toLower c := by
  have hlower : ¬ (65 ≤ toLower c ∧ toLower c ≤ 90) := by
    rw [toLower]
    split_ifs with hupper
    · simp only [UInt8.le_iff_toNat_le, UInt8.toNat_add, UInt8.reduceToNat] at hupper ⊢
      omega
    · exact hupper
  exact if_neg hlower

theorem eqIgnoreCase_toLower (s name : Bytes) : eqIgnoreCase (s.map toLower) name = eqIgnoreCase s name := by
  have hmap : (s.map toLower).map toLower = s.map toLower := by
    rw [List.map_map]
    exact List.map_congr_left fun c _ => toLower_toLower c
  rw [eqIgnoreCase, eqIgnoreCase, hmap]

theorem eqIgnoreCase_take {s word : Bytes} {n : Nat} (hn : word.length < n) :
    eqIgnoreCase (s.take n) word = eqIgnoreCase s word := by
  by_cases hlength : s.length ≤ n
  · rw [List.take_of_length_le hlength]
  · have hne {u : Bytes} (hu : u.length ≠ word.length) : eqIgnoreCase u word = false := by
      refine decide_eq_false fun heq => hu ?_
      have := congrArg List.length heq
      rwa [List.length_map, List.length_map] at this
    rw [hne (by rw [List.length_take]; omega), hne (by omega)]

end

/-- **Parsing undoes printing.** A request that fits, with any body behind it, is accepted, with its method, path and
version and its headers in order, their names in lower case; `http_get_header` gives the value of the first header
with the name, whatever its case. -/
theorem parse_print (r : PrintedRequest) (body : Bytes) :
    ∃ req, httpParseRequest true (r.print ++ body) = some req ∧
      req.method = r.method.bytes ∧ req.path = r.path.bytes ∧ req.version = r.version.bytes ∧
      req.headers = r.headers.map (fun header => (header.name.map toLower, header.value)) ∧
      ∀ name, req.header name =
        (r.headers.find? fun header => eqIgnoreCase header.name name).map PrintedHeader.value := by
  have hheaders : (r.head.headers.map HeaderLine.stored).take httpMaxHeaders =
      r.headers.map fun header => (header.name.map toLower, header.value) := by
    rw [PrintedRequest.head, List.map_map, List.take_of_length_le (by simpa using r.headers_fit)]
    exact List.map_congr_left fun header _ => header.stored_line
  have hparse := httpParseRequest_print r.head body
  rw [r.print_head, hheaders] at hparse
  refine ⟨_, hparse.trans (congrArg _ (scanRequestLine_print r)), rfl, rfl, rfl, rfl, fun name => ?_⟩
  rw [HttpRequest.header, List.find?_map, Option.map_map]
  simp only [Function.comp_def, eqIgnoreCase_toLower]

/-- A request for the page of a video. -/
def samplePrinted : PrintedRequest where
  method := ⟨ascii "GET", by decide +kernel, by decide +kernel, by decide +kernel⟩
  path := ⟨ascii "/watch", by decide +kernel, by decide +kernel, by decide +kernel⟩
  version := ⟨ascii "HTTP/1.1", by decide +kernel, by decide +kernel, by decide +kernel⟩
  headers := [⟨ascii "Host", ascii "ott", by decide, by decide, by decide +kernel, by decide, by decide +kernel,
      by decide +kernel⟩,
    ⟨ascii "Cookie", ascii "SID=s", by decide, by decide, by decide +kernel, by decide, by decide +kernel,
      by decide +kernel⟩]
  headers_fit := by decide

theorem parse_print_watch : ∃ req,
    httpParseRequest true (ascii "GET /watch HTTP/1.1\r\nHost: ott\r\nCookie: SID=s\r\n\r\nbody") = some req ∧
      req.path = ascii "/watch" ∧ req.header (ascii "COOKIE") = some (ascii "SID=s") := by
  have hprint : samplePrinted.print ++ ascii "body" =
      ascii "GET /watch HTTP/1.1\r\nHost: ott\r\nCookie: SID=s\r\n\r\nbody" := by
    decide
  obtain ⟨req, hreq, -, hpath, -, -, hheader⟩ := parse_print samplePrinted (ascii "body")
  rw [hprint] at hreq
  refine ⟨req, hreq, hpath, (hheader _).trans ?_⟩
  decide

end OttQuic.Http
