import OttQuic.Http.PrintedRequest

/-!
# The request line

The three words of the request line are read by one `sscanf` with a width for each. A word that is longer than its
width ends there, and the next conversion goes on in the middle of it. `request_line_read_iff` says for which raw
bytes the fields of a request that is accepted are the words that were written.
-/

namespace OttQuic.Http

open CString Tokens

def isBlank (c : UInt8) : Bool := c = 32 ∨ c = 9

/-- The first line that is not empty, without its line end. -/
def requestLine (raw : Bytes) : Bytes :=
  let line := (raw.dropWhile fun c => c = 13 ∨ c = 10).takeWhile fun c => c ≠ 10
  if line.getLast? = some 13 then line.dropLast else line

/-- The fields are the first three words of the request line. -/
def ReadAsWritten (raw : Bytes) (req : HttpRequest) : Prop :=
  ∃ more, tokens isBlank (requestLine raw) = req.method :: req.path :: req.version :: more

/-- The word fits a field of `size` bytes, and has no NUL, carriage return or other white space in it. -/
def Fits (size : Nat) (word : Bytes) : Prop := word.length < size ∧ ∀ c ∈ word, IsWordChar c

/-- The request line has three words that fit their fields. -/
def FitsFields (raw : Bytes) : Prop :=
  ∃ method path version more, tokens isBlank (requestLine raw) = method :: path :: version :: more ∧
    Fits httpMaxMethod method ∧ Fits httpMaxPath path ∧ Fits httpMaxVersion version

section

variable {raw s t line word rest : Bytes} {width size : Nat} {req : HttpRequest}

/-! ### The line the parser reads -/

/-- The text as the parser copies it: without carriage returns, up to a NUL. -/
def copied (s : Bytes) : Bytes := ofMemory (s.filter fun c => c ≠ 13)

theorem copied_append (hs : ∀ c ∈ s, c ≠ 13 ∧ c ≠ 0) (t : Bytes) : copied (s ++ t) = s ++ copied t := by
  have hfilter : (s.filter fun c => c ≠ 13) = s := List.filter_eq_self.mpr fun c hc => by simpa using (hs c hc).1
  rw [copied, List.filter_append, hfilter, ofMemory_append fun hmem => (hs 0 hmem).2 rfl, copied]

theorem copied_return (s : Bytes) : copied (13 :: s) = copied s := rfl

theorem copied_nul (s : Bytes) : copied (0 :: s) = [] := rfl

theorem copied_cons {c : UInt8} (hc : c ≠ 13 ∧ c ≠ 0) (s : Bytes) : copied (c :: s) = c :: copied s :=
  copied_append (s := [c]) (fun _ hd => List.mem_singleton.mp hd ▸ hc) s

theorem dropWhile_copied (s : Bytes) :
    (copied s).dropWhile (fun c => c = 10) = copied (s.dropWhile fun c => c = 13 ∨ c = 10) := by
  induction s with
  | nil => rfl
  | cons c s ih =>
      by_cases hreturn : c = 13
      · rw [hreturn, copied_return, ih, List.dropWhile_cons_of_pos (by decide)]
      by_cases hline : c = 10
      · rw [hline, copied_cons (by decide), List.dropWhile_cons_of_pos (by decide), ih,
          List.dropWhile_cons_of_pos (by decide)]
      rw [List.dropWhile_cons_of_neg (by simp [hreturn, hline])]
      by_cases hnul : c = 0
      · rw [hnul, copied_nul]
        rfl
      · rw [copied_cons ⟨hreturn, hnul⟩, List.dropWhile_cons_of_neg (by simp [hline])]

theorem takeWhile_copied (s : Bytes) :
    (copied s).takeWhile (fun c => c ≠ 10) = copied (s.takeWhile fun c => c ≠ 10) := by
  induction s with
  | nil => rfl
  | cons c s ih =>
      by_cases hline : c = 10
      · rw [hline, copied_cons (by decide), List.takeWhile_cons_of_neg (by decide),
          List.takeWhile_cons_of_neg (by decide)]
        rfl
      rw [List.takeWhile_cons_of_pos (a := c) (l := s) (by simpa using hline)]
      by_cases hreturn : c = 13
      · rw [hreturn, copied_return, copied_return, ih]
      by_cases hnul : c = 0
      · rw [hnul, copied_nul, copied_nul]
        rfl
      · rw [copied_cons ⟨hreturn, hnul⟩, copied_cons ⟨hreturn, hnul⟩, List.takeWhile_cons_of_pos (by simpa using hline),
          ih]

theorem copied_trim (s : Bytes) : copied (if s.getLast? = some 13 then s.dropLast else s) = copied s := by
  split_ifs with hlast
  · obtain ⟨front, rfl⟩ := List.getLast?_eq_some_iff.mp hlast
    rw [List.dropLast_concat, copied, copied, List.filter_append]
    simp
  · rfl

/-- **The line the parser reads** is the request line, copied. -/
theorem blockLines_head {block : Bytes} {lines : List Bytes} (hblock : blockLines block = line :: lines)
    (hraw : raw = block ++ (emptyLine ++ t)) : line = copied (requestLine raw) := by
  rw [blockLines, tokens_eq, ← copied, dropWhile_copied] at hblock
  split_ifs at hblock with hempty
  obtain ⟨hline, -⟩ := List.cons.inj hblock
  set start := block.dropWhile fun c => c = 13 ∨ c = 10 with hstart
  have hne : start ≠ [] := fun hnil => hempty (by rw [hnil]; rfl)
  have hdrop : raw.dropWhile (fun c => c = 13 ∨ c = 10) = start ++ (emptyLine ++ t) := by
    rw [hraw, List.dropWhile_append, ← hstart, if_neg (by simpa using hne)]
  have hsame : copied ((start ++ (emptyLine ++ t)).takeWhile fun c => c ≠ 10) =
      copied (start.takeWhile fun c => c ≠ 10) := by
    by_cases hmem : 10 ∈ start
    · rw [takeWhile_append_of_mem hmem]
    · have hsplit : start ++ (emptyLine ++ t) = (start ++ [13]) ++ 10 :: (lineEnd ++ t) := by
        simp [emptyLine, lineEnd]
      have hall : start.takeWhile (fun c => c ≠ 10) = start :=
        List.takeWhile_eq_self_iff.mpr fun c hc => decide_eq_true (ne_of_mem_of_not_mem hc hmem)
      rw [hsplit, takeWhile_append_cons (by simpa using hmem), hall, copied, copied, List.filter_append]
      simp
  have hnot : (fun c : UInt8 => !decide (c = 10)) = fun c => decide (c ≠ 10) := by
    funext c
    simp
  rw [requestLine, copied_trim, hdrop, hsame, ← takeWhile_copied, ← hline, hnot]

/-! ### Its words -/

theorem scanString_fits {ts : List Bytes} (hword : Fits size word) (hs : tokens isBlank s = word :: ts) :
    ∃ rest, scanString (size - 1) (copied s) = some (word, copied rest) ∧ tokens isBlank rest = ts := by
  obtain ⟨blanks, rest, rfl, hblanks, -, hne, hhead, hts⟩ := tokens_eq_cons hs
  have hspace {c : UInt8} (hc : isBlank c = true) : isSpace c = true ∧ c ≠ 13 ∧ c ≠ 0 := by
    rcases of_decide_eq_true hc with rfl | rfl <;> decide
  have hplain : ∀ c ∈ word, c ≠ 13 ∧ c ≠ 0 := fun c hc => ⟨(hword.2 c hc).isLine.1, (hword.2 c hc).1⟩
  have hrest : ∀ c ∈ (copied rest).head?, isSpace c = true := by
    cases rest with
    | nil => exact fun c hc => absurd hc (by simp [copied, ofMemory])
    | cons d t =>
        have hd := hspace (hhead d rfl)
        rw [copied_cons hd.2]
        exact fun c hc => Option.some.inj hc ▸ hd.1
  have hscan := FieldWord.scan ⟨word, hne, hword.1, hword.2⟩ (fun c hc => (hspace (hblanks c hc)).1) hrest
  refine ⟨rest, ?_, hts⟩
  rw [copied_append fun c hc => (hspace (hblanks c hc)).2, copied_append hplain]
  exact hscan

theorem scanString_some (h : scanString width s = some (word, rest)) :
    word.length ≤ width ∧ (∀ c ∈ word, isSpace c = false ∧ c ∈ s) ∧ ∀ c ∈ rest, c ∈ s := by
  rw [scanString] at h
  split_ifs at h with hempty
  obtain ⟨rfl, rfl⟩ := Prod.mk.inj (Option.some.inj h)
  have hstart : ∀ c ∈ s.dropWhile isSpace, c ∈ s := fun c hc => (List.dropWhile_sublist isSpace).subset hc
  refine ⟨List.length_take_le _ _, fun c hc => ?_, fun c hc => hstart c (List.mem_of_mem_drop hc)⟩
  have hrun := List.mem_of_mem_take hc
  exact ⟨by simpa using List.mem_takeWhile_imp hrun, hstart c ((List.takeWhile_sublist _).subset hrun)⟩

theorem scanRequestLine_eq_some {method path version : Bytes} :
    scanRequestLine line = some (method, path, version) ↔
      ∃ s t rest, scanString (httpMaxMethod - 1) line = some (method, s) ∧
        scanString (httpMaxPath - 1) s = some (path, t) ∧ scanString (httpMaxVersion - 1) t = some (version, rest) := by
  constructor
  · intro h
    rw [scanRequestLine] at h
    split at h
    · cases h
    split at h
    · cases h
    split at h
    · cases h
    · rename_i hmethod _ _ _ hpath _ _ _ hversion
      cases h
      exact ⟨_, _, _, hmethod, hpath, hversion⟩
  · rintro ⟨s, t, rest, hmethod, hpath, hversion⟩
    rw [scanRequestLine, hmethod]
    dsimp only
    rw [hpath]
    dsimp only
    rw [hversion]

theorem httpParseRequest_line {malloc : Bool} (h : httpParseRequest malloc raw = some req) :
    scanRequestLine (copied (requestLine raw)) = some (req.method, req.path, req.version) := by
  rw [httpParseRequest] at h
  split at h
  · cases h
  · rename_i separator hseparator
    split_ifs at h
    split at h
    · cases h
    · rename_i line lines hlines
      split at h
      · cases h
      · rename_i method path version hscan
        obtain ⟨⟨block, hraw⟩, t, hprefix⟩ := strstr_some hseparator
        cases h
        rw [← hraw, take_front] at hlines
        rw [← blockLines_head hlines (hraw.symm.trans (congrArg _ hprefix.symm))]
        exact hscan

theorem scanRequestLine_fits {method path version : Bytes} {more : List Bytes}
    (hwords : tokens isBlank line = method :: path :: version :: more) (hmethod : Fits httpMaxMethod method)
    (hpath : Fits httpMaxPath path) (hversion : Fits httpMaxVersion version) :
    scanRequestLine (copied line) = some (method, path, version) := by
  obtain ⟨s, hscanMethod, hs⟩ := scanString_fits hmethod hwords
  obtain ⟨t, hscanPath, ht⟩ := scanString_fits hpath hs
  obtain ⟨rest, hscanVersion, -⟩ := scanString_fits hversion ht
  exact scanRequestLine_eq_some.mpr ⟨_, _, _, hscanMethod, hscanPath, hscanVersion⟩

theorem fits_of_scanRequestLine {method path version : Bytes}
    (h : scanRequestLine (copied line) = some (method, path, version)) :
    Fits httpMaxMethod method ∧ Fits httpMaxPath path ∧ Fits httpMaxVersion version := by
  obtain ⟨s, t, rest, hmethod, hpath, hversion⟩ := scanRequestLine_eq_some.mp h
  obtain ⟨hmethodLength, hmethodPlain, hs⟩ := scanString_some hmethod
  obtain ⟨hpathLength, hpathPlain, ht⟩ := scanString_some hpath
  obtain ⟨hversionLength, hversionPlain, -⟩ := scanString_some hversion
  have hnul {c : UInt8} (hc : c ∈ copied line) : c ≠ 0 := ne_of_mem_of_not_mem hc (not_mem_ofMemory _)
  exact ⟨⟨Nat.lt_succ_of_le hmethodLength, fun c hc => ⟨hnul (hmethodPlain c hc).2, (hmethodPlain c hc).1⟩⟩,
    ⟨Nat.lt_succ_of_le hpathLength, fun c hc => ⟨hnul (hs c (hpathPlain c hc).2), (hpathPlain c hc).1⟩⟩,
    ⟨Nat.lt_succ_of_le hversionLength, fun c hc => ⟨hnul (hs c (ht c (hversionPlain c hc).2)), (hversionPlain c hc).1⟩⟩⟩

end

/-! ### The fields -/

/-- **The request line is read as it was written** exactly when its first three words fit the fields. -/
theorem request_line_read_iff (malloc : Bool) (raw : Bytes) (req : HttpRequest)
    (h : httpParseRequest malloc raw = some req) : ReadAsWritten raw req ↔ FitsFields raw := by
  have hline := httpParseRequest_line h
  constructor
  · rintro ⟨more, hwords⟩
    obtain ⟨hmethod, hpath, hversion⟩ := fits_of_scanRequestLine hline
    exact ⟨_, _, _, more, hwords, hmethod, hpath, hversion⟩
  · rintro ⟨method, path, version, more, hwords, hmethod, hpath, hversion⟩
    have hfields := hline.symm.trans (scanRequestLine_fits hwords hmethod hpath hversion)
    obtain ⟨hm, hpv⟩ := Prod.mk.inj (Option.some.inj hfields)
    obtain ⟨hp, hv⟩ := Prod.mk.inj hpv
    exact ⟨more, by rw [hm, hp, hv, hwords]⟩

/-- A request whose words fit. -/
theorem request_line_read_logout :
    httpParseRequest true (ascii "POST /logout HTTP/1.1\r\n\r\n") =
        some ⟨ascii "POST", ascii "/logout", ascii "HTTP/1.1", []⟩ ∧
      (ReadAsWritten (ascii "POST /logout HTTP/1.1\r\n\r\n") ⟨ascii "POST", ascii "/logout", ascii "HTTP/1.1", []⟩ ↔
        FitsFields (ascii "POST /logout HTTP/1.1\r\n\r\n")) :=
  ⟨by decide, request_line_read_iff true _ _ (by decide)⟩

/-- A method of fourteen characters: its end is taken for the path. -/
theorem request_line_misread :
    ¬ ∀ malloc raw req, httpParseRequest malloc raw = some req → ReadAsWritten raw req := by
  intro h
  obtain ⟨more, hwords⟩ := h true (ascii "OPTIONS/logout HTTP/1.1 x\r\n\r\n")
    ⟨ascii "OPTIONS", ascii "/logout", ascii "HTTP/1.1", []⟩ (by decide)
  have hfirst : tokens isBlank (requestLine (ascii "OPTIONS/logout HTTP/1.1 x\r\n\r\n")) =
      [ascii "OPTIONS/logout", ascii "HTTP/1.1", ascii "x"] := by decide
  rw [hfirst] at hwords
  exact absurd (List.cons.inj hwords).1 (by decide)

end OttQuic.Http
