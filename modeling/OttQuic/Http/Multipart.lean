import Mathlib.Data.List.Induction
import OttQuic.Http.Upload

/-!
# The parts of a multipart body

The loop of `parse_multipart` goes over the parts of a body, from boundary to boundary (`bodyParts`), and
what it leaves is a fold over them. The file it hands out is the last part with a filename parameter, the
length is that of the last one that is not empty; a form that was written part by part is read back.
-/

namespace OttQuic.Http

open CString

/-- A part between two boundaries: its header block, from the boundary on, and its data. -/
structure BodyPart where
  header : Bytes
  data : Bytes
  deriving DecidableEq

/-- The parts the loop of `parse_multipart` goes over from `p` on. -/
def bodyParts (boundary : Bytes) : Nat → Bytes → List BodyPart
  | 0, _ => []
  | fuel + 1, p =>
    match findBytes boundary p with
    | none => []
    | some b =>
      let p := b.drop boundary.length
      if p.length < 2 ∨ (ascii "--").isPrefixOf p then []
      else
        match findBytes (ascii "\r\n\r\n") p with
        | none => []
        | some hdrEnd =>
          let dataStart := hdrEnd.drop 4
          match findBytes boundary dataStart with
          | none => []
          | some next =>
            let data := dataStart.take (dataStart.length - next.length)
            let data := if data.length ≥ 2 ∧ data.drop (data.length - 2) = ascii "\r\n"
              then data.take (data.length - 2) else data
            ⟨p.take (p.length - hdrEnd.length), data⟩ :: bodyParts boundary fuel next

theorem parseMultipartLoop_eq_foldl (malloc : Nat → Bool) (boundary : Bytes) (titleLen descLen fuel : Nat)
    (p : Bytes) (m : Multipart) :
    parseMultipartLoop malloc boundary titleLen descLen fuel p m =
      (bodyParts boundary fuel p).foldl
        (fun m part => m.part malloc titleLen descLen part.header part.data) m := by
  induction fuel generalizing p m with
  | zero => rfl
  | succ fuel ih =>
      rw [parseMultipartLoop, bodyParts]
      cases findBytes boundary p with
      | none => rfl
      | some b =>
          dsimp only
          split_ifs with hend
          · rfl
          · cases findBytes (ascii "\r\n\r\n") (b.drop boundary.length) with
            | none => rfl
            | some hdrEnd =>
                dsimp only
                cases findBytes boundary (hdrEnd.drop 4) with
                | none => rfl
                | some next => exact ih next _

/-! ### The file of the last part -/

/-- Whether `parse_multipart` finds a filename parameter in the part's header block. -/
def BodyPart.hasFilename (part : BodyPart) : Bool :=
  ((strstr (ascii "Content-Disposition:") (ofMemory (part.header.take 511))).bind
    (strstr (ascii "filename=\""))).isSome

/-- The parts of a body with a filename parameter. -/
def fileParts (boundary body : Bytes) : List BodyPart :=
  (bodyParts boundary (body.length + 1) body).filter BodyPart.hasFilename

theorem Multipart.part_of_hasFilename (m : Multipart) (malloc : Nat → Bool) (titleLen descLen : Nat)
    {part : BodyPart} (h : part.hasFilename = true) :
    m.part malloc titleLen descLen part.header part.data =
      if malloc m.mallocs then
        { m with
          file := some part.data
          fileLen := if part.data.length > 0 then part.data.length else m.fileLen
          mallocs := m.mallocs + 1 }
      else { m with file := none, mallocs := m.mallocs + 1 } :=
  if_pos h

/-- Whether the part's name, as `parse_multipart` finds it, starts with `word`. -/
def BodyPart.named (part : BodyPart) (word : String) : Bool :=
  (((strstr (ascii "Content-Disposition:") (ofMemory (part.header.take 511))).bind
    (strstr (ascii "name=\""))).map (List.drop 6)).map (fun name => (ascii word).isPrefixOf name) = some true

theorem Multipart.part_of_not_hasFilename (m : Multipart) (malloc : Nat → Bool) (titleLen descLen : Nat)
    {part : BodyPart} (h : ¬ part.hasFilename = true) :
    m.part malloc titleLen descLen part.header part.data =
      if part.named "title" then { m with title := part.data.take (titleLen - 1) }
      else if part.named "description" then { m with description := part.data.take (descLen - 1) }
      else m :=
  if_neg h

theorem Multipart.part_frame (m : Multipart) (malloc : Nat → Bool) (titleLen descLen : Nat)
    {part : BodyPart} (h : ¬ part.hasFilename = true) :
    ∃ title description, m.part malloc titleLen descLen part.header part.data =
      { m with title := title, description := description } := by
  rw [Multipart.part_of_not_hasFilename m malloc titleLen descLen h]
  split_ifs
  · exact ⟨_, _, rfl⟩
  · exact ⟨_, _, rfl⟩
  · exact ⟨_, _, rfl⟩

/-- The `n`-th allocation is for the `n`-th file, and it succeeds unless the file is empty. -/
def Allocates (malloc : Nat → Bool) (files : List BodyPart) : Prop :=
  ∀ n part, files[n]? = some part → part.data ≠ [] → malloc n = true

/-- What the loop knows of the files it has passed. -/
structure Passed (malloc : Nat → Bool) (files : List BodyPart) (m : Multipart) : Prop where
  mallocs : m.mallocs = files.length
  file : m.file = files.getLast?.bind fun part =>
    if malloc (files.length - 1) then some part.data else none
  fileLen : m.fileLen =
    ((files.filter fun part => part.data ≠ []).getLast?.map fun part => part.data.length).getD 0

theorem Passed.snoc {malloc : Nat → Bool} {files : List BodyPart} {m : Multipart} {part : BodyPart}
    {titleLen descLen : Nat} (h : Passed malloc files m) (hfile : part.hasFilename = true)
    (hmalloc : part.data ≠ [] → malloc files.length = true) :
    Passed malloc (files ++ [part]) (m.part malloc titleLen descLen part.header part.data) := by
  have hlength : (files ++ [part]).length - 1 = files.length := by simp
  have hlast : (files ++ [part]).getLast? = some part := List.getLast?_concat
  rw [Multipart.part_of_hasFilename m malloc titleLen descLen hfile, h.mallocs]
  by_cases hdata : part.data = []
  · -- an empty file changes the pointer, not the length
    have hsame : ((files ++ [part]).filter fun part => part.data ≠ []) =
        files.filter fun part => part.data ≠ [] := by simp [hdata]
    rw [if_neg (show ¬ part.data.length > 0 by simp [hdata])]
    split_ifs with hok
    · refine ⟨by simp, ?_, ?_⟩
      · rw [hlast, hlength, Option.bind_some, if_pos hok]
      · rw [hsame, ← h.fileLen]
    · refine ⟨by simp, ?_, ?_⟩
      · rw [hlast, hlength, Option.bind_some, if_neg hok]
      · rw [hsame, ← h.fileLen]
  · have hpos : part.data.length > 0 := List.length_pos_of_ne_nil hdata
    have hnonempty : ((files ++ [part]).filter fun part => part.data ≠ []) =
        (files.filter fun part => part.data ≠ []) ++ [part] := by simp [hdata]
    rw [if_pos (hmalloc hdata), if_pos hpos]
    refine ⟨by simp, ?_, ?_⟩
    · rw [hlast, hlength, Option.bind_some, if_pos (hmalloc hdata)]
    · rw [hnonempty, List.getLast?_concat]
      rfl

theorem Passed.foldl {malloc : Nat → Bool} (titleLen descLen : Nat) {parts : List BodyPart}
    (hmalloc : Allocates malloc (parts.filter BodyPart.hasFilename)) :
    Passed malloc (parts.filter BodyPart.hasFilename)
      (parts.foldl (fun m part => m.part malloc titleLen descLen part.header part.data)
        ⟨none, 0, [], [], 0⟩) := by
  induction parts using List.reverseRecOn with
  | nil => exact ⟨rfl, rfl, rfl⟩
  | append_singleton parts part ih =>
      rw [List.filter_append] at hmalloc
      have hbefore : Allocates malloc (parts.filter BodyPart.hasFilename) := fun n file hn =>
        hmalloc n file (by rw [List.getElem?_append_left (List.getElem?_eq_some_iff.mp hn).1]; exact hn)
      rw [List.foldl_append, List.filter_append, List.foldl_cons, List.foldl_nil]
      by_cases hfile : part.hasFilename = true
      · rw [List.filter_cons_of_pos hfile, List.filter_nil] at hmalloc ⊢
        exact (ih hbefore).snoc hfile fun hdata => hmalloc _ part List.getElem?_concat_length hdata
      · rw [List.filter_cons_of_neg hfile, List.filter_nil, List.append_nil]
        obtain ⟨title, description, hpart⟩ := Multipart.part_frame _ malloc titleLen descLen hfile
        rw [hpart]
        exact ⟨(ih hbefore).mallocs, (ih hbefore).file, (ih hbefore).fileLen⟩

/-- The block and the length are those of one part with a filename parameter, so that `write_file` stays
inside the block. -/
def Multipart.Describes (m : Multipart) (part : BodyPart) : Prop :=
  part.hasFilename = true ∧ m.fileLen = part.data.length ∧ m.file = some part.data

theorem parseMultipart_passed {malloc : Nat → Bool} {boundary body : Bytes} (titleLen descLen : Nat)
    (hmalloc : Allocates malloc (fileParts boundary body)) :
    ∃ m, Passed malloc (fileParts boundary body) m ∧
      parseMultipart malloc body boundary titleLen descLen =
        if m.file.isSome ∧ m.fileLen > 0 then some m else none := by
  refine ⟨_, Passed.foldl titleLen descLen hmalloc, ?_⟩
  rw [parseMultipart, parseMultipartLoop_eq_foldl]

theorem Passed.of_some {malloc : Nat → Bool} {files : List BodyPart} {m : Multipart}
    (h : Passed malloc files m) (hfile : m.file.isSome) (hlen : m.fileLen > 0) :
    ∃ last nonempty, files.getLast? = some last ∧ malloc (files.length - 1) = true ∧
      (files.filter fun part => part.data ≠ []).getLast? = some nonempty ∧
      m.file = some last.data ∧ m.fileLen = nonempty.data.length := by
  have hblock := h.file
  have hlength := h.fileLen
  cases hlast : files.getLast? with
  | none => rw [hblock, hlast] at hfile; exact absurd hfile Bool.false_ne_true
  | some last =>
      rw [hlast, Option.bind_some] at hblock
      cases hnonempty : (files.filter fun part => part.data ≠ []).getLast? with
      | none => rw [hlength, hnonempty] at hlen; exact absurd hlen (Nat.lt_irrefl 0)
      | some nonempty =>
          rw [hnonempty] at hlength
          split_ifs at hblock with hok
          · exact ⟨last, nonempty, rfl, hok, rfl, hblock, hlength⟩
          · rw [hblock] at hfile
            exact absurd hfile Bool.false_ne_true

theorem mem_of_getLast?_filter {files : List BodyPart} {nonempty : BodyPart}
    (h : (files.filter fun part => part.data ≠ []).getLast? = some nonempty) :
    nonempty ∈ files ∧ nonempty.data ≠ [] := by
  have hmem := List.mem_of_getLast? h
  rw [List.mem_filter] at hmem
  exact ⟨hmem.1, of_decide_eq_true hmem.2⟩

/-- **The block and the length.** When every allocation of a block that is not empty succeeds, what
`parse_multipart` returns describes one part of the body, unless the last part with a filename parameter
is empty, `malloc(0)` gives a block for it, and another part with a filename parameter is not empty. -/
theorem parseMultipart_describes_iff {malloc : Nat → Bool} {boundary body : Bytes} {titleLen descLen : Nat}
    (hmalloc : Allocates malloc (fileParts boundary body)) :
    (∀ m, parseMultipart malloc body boundary titleLen descLen = some m →
      ∃ part ∈ bodyParts boundary (body.length + 1) body, m.Describes part) ↔
    ∀ last, (fileParts boundary body).getLast? = some last → last.data = [] →
      malloc ((fileParts boundary body).length - 1) = true →
      ∀ part ∈ fileParts boundary body, part.data = [] := by
  obtain ⟨m, hpassed, hparse⟩ := parseMultipart_passed titleLen descLen hmalloc
  constructor
  · intro hdescribes last hlast hempty hok part hpart
    by_contra hdata
    -- the length of another file beside the empty block
    have hmem : part ∈ (fileParts boundary body).filter fun part => part.data ≠ [] :=
      List.mem_filter.mpr ⟨hpart, decide_eq_true hdata⟩
    obtain ⟨nonempty, hnonempty⟩ := Option.isSome_iff_exists.mp
      (List.getLast?_isSome.mpr (List.ne_nil_of_mem hmem))
    have hblock : m.file = some [] := by
      rw [hpassed.file, hlast, Option.bind_some, if_pos hok, hempty]
    have hlength : m.fileLen = nonempty.data.length := by
      rw [hpassed.fileLen, hnonempty]
      rfl
    have hpos : m.fileLen > 0 := by
      rw [hlength]
      exact List.length_pos_of_ne_nil (mem_of_getLast?_filter hnonempty).2
    rw [if_pos ⟨by rw [hblock]; rfl, hpos⟩] at hparse
    obtain ⟨described, -, -, hlen, hfile⟩ := hdescribes m hparse
    rw [hblock, Option.some.injEq] at hfile
    rw [hlen, ← hfile] at hpos
    exact Nat.lt_irrefl 0 hpos
  · intro hall found hfound
    rw [hparse] at hfound
    split_ifs at hfound with hsome
    obtain rfl := Option.some.inj hfound
    obtain ⟨last, nonempty, hlast, hok, hnonempty, hblock, hlength⟩ := hpassed.of_some hsome.1 hsome.2
    have hmem : last ∈ fileParts boundary body := List.mem_of_getLast? hlast
    have hdata : last.data ≠ [] := fun hempty =>
      (mem_of_getLast?_filter hnonempty).2
        (hall last hlast hempty hok nonempty (mem_of_getLast?_filter hnonempty).1)
    have hsame : nonempty = last := by
      obtain ⟨before, hfiles⟩ := List.getLast?_eq_some_iff.mp hlast
      have hkept : ([last].filter fun part => part.data ≠ []) = [last] := by simp [hdata]
      rw [hfiles, List.filter_append, hkept, List.getLast?_concat, Option.some.injEq] at hnonempty
      exact hnonempty.symm
    exact ⟨last, (List.mem_filter.mp hmem).1, (List.mem_filter.mp hmem).2, hsame ▸ hlength, hblock⟩

/-- A form with a file of one byte and then an empty file. -/
def twoFiles : Bytes :=
  ascii "--ab\r\nContent-Disposition: form-data; name=\"file\"; filename=\"a\"\r\n\r\nx\r\n" ++
    ascii "--ab\r\nContent-Disposition: form-data; name=\"file\"; filename=\"b\"\r\n\r\n\r\n--ab--\r\n"

/-- The same form with a second file of two bytes. -/
def twoFilled : Bytes :=
  ascii "--ab\r\nContent-Disposition: form-data; name=\"file\"; filename=\"a\"\r\n\r\nx\r\n" ++
    ascii "--ab\r\nContent-Disposition: form-data; name=\"file\"; filename=\"b\"\r\n\r\nyz\r\n--ab--\r\n"

theorem parseMultipart_describes_iff_twoFiles :
    ((∀ m, parseMultipart (fun _ => true) twoFiles (ascii "--ab") 128 256 = some m →
      ∃ part ∈ bodyParts (ascii "--ab") (twoFiles.length + 1) twoFiles, m.Describes part) ↔
    ∀ last, (fileParts (ascii "--ab") twoFiles).getLast? = some last → last.data = [] →
      true = true → ∀ part ∈ fileParts (ascii "--ab") twoFiles, part.data = []) ∧
    ∃ part ∈ bodyParts (ascii "--ab") (twoFilled.length + 1) twoFilled,
      part.data = ascii "yz" ∧ (Multipart.mk (some (ascii "yz")) 2 [] [] 2).Describes part := by
  refine ⟨parseMultipart_describes_iff fun _ _ _ _ => rfl, ?_⟩
  have hparse : parseMultipart (fun _ => true) twoFilled (ascii "--ab") 128 256 =
      some ⟨some (ascii "yz"), 2, [], [], 2⟩ := by decide +kernel
  have hfilled : ((fileParts (ascii "--ab") twoFilled).getLast?.all fun part => part.data ≠ []) = true := by
    decide +kernel
  obtain ⟨part, hmem, hdescribes⟩ := (parseMultipart_describes_iff fun _ _ _ _ => rfl).mpr
    (fun last hlast hempty => by
      rw [hlast] at hfilled
      exact absurd hempty (of_decide_eq_true hfilled)) _ hparse
  exact ⟨part, hmem, (Option.some.inj hdescribes.2.2).symm, hdescribes⟩

/-- The block is that of the empty file, the length that of the other one. -/
theorem twoFiles_not_described :
    Allocates (fun _ => true) (fileParts (ascii "--ab") twoFiles) ∧
      ¬ ∀ m, parseMultipart (fun _ => true) twoFiles (ascii "--ab") 128 256 = some m →
        ∃ part ∈ bodyParts (ascii "--ab") (twoFiles.length + 1) twoFiles, m.Describes part := by
  refine ⟨fun _ _ _ _ => rfl, fun h => ?_⟩
  have hparse : parseMultipart (fun _ => true) twoFiles (ascii "--ab") 128 256 =
      some ⟨some [], 1, [], [], 2⟩ := by decide +kernel
  obtain ⟨part, -, -, hlen, hfile⟩ := h _ hparse
  rw [Option.some.injEq] at hfile
  rw [← hfile] at hlen
  exact absurd hlen Nat.one_ne_zero

end OttQuic.Http
