import OttQuic.Http.Multipart

/-!
# Forms read back

A form is written part by part: the boundary, the header lines, a blank line, the content, and at the end
the closing boundary. When the boundary stands nowhere else in the body, `bodyParts` finds the parts that
were written, whatever their content is, and `parse_multipart` returns the file, the title and the
description in any order.
-/

namespace OttQuic.Http

open CString

abbrev crlf : Bytes := ascii "\r\n"

/-- A part of a form: its header lines, without the end of the last one, and its content. -/
structure FormField where
  headers : Bytes
  content : Bytes

variable {boundary epilogue : Bytes} {field : FormField} {fields : List FormField}

def FormField.encode (boundary : Bytes) (field : FormField) : Bytes :=
  boundary ++ (crlf ++ field.headers ++ (crlf ++ crlf ++ (field.content ++ crlf)))

/-- The body of a form. -/
def encodeForm (boundary epilogue : Bytes) : List FormField → Bytes
  | [] => boundary ++ (ascii "--" ++ epilogue)
  | field :: fields => field.encode boundary ++ encodeForm boundary epilogue fields

/-- The boundary stands only where the body of the form has it. -/
def OnlyAtBoundaries (boundary epilogue : Bytes) (fields : List FormField) : Prop :=
  ∀ before after, encodeForm boundary epilogue fields = before ++ after → boundary <+: after →
    ∃ k ≤ fields.length, before = (fields.take k).flatMap (FormField.encode boundary)

theorem onlyAtBoundaries_iff : OnlyAtBoundaries boundary epilogue fields ↔
    ∀ n < (encodeForm boundary epilogue fields).length + 1,
      boundary <+: (encodeForm boundary epilogue fields).drop n →
        ∃ k < fields.length + 1, (encodeForm boundary epilogue fields).take n =
          (fields.take k).flatMap (FormField.encode boundary) := by
  constructor
  · intro h n _ hprefix
    obtain ⟨k, hk, hbefore⟩ := h _ _ (List.take_append_drop n _).symm hprefix
    exact ⟨k, Nat.lt_succ_of_le hk, hbefore⟩
  · intro h before after hsplit hprefix
    obtain ⟨k, hk, hbefore⟩ := h before.length (by rw [hsplit, List.length_append]; omega)
      (by rw [hsplit, List.drop_left' rfl]; exact hprefix)
    rw [hsplit, List.take_left' rfl] at hbefore
    exact ⟨k, Nat.le_of_lt_succ hk, hbefore⟩

instance : Decidable (OnlyAtBoundaries boundary epilogue fields) := decidable_of_iff _ onlyAtBoundaries_iff.symm

theorem boundary_prefix_encodeForm : boundary <+: encodeForm boundary epilogue fields := by
  cases fields with
  | nil => exact List.prefix_append _ _
  | cons field fields => exact (List.prefix_append _ _).trans (List.prefix_append _ _)

theorem FormField.encode_ne_nil : field.encode boundary ≠ [] := by
  simp [FormField.encode, crlf, ascii]

theorem OnlyAtBoundaries.tail (h : OnlyAtBoundaries boundary epilogue (field :: fields)) :
    OnlyAtBoundaries boundary epilogue fields := by
  intro before after hsplit hafter
  obtain ⟨k, hk, hbefore⟩ := h (field.encode boundary ++ before) after
    (by rw [encodeForm, hsplit, List.append_assoc]) hafter
  cases k with
  | zero =>
      rw [List.take_zero, List.flatMap_nil, List.append_eq_nil_iff] at hbefore
      exact absurd hbefore.1 FormField.encode_ne_nil
  | succ k =>
      rw [List.take_succ_cons, List.flatMap_cons, List.append_cancel_left_eq] at hbefore
      exact ⟨k, by simpa using hk, hbefore⟩

theorem OnlyAtBoundaries.next (h : OnlyAtBoundaries boundary epilogue (field :: fields))
    (hboundary : boundary ≠ []) :
    strstr boundary (field.content ++ crlf ++ encodeForm boundary epilogue fields) =
      some (encodeForm boundary epilogue fields) := by
  refine strstr_append boundary_prefix_encodeForm fun mid hmid hsuffix hprefix => ?_
  obtain ⟨front, hfront⟩ := hsuffix
  -- what stands before `mid` is longer than nothing and shorter than the first part
  let before := boundary ++ (crlf ++ field.headers ++ (crlf ++ crlf ++ front))
  have hencode : field.encode boundary = before ++ mid := by
    simp only [FormField.encode, before, List.append_assoc, ← hfront]
  obtain ⟨k, -, hbefore⟩ := h before (mid ++ encodeForm boundary epilogue fields)
    (by rw [encodeForm, hencode, List.append_assoc]) hprefix
  cases k with
  | zero =>
      rw [List.take_zero, List.flatMap_nil] at hbefore
      exact hboundary (List.append_eq_nil_iff.mp hbefore).1
  | succ k =>
      rw [List.take_succ_cons, List.flatMap_cons, hencode, List.append_assoc] at hbefore
      have hnil := List.self_eq_append_right.mp hbefore
      exact hmid (List.append_eq_nil_iff.mp hnil).1

/-- The header lines have no blank line among them, also none in front. -/
def FormField.OneBlock (field : FormField) : Prop :=
  ¬ ascii "\r\n\r\n" <:+: crlf ++ field.headers ++ crlf

theorem FormField.OneBlock.hdrEnd (h : field.OneBlock) (rest : Bytes) :
    strstr (ascii "\r\n\r\n") (crlf ++ field.headers ++ (crlf ++ crlf ++ rest)) =
      some (crlf ++ crlf ++ rest) := by
  refine strstr_append (List.prefix_append _ _) fun mid hmid hsuffix hprefix => ?_
  match mid with
  | [] => exact hmid rfl
  | [c] => simp [ascii, crlf] at hprefix
  | c :: d :: mid =>
      refine h ?_
      -- the word stands inside the two bytes more that a line end has behind `mid`
      have hword : ascii "\r\n\r\n" <+: c :: d :: mid ++ crlf :=
        List.prefix_of_prefix_length_le hprefix ⟨crlf ++ rest, by simp⟩ (by simp [ascii, crlf])
      obtain ⟨front, hfront⟩ := hsuffix
      exact hword.isInfix.trans ⟨front, [], by rw [← hfront, List.append_nil, List.append_assoc]⟩

theorem findBytes_eq {needle haystack : Bytes} (h : needle ≠ []) :
    findBytes needle haystack = strstr needle haystack := by
  rw [findBytes]
  split_ifs with hempty
  · rw [hempty.resolve_right h, strstr_nil h]
  · rfl

theorem bodyParts_encode (hboundary : boundary ≠ []) (hblock : field.OneBlock)
    (honly : OnlyAtBoundaries boundary epilogue (field :: fields)) (fuel : Nat) :
    bodyParts boundary (fuel + 1) (encodeForm boundary epilogue (field :: fields)) =
      ⟨crlf ++ field.headers, field.content⟩ ::
        bodyParts boundary fuel (encodeForm boundary epilogue fields) := by
  let dataStart := field.content ++ crlf ++ encodeForm boundary epilogue fields
  let p := crlf ++ field.headers ++ (crlf ++ crlf ++ dataStart)
  have hwritten : encodeForm boundary epilogue (field :: fields) = boundary ++ p := by
    simp [encodeForm, FormField.encode, p, dataStart]
  have hhere : findBytes boundary (boundary ++ p) = some (boundary ++ p) := by
    rw [findBytes_eq hboundary]
    exact strstr_prefix (List.prefix_append _ _)
  have hdrop : (boundary ++ p).drop boundary.length = p := List.drop_left' rfl
  have hopen : ¬ (p.length < 2 ∨ (ascii "--").isPrefixOf p) := by
    simp [p, crlf, ascii]
  have hhdr : findBytes (ascii "\r\n\r\n") p = some (crlf ++ crlf ++ dataStart) := by
    rw [findBytes_eq (by decide)]
    exact hblock.hdrEnd dataStart
  have hstart : (crlf ++ crlf ++ dataStart).drop 4 = dataStart := List.drop_left' rfl
  have hnext : findBytes boundary dataStart = some (encodeForm boundary epilogue fields) := by
    rw [findBytes_eq hboundary]
    exact honly.next hboundary
  have hheader : p.take (p.length - (crlf ++ crlf ++ dataStart).length) = crlf ++ field.headers :=
    take_front _ _
  have hdata : dataStart.take (dataStart.length - (encodeForm boundary epilogue fields).length) =
      field.content ++ crlf := take_front _ _
  have hlength : (field.content ++ crlf).length - 2 = field.content.length := by simp [crlf, ascii]
  have htrim : (field.content ++ crlf).length ≥ 2 ∧
      (field.content ++ crlf).drop ((field.content ++ crlf).length - 2) = ascii "\r\n" := by
    refine ⟨by simp [crlf, ascii], ?_⟩
    rw [hlength, List.drop_left' rfl]
  rw [hwritten, bodyParts, hhere]
  dsimp only
  rw [hdrop, if_neg hopen, hhdr]
  dsimp only
  rw [hstart, hnext]
  dsimp only
  rw [hheader, hdata, if_pos htrim, hlength, List.take_left' rfl]

theorem bodyParts_encodeForm (hboundary : boundary ≠ []) (hblocks : ∀ field ∈ fields, field.OneBlock)
    (honly : OnlyAtBoundaries boundary epilogue fields) {fuel : Nat} (hfuel : fields.length < fuel) :
    bodyParts boundary fuel (encodeForm boundary epilogue fields) =
      fields.map fun field => ⟨crlf ++ field.headers, field.content⟩ := by
  induction fields generalizing fuel with
  | nil =>
      cases fuel with
      | zero => exact absurd hfuel (Nat.not_lt_zero _)
      | succ fuel =>
          have hhere : findBytes boundary (boundary ++ (ascii "--" ++ epilogue)) =
              some (boundary ++ (ascii "--" ++ epilogue)) := by
            rw [findBytes_eq hboundary]
            exact strstr_prefix (List.prefix_append _ _)
          rw [encodeForm, bodyParts, hhere]
          dsimp only
          rw [List.drop_left' rfl, if_pos (Or.inr (by simp [ascii]))]
          rfl
  | cons field fields ih =>
      cases fuel with
      | zero => exact absurd hfuel (Nat.not_lt_zero _)
      | succ fuel =>
          rw [bodyParts_encode hboundary (hblocks field List.mem_cons_self) honly, List.map_cons,
            ih (fun other hother => hblocks other (List.mem_cons_of_mem _ hother)) honly.tail
              (Nat.lt_of_succ_lt_succ hfuel)]

/-! ### The fields of the upload form -/

/-- The header block of the field `name`, as a form encoder writes it: it begins with the disposition, has
no blank line and is short. -/
structure FormField.HeaderOf (field : FormField) (name : String) : Prop where
  disposition : ascii ("Content-Disposition: form-data; name=\"" ++ name ++ "\"") <+: field.headers
  noBlankLine : ¬ ascii "\r\n\r\n" <:+: field.headers ++ crlf
  short : (field.headers ++ crlf).length < 512

/-- The file's field, with a filename parameter. -/
structure FormField.IsFile (field : FormField) : Prop extends field.HeaderOf "file" where
  filename : ∃ before after, field.headers = before ++ ascii "filename=\"" ++ after ∧ 0 ∉ before

/-- A field of text: nothing in its headers looks like a filename parameter. -/
structure FormField.IsText (field : FormField) (name : String) : Prop extends field.HeaderOf name where
  noFilename : ¬ ascii "filename=" <:+: field.headers

theorem ascii_append (s t : String) : ascii (s ++ t) = ascii s ++ ascii t := by
  rw [ascii, String.toList_append, List.map_append, ascii, ascii]

namespace FormField.HeaderOf

variable {name : String} {b : Bool}

theorem headers_eq (h : field.HeaderOf name) :
    ∃ more, field.headers = ascii "Content-Disposition: form-data; name=\"" ++ (ascii name ++ more) := by
  obtain ⟨more, hmore⟩ := h.disposition
  exact ⟨ascii "\"" ++ more, by rw [← hmore, ascii_append, ascii_append]; simp only [List.append_assoc]⟩

theorem oneBlock (h : field.HeaderOf name) : field.OneBlock := by
  obtain ⟨more, hmore⟩ := h.headers_eq
  intro hfound
  have hcons : crlf ++ field.headers ++ crlf = 13 :: 10 :: (field.headers ++ crlf) := rfl
  rw [hcons] at hfound
  rcases List.infix_cons_iff.mp hfound with hprefix | hfound
  · rw [hmore] at hprefix
    simp [ascii] at hprefix
  · rcases List.infix_cons_iff.mp hfound with hprefix | hfound
    · simp [ascii] at hprefix
    · exact h.noBlankLine hfound

theorem disp (h : field.HeaderOf name) :
    strstr (ascii "Content-Disposition:") (ofMemory ((crlf ++ field.headers).take 511)) =
      some (ofMemory field.headers) := by
  have hshort : (crlf ++ field.headers).length ≤ 511 := by
    have hlength := h.short
    rw [List.length_append, Nat.add_comm] at hlength
    rw [List.length_append]
    exact Nat.le_of_lt_succ hlength
  obtain ⟨more, hmore⟩ := h.headers_eq
  rw [List.take_of_length_le hshort, hmore]
  rfl

theorem hasFilename_iff (h : field.HeaderOf name) {content : Bytes} :
    BodyPart.hasFilename ⟨crlf ++ field.headers, content⟩ = true ↔
      ascii "filename=\"" <:+: ofMemory field.headers := by
  rw [BodyPart.hasFilename, h.disp, Option.bind_some, strstr_isSome]

theorem named (h : field.HeaderOf name) {content : Bytes} {word : String}
    (hname : ∀ more, (ascii word).isPrefixOf (ofMemory (ascii name ++ more)) = b) :
    BodyPart.named ⟨crlf ++ field.headers, content⟩ word = b := by
  obtain ⟨more, hmore⟩ := h.headers_eq
  have hstrstr : strstr (ascii "name=\"") (ofMemory field.headers) =
      some (ascii "name=\"" ++ ofMemory (ascii name ++ more)) := by
    rw [hmore]
    rfl
  have hdrop : (ascii "name=\"" ++ ofMemory (ascii name ++ more)).drop 6 = ofMemory (ascii name ++ more) :=
    List.drop_left' rfl
  rw [BodyPart.named, h.disp, Option.bind_some, hstrstr, Option.map_some, Option.map_some, hdrop,
    hname more]
  cases b <;> rfl

end FormField.HeaderOf

theorem FormField.IsFile.hasFilename (h : field.IsFile) :
    BodyPart.hasFilename ⟨crlf ++ field.headers, field.content⟩ = true := by
  obtain ⟨before, after, hheaders, hnul⟩ := h.filename
  rw [h.hasFilename_iff, hheaders]
  have hstring : ofMemory (before ++ ascii "filename=\"" ++ after) =
      before ++ ascii "filename=\"" ++ ofMemory after := by
    rw [List.append_assoc, ofMemory, List.takeWhile_append_of_pos fun c hc => by
      simpa using ne_of_mem_of_not_mem hc hnul, List.append_assoc]
    rfl
  rw [hstring]
  exact List.infix_append _ _ _

theorem FormField.IsText.not_hasFilename {name : String} (h : field.IsText name) :
    ¬ BodyPart.hasFilename ⟨crlf ++ field.headers, field.content⟩ = true := by
  rw [h.hasFilename_iff]
  intro hfound
  refine h.noFilename (List.IsInfix.trans ?_ (hfound.trans (List.takeWhile_prefix _).isInfix))
  exact ⟨[], ascii "\"", rfl⟩

section Part

variable {malloc : Nat → Bool} {m : Multipart}

/-- What the loop does with the part of `field`, as `handle_upload_request` sizes the buffers. -/
def Multipart.readField (malloc : Nat → Bool) (m : Multipart) (field : FormField) : Multipart :=
  m.part malloc 128 256 (crlf ++ field.headers) field.content

theorem Multipart.readField_file (h : field.IsFile) (hcontent : field.content ≠ []) :
    m.readField malloc field =
      if malloc m.mallocs then
        { m with
          file := some field.content
          fileLen := field.content.length
          mallocs := m.mallocs + 1 }
      else { m with file := none, mallocs := m.mallocs + 1 } := by
  have hpart := Multipart.part_of_hasFilename m malloc 128 256 h.hasFilename
  rw [if_pos (List.length_pos_of_ne_nil hcontent)] at hpart
  exact hpart

theorem Multipart.readField_title (h : field.IsText "title") :
    m.readField malloc field = { m with title := field.content.take 127 } := by
  have hpart := Multipart.part_of_not_hasFilename m malloc 128 256 h.not_hasFilename
  rw [if_pos (h.named fun more => rfl)] at hpart
  exact hpart

theorem Multipart.readField_description (h : field.IsText "description") :
    m.readField malloc field = { m with description := field.content.take 255 } := by
  have hpart := Multipart.part_of_not_hasFilename m malloc 128 256 h.not_hasFilename
  have htitle : ¬ BodyPart.named ⟨crlf ++ field.headers, field.content⟩ "title" = true := by
    rw [h.named fun more => show _ = false from rfl]
    exact Bool.false_ne_true
  rw [if_neg htitle, if_pos (h.named fun more => rfl)] at hpart
  exact hpart

theorem Multipart.foldl_readField {file title description : FormField} (hfile : file.IsFile)
    (hcontent : file.content ≠ []) (htitle : title.IsText "title")
    (hdescription : description.IsText "description") (horder : fields.Perm [file, title, description]) :
    fields.foldl (Multipart.readField malloc) m =
      ((m.readField malloc file).readField malloc title).readField malloc description := by
  refine horder.foldl_eq' (fun x hx y hy m => ?_) m
  have hcases : ∀ z ∈ fields, z = file ∨ z = title ∨ z = description := fun z hz => by
    simpa using horder.subset hz
  rcases hcases x hx with rfl | rfl | rfl <;> rcases hcases y hy with rfl | rfl | rfl <;>
    simp only [readField_file hfile hcontent, readField_title htitle, readField_description hdescription]
    <;> split_ifs <;> rfl

end Part

theorem length_lt_encodeForm (hboundary : boundary ≠ []) :
    fields.length < (encodeForm boundary epilogue fields).length := by
  induction fields with
  | nil =>
      have hpos : 0 < boundary.length := List.length_pos_of_ne_nil hboundary
      rw [encodeForm, List.length_append, List.length_nil]
      omega
  | cons field fields ih =>
      have hpos : 0 < (field.encode boundary).length := List.length_pos_of_ne_nil FormField.encode_ne_nil
      rw [encodeForm, List.length_append, List.length_cons]
      omega

/-- **Forms are read back.** A form of a file that is not empty, a title and a description, in any order,
whose boundary stands only between its parts: `parse_multipart` returns the file's bytes, and as much of
the title and of the description as their buffers hold. -/
theorem parseMultipart_encodeForm {malloc : Nat → Bool} {b epilogue : Bytes}
    {fields : List FormField} {file title description : FormField} (hmalloc : malloc 0 = true)
    (hfile : file.IsFile) (hcontent : file.content ≠ []) (htitle : title.IsText "title")
    (hdescription : description.IsText "description") (horder : fields.Perm [file, title, description])
    (honly : OnlyAtBoundaries (ascii "--" ++ b) epilogue fields) :
    parseMultipart malloc (encodeForm (ascii "--" ++ b) epilogue fields) (ascii "--" ++ b) 128 256 =
      some ⟨some file.content, file.content.length, title.content.take 127, description.content.take 255, 1⟩ := by
  have hboundary : ascii "--" ++ b ≠ [] := List.cons_ne_nil _ _
  have hblocks : ∀ field ∈ fields, field.OneBlock := by
    intro field hmem
    have hmem := horder.subset hmem
    rcases List.mem_cons.mp hmem with rfl | hmem
    · exact hfile.oneBlock
    · rcases List.mem_cons.mp hmem with rfl | hmem
      · exact htitle.oneBlock
      · rw [List.mem_singleton.mp hmem]
        exact hdescription.oneBlock
  have hfold : fields.foldl (Multipart.readField malloc) ⟨none, 0, [], [], 0⟩ =
      ⟨some file.content, file.content.length, title.content.take 127, description.content.take 255, 1⟩ := by
    rw [Multipart.foldl_readField hfile hcontent htitle hdescription horder,
      Multipart.readField_file hfile hcontent, if_pos hmalloc, Multipart.readField_title htitle,
      Multipart.readField_description hdescription]
  rw [parseMultipart, parseMultipartLoop_eq_foldl, bodyParts_encodeForm hboundary hblocks honly
    (Nat.lt_succ_of_lt (length_lt_encodeForm hboundary)), List.foldl_map]
  change (let m := fields.foldl (Multipart.readField malloc) ⟨none, 0, [], [], 0⟩
    if m.file.isSome ∧ m.fileLen > 0 then some m else none) = _
  rw [hfold]
  exact if_pos ⟨rfl, List.length_pos_of_ne_nil hcontent⟩

/-- A file with a blank line in it that ends in dashes and a line end, between a title and an empty
description. -/
theorem parseMultipart_encodeForm_sample :
    let file : FormField := ⟨ascii "Content-Disposition: form-data; name=\"file\"; filename=\"a\"",
      ascii "x\r\n\r\n----\r\n"⟩
    let title : FormField := ⟨ascii "Content-Disposition: form-data; name=\"title\"", ascii "t"⟩
    let description : FormField := ⟨ascii "Content-Disposition: form-data; name=\"description\"", []⟩
    parseMultipart (fun _ => true)
        (encodeForm (ascii "--" ++ ascii "b0") crlf [title, file, description])
        (ascii "--" ++ ascii "b0") 128 256 =
      some ⟨some (ascii "x\r\n\r\n----\r\n"), 11, ascii "t", [], 1⟩ := by
  intro file title description
  have hfile : file.IsFile :=
    ⟨⟨by decide +kernel, by decide +kernel, by decide +kernel⟩,
      ascii "Content-Disposition: form-data; name=\"file\"; ", ascii "a\"", by decide +kernel,
      by decide +kernel⟩
  have htitle : title.IsText "title" :=
    ⟨⟨by decide +kernel, by decide +kernel, by decide +kernel⟩, by decide +kernel⟩
  have hdescription : description.IsText "description" :=
    ⟨⟨by decide +kernel, by decide +kernel, by decide +kernel⟩, by decide +kernel⟩
  exact parseMultipart_encodeForm rfl hfile (by decide) htitle hdescription (List.Perm.swap _ _ _)
    (by decide +kernel)

end OttQuic.Http
