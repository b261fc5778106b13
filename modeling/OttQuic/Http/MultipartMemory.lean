import OttQuic.Http.Upload
import OttQuic.Lib.Memory

/-!
# The pointers of `parse_multipart`

`parse_multipart` once more, with the pointers, the buffers and the differences of the code: every access is
checked, and a loop that goes on for too long is a fault as well. `parse_multipart_safe` says that no body, no
boundary and no outcome of `malloc` leads to a fault, and that what the buffers hold in the end is what
`parseMultipartLoop` says.
-/

namespace OttQuic.Http

open CString Memory

/-- The loop of `find_bytes` with `n` positions left. -/
def findBytesFrom (haystack needle : Bytes) : Nat → Int → Checked (Option Int)
  | 0, _ => .ok none
  | n + 1, p => do
    let bytes ← load haystack p needle.length
    if bytes = needle then .ok (some p) else findBytesFrom haystack needle n (p + 1)

/-- `find_bytes` in the `len` bytes at `p`. -/
def findBytesAt (haystack : Bytes) (p : Int) (len : Nat) (needle : Bytes) : Checked (Option Int) :=
  if len = 0 ∨ needle.length = 0 ∨ needle.length > len then .ok none
  else findBytesFrom haystack needle (len + 1 - needle.length) p

/-- The out parameters of `parse_multipart`; `title` and `description` are the whole buffers. -/
structure OutParams where
  file : Option Bytes
  fileLen : Nat
  title : Bytes
  description : Bytes
  mallocs : Nat

/-- `hdr`, with the header block that ends at `hdrEnd`. -/
def headerBuffer (body : Bytes) (p hdrEnd : Int) : Checked Bytes := do
  let hdrLen ← distance hdrEnd p
  let hdrLen := if hdrLen ≥ 512 then 511 else hdrLen
  let bytes ← load body p hdrLen
  store (List.replicate 512 0) 0 bytes

/-- `name` and `filename`, pointers into `hdr`. -/
def headerNames (hdr : Bytes) : Checked (Option Int × Option Int) := do
  match ← strstrAt hdr 0 (ascii "Content-Disposition:") with
  | none => .ok (none, none)
  | some disp =>
    let name ← strstrAt hdr disp (ascii "name=\"")
    let filename ← strstrAt hdr disp (ascii "filename=\"")
    .ok (name.map (· + 6), filename.map (· + 10))

/-- `data_len`, without the line end before the boundary. -/
def dataLength (body : Bytes) (dataStart next : Int) : Checked Nat := do
  let dataLen ← distance next dataStart
  if dataLen ≥ 2 then
    let first ← load body (next - 2) 1
    if first = [13] then
      let second ← load body (next - 1) 1
      .ok (if second = [10] then dataLen - 2 else dataLen)
    else .ok dataLen
  else .ok dataLen

/-- The data in a text buffer, cut to its size, and its NUL. -/
def copyText (body : Bytes) (dataStart : Int) (dataLen : Nat) (buffer : Bytes) : Checked Bytes := do
  let copy := if dataLen < buffer.length - 1 then dataLen else buffer.length - 1
  let bytes ← load body dataStart copy
  let buffer ← store buffer 0 bytes
  store buffer copy [0]

/-- The data in a new block. -/
def copyFile (malloc : Nat → Bool) (body : Bytes) (dataStart : Int) (dataLen : Nat) (out : OutParams) :
    Checked OutParams :=
  if malloc out.mallocs then
    if dataLen > 0 then do
      let bytes ← load body dataStart dataLen
      let block ← store (List.replicate dataLen 0) 0 bytes
      .ok { out with file := some block, fileLen := dataLen, mallocs := out.mallocs + 1 }
    else .ok { out with file := some [], mallocs := out.mallocs + 1 }
  else .ok { out with file := none, mallocs := out.mallocs + 1 }

/-- `name && strncmp(name, word, strlen(word)) == 0`. -/
def nameIs (hdr : Bytes) (name : Option Int) (word : String) : Checked Bool :=
  match name with
  | none => .ok false
  | some name => strncmpAt hdr (ascii word) name

/-- What is done with the data of a part. -/
def copyPart (malloc : Nat → Bool) (hdr body : Bytes) (dataStart : Int) (dataLen : Nat) (out : OutParams) :
    Checked OutParams := do
  let (name, filename) ← headerNames hdr
  if filename.isSome then copyFile malloc body dataStart dataLen out
  else if ← nameIs hdr name "title" then
    let title ← copyText body dataStart dataLen out.title
    .ok { out with title := title }
  else if ← nameIs hdr name "description" then
    let description ← copyText body dataStart dataLen out.description
    .ok { out with description := description }
  else .ok out

/-- `*p == '-' && *(p + 1) == '-'`. -/
def closes (body : Bytes) (p : Int) : Checked Bool := do
  let first ← load body p 1
  if first = [45] then
    let second ← load body (p + 1) 1
    .ok (decide (second = [45]))
  else .ok false

/-- The loop of `parse_multipart` at `p`. -/
def parseMultipartFrom (malloc : Nat → Bool) (body boundary : Bytes) : Nat → Int → OutParams → Checked OutParams
  | 0, _, _ => .error .passes
  | passes + 1, p, out => do
    let last : Int := body.length
    if p < last then
      match ← findBytesAt body p (← distance last p) boundary with
      | none => .ok out
      | some b =>
        let p := b + boundary.length
        let left ← distance last p
        if left < 2 then .ok out
        else if ← closes body p then .ok out
        else
          match ← findBytesAt body p (← distance last p) (ascii "\r\n\r\n") with
          | none => .ok out
          | some hdrEnd =>
            let hdr ← headerBuffer body p hdrEnd
            let dataStart := hdrEnd + 4
            match ← findBytesAt body dataStart (← distance last dataStart) boundary with
            | none => .ok out
            | some next =>
              let dataLen ← dataLength body dataStart next
              let out ← copyPart malloc hdr body dataStart dataLen out
              parseMultipartFrom malloc body boundary passes next out
    else .ok out

/-- `parse_multipart`, with as many passes as the body has bytes, and one. -/
def parseMultipartAt (malloc : Nat → Bool) (body boundary title description : Bytes) : Checked (Bool × OutParams) := do
  let title ← store title 0 [0]
  let description ← store description 0 [0]
  let out ← parseMultipartFrom malloc body boundary (body.length + 1) 0 ⟨none, 0, title, description, 0⟩
  .ok (out.file.isSome ∧ out.fileLen > 0, out)

/-! ### Searches -/

section

variable {body needle rest : Bytes} {p q n : Nat}

theorem strstr_short {word s : Bytes} (h : s.length < word.length) : strstr word s = none := by
  cases hfound : strstr word s with
  | none => rfl
  | some rest =>
      have hsuffix := (strstr_some hfound).1.length_le
      have hprefix := (strstr_some hfound).2.length_le
      omega

theorem findBytesFrom_ok (hneedle : needle ≠ []) (hn : p + n + needle.length = body.length + 1) :
    findBytesFrom body needle n p =
      .ok ((strstr needle (body.drop p)).map fun rest => ((body.length - rest.length : Nat) : Int)) := by
  have hpos : 0 < needle.length := List.length_pos_of_ne_nil hneedle
  induction n generalizing p with
  | zero =>
      rw [strstr_short (by rw [List.length_drop]; omega)]
      rfl
  | succ n ih =>
      have hlt : p < body.length := by omega
      have hhere : needle.isPrefixOf (body.drop p) = true ↔ (body.drop p).take needle.length = needle := by
        rw [List.isPrefixOf_iff_prefix, List.prefix_iff_eq_take]
        exact eq_comm
      have hstrstr : strstr needle (body.drop p) =
          if needle.isPrefixOf (body.drop p) then some (body.drop p) else strstr needle (body.drop (p + 1)) := by
        rw [List.drop_eq_getElem_cons hlt, strstr]
      rw [findBytesFrom, load_ok (by omega), bind_ok, hstrstr]
      by_cases hsame : (body.drop p).take needle.length = needle
      · rw [if_pos hsame, if_pos (hhere.mpr hsame), Option.map_some, List.length_drop]
        congr 3
        omega
      · rw [if_neg hsame, if_neg (mt hhere.mp hsame)]
        exact ih (p := p + 1) (by omega)

theorem findBytes_drop (h : findBytes needle (body.drop p) = some rest) :
    ∃ q, rest = body.drop q ∧ body.length - rest.length = q ∧ p ≤ q ∧ q + needle.length ≤ body.length ∧
      0 < needle.length := by
  rw [findBytes] at h
  split_ifs at h with hempty
  obtain ⟨hsuffix, hprefix⟩ := strstr_some h
  obtain ⟨-, hneedle⟩ := not_or.mp hempty
  have hpos := List.length_pos_of_ne_nil hneedle
  have hlen := hprefix.length_le
  have hle := hsuffix.length_le
  rw [List.length_drop] at hle
  refine ⟨body.length - rest.length, ?_, rfl, by omega, by omega, hpos⟩
  exact List.suffix_iff_eq_drop.mp (hsuffix.trans (List.drop_suffix p body))

theorem findBytesAt_ok (hp : p ≤ body.length) :
    findBytesAt body p (body.length - p) needle =
      .ok ((findBytes needle (body.drop p)).map fun rest => ((body.length - rest.length : Nat) : Int)) := by
  have hempty : body.drop p = [] ↔ body.length - p = 0 := by
    rw [← List.length_eq_zero_iff, List.length_drop]
  rw [findBytesAt, findBytes]
  by_cases hnone : body.length - p = 0 ∨ needle.length = 0
  · rw [if_pos (by tauto), if_pos (by rw [hempty, ← List.length_eq_zero_iff]; exact hnone)]
    rfl
  · obtain ⟨hleft, hneedle⟩ := not_or.mp hnone
    rw [if_neg (show ¬ (body.drop p = [] ∨ needle = []) by
      rw [hempty, ← List.length_eq_zero_iff]
      exact hnone)]
    by_cases hlong : needle.length > body.length - p
    · rw [if_pos (.inr (.inr hlong)), strstr_short (by rw [List.length_drop]; omega)]
      rfl
    · rw [if_neg (by tauto)]
      exact findBytesFrom_ok (fun hnil => hneedle (List.length_eq_zero_iff.mpr hnil)) (by omega)

end

/-! ### The header of a part -/

theorem ofMemory_split (xs tail : Bytes) : ∃ tail', xs ++ 0 :: tail = ofMemory xs ++ 0 :: tail' := by
  induction xs with
  | nil => exact ⟨tail, rfl⟩
  | cons c xs ih =>
      obtain ⟨tail', htail⟩ := ih
      by_cases hc : c = 0
      · exact ⟨xs ++ 0 :: tail, by simp [ofMemory, hc]⟩
      · refine ⟨tail', ?_⟩
        have hcons : ofMemory (c :: xs) = c :: ofMemory xs := List.takeWhile_cons_of_pos (by simpa using hc)
        rw [hcons, List.cons_append, List.cons_append, htail]

theorem headerBuffer_ok {body : Bytes} {p hdrEnd : Nat} (hp : p ≤ hdrEnd) (hend : hdrEnd ≤ body.length) :
    ∃ tail, headerBuffer body p hdrEnd =
      .ok (ofMemory (((body.drop p).take (hdrEnd - p)).take 511) ++ 0 :: tail) := by
  have hlen : (if hdrEnd - p ≥ 512 then 511 else hdrEnd - p) = min 511 (hdrEnd - p) := by
    split_ifs
    · omega
    · omega
  have hbytes : ((body.drop p).take (min 511 (hdrEnd - p))).length = min 511 (hdrEnd - p) := by
    rw [List.length_take, List.length_drop]
    omega
  have hzeros : (List.replicate 512 0).drop (min 511 (hdrEnd - p)) =
      (0 : UInt8) :: List.replicate (511 - min 511 (hdrEnd - p)) 0 := by
    rw [List.drop_replicate, ← List.replicate_succ]
    congr 1
    omega
  obtain ⟨tail, htail⟩ := ofMemory_split ((body.drop p).take (min 511 (hdrEnd - p)))
    (List.replicate (511 - min 511 (hdrEnd - p)) 0)
  refine ⟨tail, ?_⟩
  rw [headerBuffer, distance_ok hp, bind_ok]
  dsimp only
  rw [hlen, load_ok (by omega), bind_ok, store_front (by rw [hbytes, List.length_replicate]; omega), hbytes, hzeros,
    htail, List.take_take]

/-- The name parameter of a header block, as `parse_multipart` finds it. -/
def headerName (hdr : Bytes) : Option Bytes :=
  ((strstr (ascii "Content-Disposition:") hdr).bind (strstr (ascii "name=\""))).map (List.drop 6)

def headerFilename (hdr : Bytes) : Option Bytes :=
  (strstr (ascii "Content-Disposition:") hdr).bind (strstr (ascii "filename=\""))

theorem drop_pointer {s suffix : Bytes} (h : suffix <:+ s) : s.drop (s.length - suffix.length) = suffix :=
  (List.suffix_iff_eq_drop.mp h).symm

theorem headerNames_ok {s : Bytes} (tail : Bytes) (hs : 0 ∉ s) :
    ∃ name filename, headerNames (s ++ 0 :: tail) = .ok (name, filename) ∧
      filename.isSome = (headerFilename s).isSome ∧
      ∀ word : String, 0 ∉ ascii word → nameIs (s ++ 0 :: tail) name word =
        .ok ((headerName s).any fun name => (ascii word).isPrefixOf name) := by
  rw [headerNames, show (0 : Int) = ((0 : Nat) : Int) from rfl, strstrAt_ok hs (Nat.zero_le _), List.drop_zero, bind_ok]
  unfold headerName headerFilename
  cases hdisp : strstr (ascii "Content-Disposition:") s with
  | none => exact ⟨none, none, rfl, rfl, fun word _ => rfl⟩
  | some disp =>
      have hsuffix := (strstr_some hdisp).1
      have hdrop := drop_pointer hsuffix
      dsimp only [Option.map_some, Option.bind_some]
      rw [strstrAt_ok hs (Nat.sub_le _ _), bind_ok, strstrAt_ok hs (Nat.sub_le _ _), bind_ok, hdrop]
      refine ⟨_, _, rfl, ?_, fun word hword => ?_⟩
      · rw [Option.isSome_map, Option.isSome_map]
      · cases hname : strstr (ascii "name=\"") disp with
        | none => rfl
        | some rest =>
            obtain ⟨hrest, hprefix⟩ := strstr_some hname
            have hlong : 6 ≤ rest.length := hprefix.length_le
            have hle := (hrest.trans hsuffix).length_le
            have hpointer : ((s.length - rest.length : Nat) : Int) + 6 =
                ((s.length - rest.length + 6 : Nat) : Int) := by
              omega
            have hafter : s.drop (s.length - rest.length + 6) = rest.drop 6 := by
              rw [← List.drop_drop, drop_pointer (hrest.trans hsuffix)]
            dsimp only [Option.map_some, Option.any_some, nameIs]
            rw [hpointer, strncmpAt_ok hword (by omega), hafter]

/-! ### The data of a part -/

section

variable {body : Bytes} {p q len : Nat}

theorem drop_eq_pair (hq : q + 2 ≤ body.length) :
    (body.drop q).take 2 = [body[q], body[q + 1]] := by
  rw [List.drop_eq_getElem_cons (by omega), List.drop_eq_getElem_cons (by omega)]
  rfl

/-- The data between `p` and `q`, without the line end before `q`. -/
def trimmed (data : Bytes) : Bytes :=
  if data.length ≥ 2 ∧ data.drop (data.length - 2) = ascii "\r\n" then data.take (data.length - 2) else data

theorem dataLength_ok (hp : p ≤ q) (hq : q ≤ body.length) :
    ∃ len, dataLength body p q = .ok len ∧ p + len ≤ q ∧
      (body.drop p).take len = trimmed ((body.drop p).take (q - p)) := by
  have hlength : ((body.drop p).take (q - p)).length = q - p := by
    rw [List.length_take, List.length_drop]
    omega
  rw [dataLength, distance_ok hp, bind_ok, trimmed, hlength]
  by_cases htwo : q - p ≥ 2
  · have hlast : ((body.drop p).take (q - p)).drop (q - p - 2) = [body[q - 2], body[q - 1]] := by
      have hpair := @drop_eq_pair body (q - 2) (by omega)
      have hone : q - 2 + 1 = q - 1 := by omega
      simp only [hone] at hpair
      rw [List.drop_take, List.drop_drop, ← hpair]
      congr 1
      · omega
      · congr 1
        omega
    rw [if_pos htwo, hlast, show (q : Int) - 2 = ((q - 2 : Nat) : Int) by omega,
      show (q : Int) - 1 = ((q - 1 : Nat) : Int) by omega, load_one (by omega), bind_ok]
    by_cases hfirst : body[q - 2] = 13
    · rw [if_pos (by rw [hfirst]), load_one (by omega), bind_ok]
      by_cases hsecond : body[q - 1] = 10
      · rw [if_pos (by rw [hsecond]), if_pos ⟨htwo, by rw [hfirst, hsecond]; rfl⟩]
        refine ⟨_, rfl, by omega, ?_⟩
        rw [List.take_take]
        congr 1
        omega
      · rw [if_neg (fun heq => hsecond (List.cons.inj heq).1), if_neg (fun hboth => ?_)]
        · exact ⟨_, rfl, by omega, rfl⟩
        · exact hsecond (List.cons.inj (List.cons.inj hboth.2).2).1
    · rw [if_neg (fun heq => hfirst (List.cons.inj heq).1), if_neg (fun hboth => ?_)]
      · exact ⟨_, rfl, by omega, rfl⟩
      · exact hfirst (List.cons.inj hboth.2).1
  · rw [if_neg htwo, if_neg (fun hboth => htwo hboth.1)]
    exact ⟨_, rfl, by omega, rfl⟩

/-- A text buffer after a write: the bytes, a NUL, and what the write has left alone. -/
def Holds (buffer : Bytes) (size : Nat) (bytes : Bytes) : Prop :=
  buffer.length = size ∧ ∃ tail, buffer = bytes ++ 0 :: tail

theorem store_nul (buffer : Bytes) (hsize : 0 < buffer.length) :
    ∃ buffer', store buffer 0 [0] = .ok buffer' ∧ Holds buffer' buffer.length [] := by
  refine ⟨_, store_front hsize, ?_, buffer.drop 1, rfl⟩
  rw [List.length_append, List.length_drop]
  show 1 + (buffer.length - 1) = buffer.length
  omega

theorem copyText_ok {buffer : Bytes} (hsize : 0 < buffer.length) (hlen : p + len ≤ body.length) :
    ∃ buffer', copyText body p len buffer = .ok buffer' ∧
      Holds buffer' buffer.length (((body.drop p).take len).take (buffer.length - 1)) := by
  have hcopy : (if len < buffer.length - 1 then len else buffer.length - 1) = min (buffer.length - 1) len := by
    split_ifs
    · omega
    · omega
  have hbytes : ((body.drop p).take (min (buffer.length - 1) len)).length = min (buffer.length - 1) len := by
    rw [List.length_take, List.length_drop]
    omega
  have hlength : ((body.drop p).take (min (buffer.length - 1) len) ++
      buffer.drop (min (buffer.length - 1) len)).length = buffer.length := by
    rw [List.length_append, hbytes, List.length_drop]
    omega
  have hfirst : ((body.drop p).take (min (buffer.length - 1) len) ++
      buffer.drop (min (buffer.length - 1) len)).take (min (buffer.length - 1) len) =
        (body.drop p).take (min (buffer.length - 1) len) := List.take_left' hbytes
  rw [copyText, hcopy, load_ok (by omega), bind_ok, store_front (by omega), hbytes, bind_ok]
  refine ⟨_, store_ok (by rw [hlength, List.length_singleton]; omega), ?_, ?_⟩
  · rw [List.length_append, List.length_append, List.length_take, List.length_drop, hlength, List.length_singleton]
    omega
  · rw [hfirst, List.take_take, List.append_assoc]
    exact ⟨_, rfl⟩

/-- What the buffers and the other out parameters hold is what the parts so far have left. -/
structure Agrees (titleLen descLen : Nat) (out : OutParams) (m : Multipart) : Prop where
  file : out.file = m.file
  fileLen : out.fileLen = m.fileLen
  mallocs : out.mallocs = m.mallocs
  title : Holds out.title titleLen m.title
  description : Holds out.description descLen m.description

variable {malloc : Nat → Bool} {titleLen descLen : Nat} {out : OutParams} {m : Multipart}

theorem copyFile_ok (h : Agrees titleLen descLen out m) (hlen : p + len ≤ body.length) :
    ∃ out', copyFile malloc body p len out = .ok out' ∧
      Agrees titleLen descLen out' (if malloc m.mallocs then
        { m with
          file := some ((body.drop p).take len)
          fileLen := if ((body.drop p).take len).length > 0 then ((body.drop p).take len).length else m.fileLen
          mallocs := m.mallocs + 1 }
        else { m with file := none, mallocs := m.mallocs + 1 }) := by
  have hbytes : ((body.drop p).take len).length = len := by
    rw [List.length_take, List.length_drop]
    omega
  rw [copyFile, h.mallocs, hbytes]
  by_cases hmalloc : malloc m.mallocs = true
  · rw [if_pos hmalloc, if_pos hmalloc]
    by_cases hpos : len > 0
    · rw [if_pos hpos, load_ok hlen, bind_ok, store_front (by rw [hbytes, List.length_replicate]), hbytes, bind_ok,
        List.drop_replicate, Nat.sub_self, List.replicate_zero, List.append_nil]
      exact ⟨_, rfl, rfl, (if_pos hpos).symm, rfl, h.title, h.description⟩
    · have hzero : len = 0 := by omega
      subst hzero
      exact ⟨_, rfl, rfl, h.fileLen, rfl, h.title, h.description⟩
  · rw [if_neg hmalloc, if_neg hmalloc]
    exact ⟨_, rfl, rfl, h.fileLen, rfl, h.title, h.description⟩

theorem part_eq (m : Multipart) (malloc : Nat → Bool) (titleLen descLen : Nat) (hdr data : Bytes) :
    m.part malloc titleLen descLen hdr data =
      if (headerFilename (ofMemory (hdr.take 511))).isSome then
        if malloc m.mallocs then
          { m with
            file := some data
            fileLen := if data.length > 0 then data.length else m.fileLen
            mallocs := m.mallocs + 1 }
        else { m with file := none, mallocs := m.mallocs + 1 }
      else if (headerName (ofMemory (hdr.take 511))).any fun name => (ascii "title").isPrefixOf name then
        { m with title := data.take (titleLen - 1) }
      else if (headerName (ofMemory (hdr.take 511))).any fun name => (ascii "description").isPrefixOf name then
        { m with description := data.take (descLen - 1) }
      else m := by
  have hnamed (word : Bytes) (name : Option Bytes) :
      decide ((name.map fun name => word.isPrefixOf name) = some true) = name.any fun name => word.isPrefixOf name := by
    cases name with
    | none => rfl
    | some name =>
        rw [Option.map_some, Option.any_some]
        cases word.isPrefixOf name
        · rfl
        · rfl
  unfold Multipart.part
  simp only [hnamed]
  rfl

theorem copyPart_ok (h : Agrees titleLen descLen out m) (htitle : 0 < titleLen) (hdesc : 0 < descLen)
    (hlen : p + len ≤ body.length) (hdr tail : Bytes) :
    ∃ out', copyPart malloc (ofMemory (hdr.take 511) ++ 0 :: tail) body p len out = .ok out' ∧
      Agrees titleLen descLen out' (m.part malloc titleLen descLen hdr ((body.drop p).take len)) := by
  obtain ⟨name, filename, hnames, hfilename, hname⟩ := headerNames_ok tail (not_mem_ofMemory (hdr.take 511))
  rw [copyPart, hnames, bind_ok, part_eq]
  dsimp only
  rw [hfilename]
  by_cases hfile : (headerFilename (ofMemory (hdr.take 511))).isSome = true
  · rw [if_pos hfile, if_pos hfile]
    exact copyFile_ok h hlen
  · rw [if_neg hfile, if_neg hfile, hname "title" (by decide), bind_ok]
    by_cases htitled : ((headerName (ofMemory (hdr.take 511))).any fun name => (ascii "title").isPrefixOf name) = true
    · obtain ⟨title, hcopy, hholds⟩ := copyText_ok (h.title.1.symm ▸ htitle) hlen
      rw [if_pos htitled, if_pos htitled, hcopy, bind_ok]
      rw [h.title.1] at hholds
      exact ⟨_, rfl, h.file, h.fileLen, h.mallocs, hholds, h.description⟩
    · rw [if_neg htitled, if_neg htitled, hname "description" (by decide), bind_ok]
      by_cases hdescribed : ((headerName (ofMemory (hdr.take 511))).any
          fun name => (ascii "description").isPrefixOf name) = true
      · obtain ⟨description, hcopy, hholds⟩ := copyText_ok (h.description.1.symm ▸ hdesc) hlen
        rw [if_pos hdescribed, if_pos hdescribed, hcopy, bind_ok]
        rw [h.description.1] at hholds
        exact ⟨_, rfl, h.file, h.fileLen, h.mallocs, h.title, hholds⟩
      · rw [if_neg hdescribed, if_neg hdescribed]
        exact ⟨out, rfl, h⟩

/-! ### The loop -/

theorem closes_ok (hp : p + 2 ≤ body.length) :
    closes body p = .ok ((ascii "--").isPrefixOf (body.drop p)) := by
  have hpair : body.drop p = body[p] :: body[p + 1] :: body.drop (p + 2) := by
    rw [List.drop_eq_getElem_cons (by omega), List.drop_eq_getElem_cons (by omega)]
  rw [closes, load_one (by omega), bind_ok, hpair]
  by_cases hfirst : body[p] = 45
  · rw [if_pos (by rw [hfirst]), show (p : Int) + 1 = ((p + 1 : Nat) : Int) from rfl, load_one (by omega), bind_ok]
    by_cases hsecond : body[p + 1] = 45
    · rw [decide_eq_true (by rw [hsecond]), hfirst, hsecond]
      rfl
    · rw [decide_eq_false (fun heq => hsecond (List.cons.inj heq).1), show ascii "--" = [45, 45] from rfl,
        List.isPrefixOf_cons_cons, List.isPrefixOf_cons_cons, beq_false_of_ne (Ne.symm hsecond), Bool.false_and,
        Bool.and_false]
  · rw [if_neg (fun heq => hfirst (List.cons.inj heq).1), show ascii "--" = [45, 45] from rfl,
      List.isPrefixOf_cons_cons, beq_false_of_ne (Ne.symm hfirst), Bool.false_and]

/-- **One pass and the passes after it.** With a pass for every byte that is left, and one, the loop returns. -/
theorem parseMultipartFrom_ok (malloc : Nat → Bool) (body boundary : Bytes) (htitle : 0 < titleLen)
    (hdesc : 0 < descLen)
    (passes : Nat)
    (hpasses : body.length - p < passes) (hp : p ≤ body.length) (h : Agrees titleLen descLen out m) :
    ∃ out', parseMultipartFrom malloc body boundary passes p out = .ok out' ∧
      Agrees titleLen descLen out'
        (parseMultipartLoop malloc boundary titleLen descLen passes (body.drop p) m) := by
  induction passes generalizing p out m with
  | zero => omega
  | succ passes ih =>
      rw [parseMultipartFrom, parseMultipartLoop]
      dsimp only
      by_cases hinside : (p : Int) < body.length
      · rw [if_pos hinside, distance_ok hp, bind_ok, findBytesAt_ok hp, bind_ok]
        cases hb : findBytes boundary (body.drop p) with
        | none => exact ⟨out, rfl, h⟩
        | some b =>
            obtain ⟨q, rfl, hq, hpq, hqend, hboundary⟩ := findBytes_drop hb
            have hafter : q + boundary.length ≤ body.length := hqend
            dsimp only [Option.map_some]
            rw [hq, List.drop_drop, List.length_drop,
              show (q : Int) + (boundary.length : Int) = ((q + boundary.length : Nat) : Int) from rfl,
              distance_ok hafter, bind_ok]
            by_cases htwo : body.length - (q + boundary.length) < 2
            · rw [if_pos htwo, if_pos (.inl htwo)]
              exact ⟨out, rfl, h⟩
            · rw [if_neg htwo, closes_ok (by omega), bind_ok]
              by_cases hcloses : (ascii "--").isPrefixOf (body.drop (q + boundary.length)) = true
              · rw [if_pos hcloses, if_pos (.inr hcloses)]
                exact ⟨out, rfl, h⟩
              · rw [if_neg hcloses, if_neg (not_or.mpr ⟨htwo, hcloses⟩), bind_ok, findBytesAt_ok hafter, bind_ok]
                cases hend : findBytes (ascii "\r\n\r\n") (body.drop (q + boundary.length)) with
                | none => exact ⟨out, rfl, h⟩
                | some hdrEnd =>
                    obtain ⟨e, rfl, he, hqe, heend, -⟩ := findBytes_drop hend
                    have hstart : e + 4 ≤ body.length := heend
                    have hebody : e ≤ body.length := by omega
                    obtain ⟨tail, hheader⟩ := headerBuffer_ok hqe hebody
                    dsimp only [Option.map_some]
                    rw [he, hheader, bind_ok, show (e : Int) + 4 = ((e + 4 : Nat) : Int) from rfl, distance_ok hstart,
                      bind_ok, findBytesAt_ok hstart, bind_ok, List.drop_drop]
                    cases hnext : findBytes boundary (body.drop (e + 4)) with
                    | none => exact ⟨out, rfl, h⟩
                    | some next =>
                        obtain ⟨r, rfl, hr, her, hrend, -⟩ := findBytes_drop hnext
                        have hrbody : r ≤ body.length := by omega
                        obtain ⟨len, hlen, hlenr, hdata⟩ := dataLength_ok her hrbody
                        have hheaderLen : body.length - (q + boundary.length) - (body.drop e).length =
                            e - (q + boundary.length) := by
                          rw [List.length_drop]
                          omega
                        have hdataLen : (body.drop (e + 4)).length - (body.drop r).length = r - (e + 4) := by
                          rw [List.length_drop, List.length_drop]
                          omega
                        dsimp only [Option.map_some]
                        rw [hr, hlen, bind_ok, hheaderLen, hdataLen]
                        have hfits : e + 4 + len ≤ body.length := by omega
                        obtain ⟨out', hcopy, hagrees⟩ := copyPart_ok h htitle hdesc hfits _ tail
                        rw [hcopy, bind_ok]
                        rw [hdata] at hagrees
                        exact ih (by omega) (by omega) hagrees
      · have hend : p = body.length := by omega
        have hnone : findBytes boundary (body.drop p) = none := by
          rw [findBytes, hend, List.drop_length, if_pos (.inl rfl)]
        rw [if_neg hinside, hnone]
        exact ⟨out, rfl, h⟩

end

/-- **`parse_multipart` is safe.** For every body, every boundary and every outcome of `malloc`, with buffers of
the sizes that `handle_upload_request` passes, no access is a fault, and the loop ends within as many passes as
the body has bytes, and one. The out parameters hold what `parseMultipartLoop` leaves. -/
theorem parse_multipart_safe (malloc : Nat → Bool) (body boundary title description : Bytes)
    (htitle : title.length = 128) (hdesc : description.length = 256) :
    ∃ out, parseMultipartAt malloc body boundary title description =
        .ok ((parseMultipart malloc body boundary 128 256).isSome, out) ∧
      Agrees 128 256 out
        (parseMultipartLoop malloc boundary 128 256 (body.length + 1) body ⟨none, 0, [], [], 0⟩) := by
  obtain ⟨title', hstoreTitle, hholdsTitle⟩ := store_nul title (by omega)
  obtain ⟨description', hstoreDesc, hholdsDesc⟩ := store_nul description (by omega)
  rw [htitle] at hholdsTitle
  rw [hdesc] at hholdsDesc
  have hstart : Agrees 128 256 ⟨none, 0, title', description', 0⟩ ⟨none, 0, [], [], 0⟩ :=
    ⟨rfl, rfl, rfl, hholdsTitle, hholdsDesc⟩
  obtain ⟨out, hloop, hagrees⟩ := parseMultipartFrom_ok malloc body boundary (by decide) (by decide)
    (body.length + 1) (p := 0) (by omega) (Nat.zero_le _) hstart
  rw [List.drop_zero] at hagrees
  refine ⟨out, ?_, hagrees⟩
  rw [parseMultipartAt, hstoreTitle, bind_ok, hstoreDesc, bind_ok]
  rw [show ((0 : Nat) : Int) = 0 from rfl] at hloop
  rw [hloop, bind_ok, hagrees.file, hagrees.fileLen, parseMultipart]
  split_ifs with hfound
  · rw [decide_eq_true hfound]
    rfl
  · rw [decide_eq_false hfound]
    rfl

/-- A body that is cut off in the header of its part. -/
theorem parse_multipart_safe_sample :
    ∃ out, parseMultipartAt (fun _ => true) (ascii "--B1\r\nContent-Disposition: form-data; na") (ascii "--B1")
        (List.replicate 128 255) (List.replicate 256 255) =
        .ok ((parseMultipart (fun _ => true) (ascii "--B1\r\nContent-Disposition: form-data; na") (ascii "--B1")
          128 256).isSome, out) ∧
      Agrees 128 256 out (parseMultipartLoop (fun _ => true) (ascii "--B1") 128 256
        ((ascii "--B1\r\nContent-Disposition: form-data; na").length + 1)
        (ascii "--B1\r\nContent-Disposition: form-data; na") ⟨none, 0, [], [], 0⟩) :=
  parse_multipart_safe _ _ _ _ _ (List.length_replicate) (List.length_replicate)

end OttQuic.Http
