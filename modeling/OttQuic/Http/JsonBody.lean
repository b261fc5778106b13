import OttQuic.Http.Api
import OttQuic.JsonRows

/-!
# JSON bodies

The web client sends `JSON.stringify` of an object. `json_extract_string` looks for the first place where
the key stands between quotes, be it a key or a text, and reads from the next quote to the one after it.
It obtains the texts that were sent exactly when none of them is written with an escape and none equals
a key that comes after it.
-/

namespace OttQuic.Http

open CString Db Json Utf8

/-- The bytes of a text in its string. -/
def escaped (s : List Char) : Bytes := encode (s.flatMap escape)

/-- A member of an object with what comes after its text. -/
def member (key : String) (s : List Char) (rest : Bytes) : Bytes :=
  34 :: (ascii key ++ 34 :: 58 :: 34 :: (escaped s ++ 34 :: rest))

/-- The text needs no escape. -/
def PlainText (s : List Char) : Prop := ∀ c ∈ s, isPlain c = true

theorem escaped_plain {s : List Char} (h : PlainText s) : escaped s = encode s := by
  rw [escaped, flatMap_escape h]

theorem PlainText.quote_not_mem {s : List Char} (h : PlainText s) : 34 ∉ encode s := fun hmem =>
  absurd (h '"' ((mem_encode (by decide)).mp hmem)) (by decide)

/-! ### Escapes -/

theorem hexChar_ne {d : Nat} (h : d < 16) : hexChar d ≠ '"' ∧ hexChar d ≠ '\x00' := by
  revert d
  decide

theorem mem_escape {c d : Char} (h : d ∈ escape c) : (d = '"' → c = '"') ∧ d ≠ '\x00' := by
  rw [escape] at h
  split_ifs at h with hplain
  · rw [List.mem_singleton.mp h]
    refine ⟨id, ?_⟩
    rintro rfl
    exact absurd hplain (by decide)
  · split at h
    · rename_i letter hletter
      obtain ⟨-, -, hunit⟩ := letter_unit hletter
      have hmem := List.mem_of_find?_eq_some hletter
      have htable : ∀ letter ∈ letters, (letter.1 = '"' → letter.2 = 34) ∧ letter.1 ≠ '\x00' := by
        decide
      obtain rfl | hd := List.mem_cons.mp h
      · exact ⟨fun hquote => absurd hquote (by decide), by decide⟩
      · rw [List.mem_singleton.mp hd]
        refine ⟨fun hquote => Char.toNat_inj.mp ?_, (htable letter hmem).2⟩
        rw [← hunit, (htable letter hmem).1 hquote]
        rfl
    · rename_i hletter
      have hsmall := control_of_no_letter hplain hletter
      have hhigh := hexChar_ne (show c.toNat / 16 < 16 by omega)
      have hlow := hexChar_ne (show c.toNat % 16 < 16 by omega)
      simp only [List.mem_cons, List.not_mem_nil, or_false] at h
      obtain rfl | rfl | rfl | rfl | rfl | rfl := h
      · exact ⟨fun hquote => absurd hquote (by decide), by decide⟩
      · exact ⟨fun hquote => absurd hquote (by decide), by decide⟩
      · exact ⟨fun hquote => absurd hquote (by decide), by decide⟩
      · exact ⟨fun hquote => absurd hquote (by decide), by decide⟩
      · exact ⟨fun hquote => absurd hquote hhigh.1, hhigh.2⟩
      · exact ⟨fun hquote => absurd hquote hlow.1, hlow.2⟩

theorem length_escape {c : Char} (h : ¬ isPlain c = true) : (encode [c]).length < (encode (escape c)).length := by
  have hsmall : c.toNat < 128 := by
    by_contra hlarge
    have hne : ∀ d : Char, d.toNat < 128 → c ≠ d := fun d hd heq => hlarge (heq ▸ hd)
    exact h (by simp [isPlain, hne '"' (by decide), hne '\\' (by decide)]; omega)
  have hlong : 2 ≤ (escape c).length := by
    rw [escape, if_neg h]
    split
    · exact le_rfl
    · exact (by decide : 2 ≤ 6)
  rw [encode_ascii hsmall, List.length_singleton]
  exact hlong.trans (length_le_encode _)

theorem length_escaped (s : List Char) :
    (encode s).length ≤ (escaped s).length ∧ ((escaped s).length ≤ (encode s).length → PlainText s) := by
  induction s with
  | nil => exact ⟨le_rfl, fun _ => List.forall_mem_nil _⟩
  | cons c s ih =>
      have hsplit : (escaped (c :: s)).length = (encode (escape c)).length + (escaped s).length := by
        rw [escaped, List.flatMap_cons, encode_append, List.length_append, escaped]
      rw [hsplit, encode_cons, List.length_append]
      by_cases hplain : isPlain c = true
      · have hescape : escape c = [c] := if_pos hplain
        rw [hescape]
        exact ⟨by omega, fun hle => List.forall_mem_cons.mpr ⟨hplain, ih.2 (by omega)⟩⟩
      · have hlonger := length_escape hplain
        exact ⟨by omega, fun hle => absurd hle (by omega)⟩

theorem plain_of_takeWhile {s : List Char} {rest : Bytes}
    (h : (escaped s ++ 34 :: rest).takeWhile (fun c => c ≠ 34) = encode s) : PlainText s := by
  have hquote : 34 ∉ encode s := by
    intro hmem
    rw [← h] at hmem
    exact absurd (List.all_eq_true.mp List.all_takeWhile 34 hmem) (by decide)
  have hescaped : 34 ∉ escaped s := by
    intro hmem
    obtain ⟨c, hc, hd⟩ := List.mem_flatMap.mp ((mem_encode (c := '"') (by decide)).mp hmem)
    rw [(mem_escape hd).1 rfl] at hc
    exact hquote ((mem_encode (c := '"') (by decide)).mpr hc)
  rw [takeWhile_append_cons hescaped] at h
  exact (length_escaped s).2 (congrArg List.length h).le

theorem nul_not_mem_escaped (s : List Char) : 0 ∉ escaped s := by
  intro hmem
  obtain ⟨c, -, hd⟩ := List.mem_flatMap.mp ((mem_encode (c := '\x00') (by decide)).mp hmem)
  exact (mem_escape hd).2 rfl

theorem not_mem_decimal {c : Char} (hc : c.toNat < 128) (hother : c ≠ '-' ∧ c.isDigit = false) (n : Int) :
    UInt8.ofNat c.toNat ∉ decimal n := by
  rw [decimal_eq, mem_encode hc]
  intro hmem
  obtain hminus | hdigit := number_chars hmem
  · exact hother.1 hminus
  · rw [hother.2] at hdigit
    cases hdigit

/-! ### Extraction -/

/-- A key with its quotes. -/
def quoted (key : String) : Bytes := 34 :: (ascii key ++ [34])

/-- What `json_extract_string` obtains behind the quoted key. -/
def stringValue (outSize : Nat) (p : Bytes) : Option Bytes :=
  let p := p.dropWhile fun c => c = 32 ∨ c = 9 ∨ c = 58
  if p.head? ≠ some 34 then none
  else
    match strchr 34 p.tail with
    | none => none
    | some rest =>
      let text := p.tail.take (p.tail.length - rest.length)
      if text.length = 0 ∨ text.length ≥ outSize then none else some text

variable {json rest : Bytes} {key other : String} {outSize : Nat} {s t : List Char}

theorem jsonExtractString_some {p : Bytes} (h : strstr (quoted key) json = some (quoted key ++ p)) :
    jsonExtractString json key outSize = stringValue outSize p := by
  have hpattern : ascii "\"" ++ ascii key ++ ascii "\"" = quoted key := rfl
  rw [jsonExtractString, hpattern]
  dsimp only
  rw [h]
  dsimp only
  rw [List.drop_left]
  rfl

theorem stringValue_eq {text : Bytes} (h : stringValue outSize (58 :: 34 :: rest) = some text) :
    rest.takeWhile (fun c => c ≠ 34) = text := by
  rw [stringValue, List.dropWhile_cons_of_pos (by decide), List.dropWhile_cons_of_neg (by decide)] at h
  dsimp only at h
  rw [if_neg (by simp), List.tail_cons] at h
  split at h
  · cases h
  · rename_i tail htail
    split_ifs at h
    rw [← Option.some.inj h, take_strchr htail]

theorem stringValue_text (hs : s ≠ []) (hfit : (encode s).length < outSize) :
    stringValue outSize (58 :: 34 :: (escaped s ++ 34 :: rest)) = some (encode s) ↔ PlainText s := by
  constructor
  · intro h
    exact plain_of_takeWhile (stringValue_eq h)
  · intro hplain
    have hne : (encode s).length ≠ 0 := by
      have hlength := length_le_encode s
      have hpos := List.length_pos_iff.mpr hs
      omega
    rw [stringValue, List.dropWhile_cons_of_pos (by decide), List.dropWhile_cons_of_neg (by decide)]
    dsimp only
    rw [if_neg (by simp), List.tail_cons, escaped_plain hplain, strchr_append_cons hplain.quote_not_mem]
    dsimp only
    rw [take_front, if_neg (by omega)]

theorem stringValue_comma : stringValue outSize (44 :: rest) = none := by
  rw [stringValue, List.dropWhile_cons_of_neg (by decide)]
  exact if_pos (by simp)

/-! ### The members of a body -/

/-- A key of a form. -/
def PlainKey (key : String) : Prop :=
  ∀ c ∈ key.toList, c.toNat < 128 ∧ isPlain c = true ∧ c ≠ ':' ∧ c ≠ ','

instance : Decidable (PlainKey key) := inferInstanceAs (Decidable (∀ _ ∈ key.toList, _))

theorem PlainKey.ascii_eq (h : PlainKey key) : ascii key = encode key.toList :=
  Utf8.ascii_eq fun c hc => (h c hc).1

theorem PlainKey.plain (h : PlainKey key) : PlainText key.toList := fun c hc => (h c hc).2.1

theorem PlainKey.quote_not_mem (h : PlainKey key) : 34 ∉ ascii key := by
  rw [h.ascii_eq]
  exact h.plain.quote_not_mem

theorem PlainKey.ne_between (h : PlainKey key) {between : Bytes} (hbetween : 58 ∈ between ∨ 44 ∈ between) :
    between ≠ ascii key := by
  rintro rfl
  rw [h.ascii_eq] at hbetween
  obtain hcolon | hcomma := hbetween
  · exact (h ':' ((mem_encode (c := ':') (by decide)).mp hcolon)).2.2.1 rfl
  · exact (h ',' ((mem_encode (c := ',') (by decide)).mp hcomma)).2.2.2 rfl

theorem strstr_member_self : strstr (quoted key) (member key s rest) =
    some (quoted key ++ 58 :: 34 :: (escaped s ++ 34 :: rest)) := by
  have hmember : member key s rest = quoted key ++ 58 :: 34 :: (escaped s ++ 34 :: rest) := by
    simp [member, quoted]
  rw [hmember]
  exact strstr_prefix (List.prefix_append _ _)

theorem strstr_member (hkey : PlainKey key) (hother : PlainKey other) (hne : other ≠ key) (hs : PlainText s) :
    strstr (quoted key) (member other s (44 :: 34 :: rest)) =
      if s = key.toList then some (quoted key ++ 44 :: 34 :: rest) else strstr (quoted key) (34 :: rest) := by
  have hotherKey : ascii other ≠ ascii key := by
    rw [hother.ascii_eq, hkey.ascii_eq]
    exact fun heq => hne (String.toList_inj.mp (encode_injective heq))
  have htext : encode s = ascii key ↔ s = key.toList := by
    rw [hkey.ascii_eq]
    exact ⟨encode_injective, congrArg encode⟩
  have hquote := hkey.quote_not_mem
  have hcolon : (34 : UInt8) ∉ [58] := by decide
  have hcomma : (34 : UInt8) ∉ [44] := by decide
  calc strstr (quoted key) (member other s (44 :: 34 :: rest))
    _ = strstr (quoted key) (34 :: ([58] ++ 34 :: (escaped s ++ 34 :: 44 :: 34 :: rest))) := by
        rw [quoted, member, strstr_quoted hother.quote_not_mem hquote, if_neg hotherKey]
        rfl
    _ = strstr (quoted key) (34 :: (encode s ++ 34 :: 44 :: 34 :: rest)) := by
        rw [quoted, strstr_quoted hcolon hquote, if_neg (hkey.ne_between (.inl (by decide))), escaped_plain hs]
    _ = if s = key.toList then some (34 :: (encode s ++ 34 :: 44 :: 34 :: rest))
        else strstr (quoted key) (34 :: ([44] ++ 34 :: rest)) := by
        rw [quoted, strstr_quoted hs.quote_not_mem hquote]
        simp only [htext]
        rfl
    _ = if s = key.toList then some (quoted key ++ 44 :: 34 :: rest) else strstr (quoted key) (34 :: rest) := by
        split_ifs with heq
        · rw [htext.mpr heq]
          simp [quoted]
        · rw [quoted, strstr_quoted hcomma hquote, if_neg (hkey.ne_between (.inr (by decide)))]

theorem encode_quote (s t : List Char) : encode (quote escape s ++ t) = 34 :: (escaped s ++ 34 :: encode t) := by
  have hopen (t : List Char) : encode ('"' :: t) = 34 :: encode t := rfl
  have hquote : quote escape s ++ t = '"' :: (s.flatMap escape ++ '"' :: t) := by
    simp [quote]
  rw [hquote, hopen, encode_append, hopen, escaped]

theorem encode_member (hkey : PlainKey key) (s t : List Char) :
    encode (quote escape key.toList ++ ':' :: Json.print escape (.str s) ++ t) = member key s (encode t) := by
  have hcolon (t : List Char) : encode (':' :: t) = 58 :: encode t := rfl
  rw [List.append_assoc, List.cons_append, encode_quote, hcolon, Json.print, encode_quote, member,
    escaped_plain hkey.plain, hkey.ascii_eq]

/-- A field with a text, and the size of the server's buffer for it. -/
structure TextField where
  key : String
  size : Nat
  text : List Char
  plainKey : PlainKey key

namespace TextField

/-- The text is not empty and fits in the buffer. -/
def Fits (field : TextField) : Prop := field.text ≠ [] ∧ (encode field.text).length < field.size

instance {field : TextField} : Decidable field.Fits := inferInstanceAs (Decidable (_ ∧ _))

/-- The string that a handler obtains. -/
def obtained (json : Bytes) (field : TextField) : Option Bytes := jsonExtractString json field.key field.size

/-- The string that was sent. -/
def sent (field : TextField) : Option Bytes := some (encode field.text)

/-- The members with texts, and the brace behind the last one. -/
def print (separator : Bytes) : List TextField → Bytes
  | [] => [125]
  | field :: fields => separator ++ member field.key field.text (print [44] fields)

/-- No text needs an escape, and none is a key of a later one. -/
def Readable (fields : List TextField) : Prop :=
  (∀ field ∈ fields, PlainText field.text) ∧ fields.Pairwise fun field later => field.text ≠ later.key.toList

theorem print_cons (field : TextField) (fields : List TextField) (after : Bytes) :
    ∃ rest, print [] (field :: fields) ++ after = 34 :: rest ∧
      print [44] (field :: fields) ++ after = 44 :: 34 :: rest :=
  ⟨_, rfl, rfl⟩

theorem nul_not_mem_print {separator : Bytes} (h : 0 ∉ separator) (fields : List TextField) :
    0 ∉ print separator fields := by
  have hcomma : (0 : UInt8) ∉ [44] := by decide
  induction fields generalizing separator with
  | nil => simp [print]
  | cons field fields ih =>
      have hkey : 0 ∉ ascii field.key := by
        rw [field.plainKey.ascii_eq, ← escaped_plain field.plainKey.plain]
        exact nul_not_mem_escaped _
      have htext := nul_not_mem_escaped field.text
      simpa [print, member, h, hkey, htext] using ih hcomma

theorem obtained_first {field : TextField} (hfit : field.Fits)
    (hfind : strstr (quoted field.key) json = strstr (quoted field.key) (member field.key field.text rest)) :
    field.obtained json = field.sent ↔ PlainText field.text := by
  rw [obtained, sent, jsonExtractString_some (hfind.trans strstr_member_self)]
  exact stringValue_text hfit.1 hfit.2

/-- Behind a text that needs no escape, a later field is looked for: it is missed when the text is its key. -/
theorem strstr_print {field later : TextField} {fields : List TextField} {after : Bytes}
    (hplain : PlainText field.text) (hlater : later ∈ fields) (hkey : field.key ≠ later.key) :
    strstr (quoted later.key) (print [] (field :: fields) ++ after) =
      if field.text = later.key.toList then some (quoted later.key ++ (print [44] fields ++ after))
      else strstr (quoted later.key) (print [] fields ++ after) := by
  obtain ⟨next, fields, rfl⟩ := List.exists_cons_of_ne_nil (List.ne_nil_of_mem hlater)
  obtain ⟨rest, hfirst, hcomma⟩ := print_cons next fields after
  have hmember : print [] (field :: next :: fields) ++ after =
      member field.key field.text (print [44] (next :: fields) ++ after) := by
    rw [print, List.nil_append]
    simp [member]
  rw [hmember, hcomma, hfirst, strstr_member later.plainKey field.plainKey hkey hplain]

theorem encode_printMembers (separator : List Char) (fields : List TextField) :
    encode (printMembers escape separator (fields.map fun field => (field.key.toList, .str field.text))) =
      print (encode separator) fields := by
  induction fields generalizing separator with
  | nil => rfl
  | cons field fields ih =>
      rw [List.map_cons, printMembers, print, List.append_assoc separator, List.append_assoc separator,
        encode_append, encode_member field.plainKey, ih]
      rfl

theorem obtained_iff {fields : List TextField} (after : Bytes) (hfits : ∀ field ∈ fields, field.Fits)
    (hkeys : fields.Pairwise fun field later => field.key ≠ later.key)
    (hfind : ∀ field ∈ fields,
      strstr (quoted field.key) json = strstr (quoted field.key) (print [] fields ++ after)) :
    (∀ field ∈ fields, field.obtained json = field.sent) ↔ Readable fields := by
  induction fields with
  | nil => exact ⟨fun _ => ⟨List.forall_mem_nil _, List.Pairwise.nil⟩, fun _ => List.forall_mem_nil _⟩
  | cons field fields ih =>
      obtain ⟨hfit, hfits⟩ := List.forall_mem_cons.mp hfits
      obtain ⟨hkey, hkeys⟩ := List.pairwise_cons.mp hkeys
      obtain ⟨hfirst, hfind⟩ := List.forall_mem_cons.mp hfind
      have hmember : print [] (field :: fields) ++ after =
          member field.key field.text (print [44] fields ++ after) := by
        rw [print, List.nil_append]
        simp [member]
      rw [hmember] at hfirst
      rw [List.forall_mem_cons, Readable, List.forall_mem_cons, List.pairwise_cons, obtained_first hfit hfirst]
      -- a text that is no later key lets every later search through
      have hnext (hplain : PlainText field.text) (hne : ∀ later ∈ fields, field.text ≠ later.key.toList) :
          (∀ later ∈ fields, later.obtained json = later.sent) ↔ Readable fields := by
        refine ih hfits hkeys fun later hlater => ?_
        rw [hfind later hlater, strstr_print hplain hlater (hkey later hlater), if_neg (hne later hlater)]
      constructor
      · rintro ⟨hplain, hrest⟩
        have hne (later : TextField) (hlater : later ∈ fields) : field.text ≠ later.key.toList := by
          intro heq
          have hstop := hfind later hlater
          rw [strstr_print hplain hlater (hkey later hlater), if_pos heq] at hstop
          have hread := hrest later hlater
          obtain ⟨next, fields, rfl⟩ := List.exists_cons_of_ne_nil (List.ne_nil_of_mem hlater)
          obtain ⟨rest, -, hcomma⟩ := print_cons next fields after
          rw [hcomma] at hstop
          rw [obtained, sent, jsonExtractString_some hstop, stringValue_comma] at hread
          cases hread
        obtain ⟨hplains, hpairs⟩ := (hnext hplain hne).mp hrest
        exact ⟨⟨hplain, hplains⟩, hne, hpairs⟩
      · rintro ⟨⟨hplain, hplains⟩, hne, hpairs⟩
        exact ⟨hplain, (hnext hplain hne).mpr ⟨hplains, hpairs⟩⟩

end TextField

/-! ### The forms of the web client -/

def loginStrings (body : Bytes) : List (Option Bytes) :=
  let body := ofMemory (body.take httpMaxBody)
  [jsonExtractString body "username" 128, jsonExtractString body "password" 128]

def signupStrings (body : Bytes) : List (Option Bytes) :=
  let body := ofMemory (body.take httpMaxBody)
  [jsonExtractString body "nickname" dbMaxNickname, jsonExtractString body "username" dbMaxUsername,
    jsonExtractString body "password" 128]

def adminUpdateStrings (memory : Bytes) : List (Option Bytes) :=
  let body := ofMemory memory
  [jsonExtractString body "title" dbMaxTitle, jsonExtractString body "description" dbMaxDescription]

section Handlers

variable {env : ApiEnv} {req : HttpRequest} {conn : Conn} {body body' : Bytes}

theorem handleLogin_congr (h : loginStrings body = loginStrings body') :
    handleLogin env req conn body = handleLogin env req conn body' := by
  simp only [loginStrings, List.cons.injEq, and_true] at h
  rw [handleLogin, handleLogin]
  dsimp only
  rw [h.1, h.2]

theorem handleSignup_congr (h : signupStrings body = signupStrings body') :
    handleSignup env req conn body = handleSignup env req conn body' := by
  simp only [signupStrings, List.cons.injEq, and_true] at h
  rw [handleSignup, handleSignup]
  dsimp only
  rw [h.1, h.2.1, h.2.2]

theorem handleAdminUpdate_congr (h : adminUpdateStrings body = adminUpdateStrings body')
    (hid : jsonExtractIntField (ofMemory body) "video_id" = jsonExtractIntField (ofMemory body') "video_id") :
    handleAdminUpdate env req conn body = handleAdminUpdate env req conn body' := by
  simp only [adminUpdateStrings, List.cons.injEq, and_true] at h
  rw [handleAdminUpdate, handleAdminUpdate]
  dsimp only
  rw [h.1, h.2, hid]

end Handlers

/-- What the web client sends with its texts. -/
inductive JsonForm where
  | login (username password : List Char)
  | signup (nickname username password : List Char)
  | adminUpdate (videoId : Int) (title description : List Char)

namespace JsonForm

def value : JsonForm → Json
  | .login username password => .obj [("username".toList, .str username), ("password".toList, .str password)]
  | .signup nickname username password =>
    .obj [("nickname".toList, .str nickname), ("username".toList, .str username),
      ("password".toList, .str password)]
  | .adminUpdate videoId title description =>
    .obj [("video_id".toList, .num videoId), ("title".toList, .str title),
      ("description".toList, .str description)]

/-- `JSON.stringify`, in UTF-8. -/
def body (form : JsonForm) : Bytes := encode (stringify form.value)

/-- The texts with the keys and the buffers of their handler. -/
def fields : JsonForm → List TextField
  | .login username password =>
    [⟨"username", 128, username, by decide⟩, ⟨"password", 128, password, by decide⟩]
  | .signup nickname username password =>
    [⟨"nickname", dbMaxNickname, nickname, by decide⟩, ⟨"username", dbMaxUsername, username, by decide⟩,
      ⟨"password", 128, password, by decide⟩]
  | .adminUpdate _ title description =>
    [⟨"title", dbMaxTitle, title, by decide⟩, ⟨"description", dbMaxDescription, description, by decide⟩]

/-- What the handler obtains, with the memory after the body. -/
def obtained (after : Bytes) (form : JsonForm) : List (Option Bytes) :=
  match form with
  | .login .. => loginStrings form.body
  | .signup .. => signupStrings form.body
  | .adminUpdate .. => adminUpdateStrings (form.body ++ after)

/-- The texts fit in the buffers of the handler, and the body in the server's. -/
def Fits (form : JsonForm) : Prop :=
  (∀ field ∈ form.fields, field.Fits) ∧ form.body.length ≤ httpMaxBody

instance {form : JsonForm} : Decidable form.Fits := inferInstanceAs (Decidable (_ ∧ _))

/-- The body in front of the first text's key. -/
def front : JsonForm → Bytes
  | .login .. => [123]
  | .signup .. => [123]
  | .adminUpdate videoId .. => 123 :: 34 :: (ascii "video_id" ++ 34 :: (58 :: decimal videoId ++ [44]))

theorem body_eq (form : JsonForm) : form.body = form.front ++ TextField.print [] form.fields := by
  have hmembers := TextField.encode_printMembers [] form.fields
  cases form with
  | login username password => exact congrArg (List.cons 123) hmembers
  | signup nickname username password => exact congrArg (List.cons 123) hmembers
  | adminUpdate videoId title description =>
      have hkey : escaped "video_id".toList = ascii "video_id" := by decide
      have hopen (t : List Char) : encode ('\x7b' :: t) = 123 :: encode t := rfl
      have hcolon (t : List Char) : encode (':' :: t) = 58 :: encode t := rfl
      have hnumber : Json.print escape (.num videoId) = (toString videoId).toList := by
        rw [Json.print, Rat.num_intCast]
      have hnext : encode (printMembers escape [',']
          [("title".toList, .str title), ("description".toList, .str description)]) =
            44 :: TextField.print [] (adminUpdate videoId title description).fields :=
        TextField.encode_printMembers [','] (adminUpdate videoId title description).fields
      rw [body, value, stringify, Json.print, hopen, printMembers, List.nil_append, List.append_assoc,
        encode_quote, List.cons_append, hcolon, encode_append, hnumber, ← decimal_eq, hkey, hnext]
      simp [front]

theorem strstr_front (form : JsonForm) {field : TextField} (h : field ∈ form.fields) (after : Bytes) :
    strstr (quoted field.key) (form.body ++ after) =
      strstr (quoted field.key) (TextField.print [] form.fields ++ after) := by
  have hopen : (34 : UInt8) ∉ [123] := by decide
  rw [body_eq, List.append_assoc]
  obtain ⟨first, fields, hfields⟩ := List.exists_cons_of_ne_nil (List.ne_nil_of_mem h)
  obtain ⟨rest, hrest, -⟩ := TextField.print_cons first fields after
  rw [hfields, hrest]
  cases form with
  | login username password => exact strstr_skip hopen
  | signup nickname username password => exact strstr_skip hopen
  | adminUpdate videoId title description =>
      have hvideoId : PlainKey "video_id" := by decide
      have hbetween : (34 : UInt8) ∉ 58 :: decimal videoId ++ [44] := by
        have hdecimal := not_mem_decimal (c := '"') (by decide) (by decide) videoId
        simpa using hdecimal
      have hkey : ascii "video_id" ≠ ascii field.key := by
        obtain rfl | rfl := List.mem_pair.mp h
        · show ascii "video_id" ≠ ascii "title"
          decide
        · show ascii "video_id" ≠ ascii "description"
          decide
      calc strstr (quoted field.key) ((adminUpdate videoId title description).front ++ 34 :: rest)
        _ = strstr (quoted field.key) ([123] ++ 34 :: (ascii "video_id" ++ 34 ::
              ((58 :: decimal videoId ++ [44]) ++ 34 :: rest))) := by simp [front]
        _ = strstr (quoted field.key) (34 :: ((58 :: decimal videoId ++ [44]) ++ 34 :: rest)) := by
            rw [quoted, strstr_skip hopen, strstr_quoted hvideoId.quote_not_mem field.plainKey.quote_not_mem,
              if_neg hkey]
        _ = strstr (quoted field.key) (34 :: rest) := by
            rw [quoted, strstr_quoted hbetween field.plainKey.quote_not_mem,
              if_neg (field.plainKey.ne_between (.inl (by simp)))]

theorem nul_not_mem_body (form : JsonForm) : 0 ∉ form.body := by
  have hfront : 0 ∉ form.front := by
    cases form with
    | login username password => simp [front]
    | signup nickname username password => simp [front]
    | adminUpdate videoId title description =>
        have hkey : 0 ∉ ascii "video_id" := by decide
        have hdecimal := not_mem_decimal (c := '\x00') (by decide) (by decide) videoId
        simpa [front, hkey] using hdecimal
  rw [body_eq, List.mem_append]
  exact not_or.mpr ⟨hfront, TextField.nul_not_mem_print (by decide) form.fields⟩

theorem obtained_eq (after : Bytes) {form : JsonForm} (hlength : form.body.length ≤ httpMaxBody) :
    ∃ after', form.obtained after = form.fields.map (TextField.obtained (form.body ++ after')) := by
  have hbody : ofMemory (form.body.take httpMaxBody) = form.body := by
    rw [List.take_of_length_le hlength, ofMemory_eq form.nul_not_mem_body]
  cases form with
  | login username password =>
      refine ⟨[], ?_⟩
      rw [obtained, loginStrings, hbody, List.append_nil]
      rfl
  | signup nickname username password =>
      refine ⟨[], ?_⟩
      rw [obtained, signupStrings, hbody, List.append_nil]
      rfl
  | adminUpdate videoId title description =>
      refine ⟨ofMemory after, ?_⟩
      rw [obtained, adminUpdateStrings, ofMemory_append (nul_not_mem_body _)]
      rfl

/-- Each handler obtains the texts exactly when none needs an escape and none is a later text's key. -/
theorem texts_decode_iff {form : JsonForm} (h : form.Fits) (after : Bytes) :
    form.obtained after = form.fields.map TextField.sent ↔ TextField.Readable form.fields := by
  obtain ⟨hfits, hlength⟩ := h
  obtain ⟨after', hobtained⟩ := obtained_eq after hlength
  have hkeys : form.fields.Pairwise fun field later => field.key ≠ later.key := by
    cases form <;> simp [fields]
  rw [hobtained, List.map_inj_left]
  exact TextField.obtained_iff after' hfits hkeys fun field hfield => form.strstr_front hfield after'

/-- A user with a plain name and password. -/
def sample : JsonForm := .login "kim".toList "pass word".toList

theorem sample_fits : sample.Fits := by decide

theorem texts_decode_iff_sample :
    sample.obtained [] = sample.fields.map TextField.sent ↔ TextField.Readable sample.fields :=
  texts_decode_iff sample_fits []

/-- A password with a quote is cut off at its escape. -/
theorem quoted_text_not_decoded :
    ¬ ∀ form : JsonForm, form.Fits → ∀ after, form.obtained after = form.fields.map TextField.sent := by
  intro h
  have hpassword := h (.login "kim".toList "a\"b".toList) (by decide) []
  revert hpassword
  decide

/-- The second search stops at a name that is its key. -/
example : (login "password".toList "pass".toList).obtained [] = [some (ascii "password"), none] := by
  decide

end JsonForm

end OttQuic.Http
