import Mathlib

/-!
# JSON

JSON values, the texts `JSON.stringify` makes of them and the values `JSON.parse` reads from texts. An
object is the list of its members; the last one with a key counts. A number is a rational, and `print` is
for whole numbers. A surrogate without its partner is read as U+FFFD.
-/

inductive Json where
  | null
  | bool (b : Bool)
  | num (q : ℚ)
  | str (s : List Char)
  | arr (vs : List Json)
  | obj (ms : List (List Char × Json))

namespace Json

theorem induct {P : Json → Prop} (null : P .null) (bool : ∀ b, P (.bool b)) (num : ∀ q, P (.num q))
    (str : ∀ s, P (.str s)) (arr : ∀ vs, (∀ v ∈ vs, P v) → P (.arr vs))
    (obj : ∀ ms : List (List Char × Json), (∀ m ∈ ms, P m.2) → P (.obj ms)) (v : Json) : P v :=
  @Json.rec P (fun vs => ∀ v ∈ vs, P v) (fun ms => ∀ m ∈ ms, P m.2) (fun m => P m.2) null bool num str arr
    obj (List.forall_mem_nil _) (fun _ _ hv hvs => List.forall_mem_cons.mpr ⟨hv, hvs⟩)
    (List.forall_mem_nil _) (fun _ _ hm hms => List.forall_mem_cons.mpr ⟨hm, hms⟩) (fun _ _ hv => hv) v

/-! ### Texts -/

/-- What holds of the characters of a text is looked at in the text. -/
instance (priority := high) {P : Char → Prop} [DecidablePred P] (s : List Char) : Decidable (∀ c ∈ s, P c) :=
  List.decidableBAll P s

/-- What a string holds without an escape. -/
def isPlain (c : Char) : Bool := c ≠ '"' ∧ c ≠ '\\' ∧ 32 ≤ c.toNat

/-- The escapes of one letter, with what they stand for. -/
def letters : List (Char × Nat) :=
  [('"', 34), ('\\', 92), ('/', 47), ('b', 8), ('t', 9), ('n', 10), ('f', 12), ('r', 13)]

def hexChar (d : Nat) : Char := if d < 10 then Char.ofNat (48 + d) else Char.ofNat (87 + d)

/-- `JSON.stringify` of one character of a string. -/
def escape (c : Char) : List Char :=
  if isPlain c then [c]
  else
    match letters.find? fun letter => letter.2 = c.toNat with
    | some letter => ['\\', letter.1]
    | none => ['\\', 'u', '0', '0', hexChar (c.toNat / 16), hexChar (c.toNat % 16)]

/-- A character as it is. -/
def verbatim (c : Char) : List Char := [c]

section Print

variable (chars : Char → List Char)

def quote (s : List Char) : List Char := '"' :: s.flatMap chars ++ ['"']

mutual

/-- The text of a value; `chars` writes the characters of its strings. -/
def print : Json → List Char
  | .null => "null".toList
  | .bool b => (if b then "true" else "false").toList
  | .num q => (toString q.num).toList
  | .str s => quote chars s
  | .arr vs => '[' :: printItems [] vs
  | .obj ms => '{' :: printMembers [] ms

def printItems (separator : List Char) : List Json → List Char
  | [] => [']']
  | v :: vs => separator ++ print v ++ printItems [','] vs

def printMembers (separator : List Char) : List (List Char × Json) → List Char
  | [] => ['}']
  | (k, v) :: ms => separator ++ quote chars k ++ ':' :: print v ++ printMembers [','] ms

end

end Print

/-- `JSON.stringify`. -/
def stringify (v : Json) : List Char := print escape v

/-! ### Strings -/

/-- Where `parseUnits` stands in a string: in an escape, or with some digits of one to come. -/
inductive Mode where
  | plain
  | escaped
  | hex (left : Nat) (unit : Nat)

def hexDigit (c : Char) : Option Nat := (List.range 16).find? fun d => hexChar d = c.toLower

def push (unit : Nat) (result : Option (List Nat × List Char)) : Option (List Nat × List Char) :=
  result.map fun (units, t) => (unit :: units, t)

/-- The code units up to the end of a string, and what comes after it. -/
def parseUnits : Mode → List Char → Option (List Nat × List Char)
  | _, [] => none
  | .plain, c :: t =>
    if c = '"' then some ([], t)
    else if c = '\\' then parseUnits .escaped t
    else if c.toNat < 32 then none
    else push c.toNat (parseUnits .plain t)
  | .escaped, c :: t =>
    if c = 'u' then parseUnits (.hex 4 0) t
    else
      match letters.find? fun letter => letter.1 = c with
      | some letter => push letter.2 (parseUnits .plain t)
      | none => none
  | .hex left unit, c :: t =>
    match hexDigit c with
    | none => none
    | some d =>
      if left = 1 then push (unit * 16 + d) (parseUnits .plain t)
      else parseUnits (.hex (left - 1) (unit * 16 + d)) t

def isHigh (u : Nat) : Bool := 0xD800 ≤ u ∧ u < 0xDC00

def isLow (u : Nat) : Bool := 0xDC00 ≤ u ∧ u < 0xE000

def single (u : Nat) : Char := if isHigh u ∨ isLow u then Char.ofNat 0xFFFD else Char.ofNat u

/-- The characters of code units. -/
def join : List Nat → List Char
  | [] => []
  | [u] => [single u]
  | u :: w :: us =>
    if isHigh u ∧ isLow w then Char.ofNat (0x10000 + (u - 0xD800) * 1024 + (w - 0xDC00)) :: join us
    else single u :: join (w :: us)

/-- A string, from behind its opening quote. -/
def parseString (t : List Char) : Option (List Char × List Char) :=
  (parseUnits .plain t).map fun (units, t) => (join units, t)

/-! ### Numbers -/

def parseFraction (t : List Char) : Option (ℚ × List Char) :=
  if t.head? = some '.' then
    let digits := t.tail.takeWhile Char.isDigit
    if digits = [] then none
    else some ((Nat.ofDigitChars 10 digits 0 : ℚ) / (10 ^ digits.length : Nat), t.tail.dropWhile Char.isDigit)
  else some (0, t)

/-- The power of ten an exponent stands for. -/
def parseExponent (t : List Char) : Option (ℚ × List Char) :=
  if t.head? = some 'e' ∨ t.head? = some 'E' then
    let t := t.tail
    let unsigned := if t.head? = some '+' ∨ t.head? = some '-' then t.tail else t
    let digits := unsigned.takeWhile Char.isDigit
    let power : ℚ := (10 ^ Nat.ofDigitChars 10 digits 0 : Nat)
    if digits = [] then none
    else some (if t.head? = some '-' then 1 / power else power, unsigned.dropWhile Char.isDigit)
  else some (1, t)

/-- A number without its sign. -/
def parseUnsigned (t : List Char) : Option (ℚ × List Char) :=
  let whole := t.takeWhile Char.isDigit
  if whole = [] ∨ whole.head? = some '0' ∧ whole.length > 1 then none
  else
    match parseFraction (t.dropWhile Char.isDigit) with
    | none => none
    | some (fraction, t) =>
      (parseExponent t).map fun (power, t) => ((Nat.ofDigitChars 10 whole 0 + fraction) * power, t)

def parseNumber (t : List Char) : Option (ℚ × List Char) :=
  if t.head? = some '-' then (parseUnsigned t.tail).map fun (q, t) => (-q, t) else parseUnsigned t

/-! ### Values -/

def skipSpace (t : List Char) : List Char := t.dropWhile fun c => c = ' ' ∨ c = '\t' ∨ c = '\n' ∨ c = '\r'

/-- A value without an opening quote or bracket. -/
def parseAtom (t : List Char) : Option (Json × List Char) :=
  if "null".toList <+: t then some (.null, t.drop 4)
  else if "true".toList <+: t then some (.bool true, t.drop 4)
  else if "false".toList <+: t then some (.bool false, t.drop 5)
  else (parseNumber t).map fun (q, t) => (.num q, t)

mutual

/-- A value at the start of the text, and what comes after it. -/
def parseValue : Nat → List Char → Option (Json × List Char)
  | 0, _ => none
  | fuel + 1, text =>
    match skipSpace text with
    | [] => none
    | c :: t =>
      if c = '"' then (parseString t).map fun (s, t) => (.str s, t)
      else if c = '[' then
        if (skipSpace t).head? = some ']' then some (.arr [], (skipSpace t).tail)
        else (parseItems fuel t).map fun (vs, t) => (.arr vs, t)
      else if c = '{' then
        if (skipSpace t).head? = some '}' then some (.obj [], (skipSpace t).tail)
        else (parseMembers fuel t).map fun (ms, t) => (.obj ms, t)
      else parseAtom (c :: t)

/-- The items of an array that has one. -/
def parseItems : Nat → List Char → Option (List Json × List Char)
  | 0, _ => none
  | fuel + 1, text =>
    match parseValue fuel text with
    | none => none
    | some (v, t) =>
      if (skipSpace t).head? = some ',' then
        (parseItems fuel (skipSpace t).tail).map fun (vs, t) => (v :: vs, t)
      else if (skipSpace t).head? = some ']' then some ([v], (skipSpace t).tail)
      else none

/-- The members of an object that has one. -/
def parseMembers : Nat → List Char → Option (List (List Char × Json) × List Char)
  | 0, _ => none
  | fuel + 1, text =>
    if (skipSpace text).head? = some '"' then
      match parseString (skipSpace text).tail with
      | none => none
      | some (k, t) =>
        if (skipSpace t).head? = some ':' then
          match parseValue fuel (skipSpace t).tail with
          | none => none
          | some (v, t) =>
            if (skipSpace t).head? = some ',' then
              (parseMembers fuel (skipSpace t).tail).map fun (ms, t) => ((k, v) :: ms, t)
            else if (skipSpace t).head? = some '}' then some ([(k, v)], (skipSpace t).tail)
            else none
        else none
    else none

end

/-- `JSON.parse`. -/
def parse (text : List Char) : Option Json :=
  match parseValue (2 * text.length) text with
  | none => none
  | some (v, t) => if skipSpace t = [] then some v else none

end Json
