import SolidSidecar.Go.Strings

/-!
# `encoding/json`

Decoding is by raw text, as `json.RawMessage` sees it: `value` finds the end of one valid value, and
an object is its members in order, each with the raw text of its value. A struct field is read by
folding over the members whose key folds to the field's name: a later member overrides an earlier
one, `null` leaves the field alone, and a value of the wrong type fails the whole decoding. Of the
encoder only strings are needed.
-/

namespace Go.Json

def maxNestingDepth : Nat := 10000

def isSpace (b : UInt8) : Bool := b == 0x20 || b == 0x09 || b == 0x0A || b == 0x0D

def skipSpace (s : Str) : Str := s.dropWhile isSpace

def isDigit (b : UInt8) : Bool := 0x30 ≤ b.toNat && b.toNat ≤ 0x39

def hex? (b : UInt8) : Option Nat :=
  if isDigit b then some (b.toNat - 0x30)
  else if 0x61 ≤ b.toNat ∧ b.toNat ≤ 0x66 then some (b.toNat - 0x57)
  else if 0x41 ≤ b.toNat ∧ b.toNat ≤ 0x46 then some (b.toNat - 0x37)
  else none

/-- The text after the closing quote of a string literal, given what follows the opening one. -/
def afterString : Str → Option Str
  | 0x22 :: rest => some rest
  | 0x5C :: 0x75 :: a :: b :: c :: d :: rest =>
    if [a, b, c, d].all (hex? · |>.isSome) then afterString rest else none
  | 0x5C :: c :: rest => if (str "\"\\/bfnrt").contains c then afterString rest else none
  | b :: rest => if b.toNat < 0x20 then none else afterString rest
  | [] => none

def digits1 (s : Str) : Option Str :=
  match s with
  | b :: rest => if isDigit b then some (rest.dropWhile isDigit) else none
  | [] => none

def afterNumber (s : Str) : Option Str := do
  let s := match s with
    | 0x2D :: rest => rest
    | _ => s
  let s ← match s with
    | 0x30 :: rest => some rest
    | _ => digits1 s
  let s ← match s with
    | 0x2E :: rest => digits1 rest
    | _ => some s
  match s with
  | e :: rest =>
    if e = 0x65 ∨ e = 0x45 then
      match rest with
      | sign :: rest' => if sign = 0x2B ∨ sign = 0x2D then digits1 rest' else digits1 rest
      | [] => none
    else some s
  | [] => some s

def consumed (s rest : Str) : Str := s.take (s.length - rest.length)

mutual

/-- The text after one value that starts at the first byte of `s`. The first argument bounds the
recursion by the length of the text; the second counts the open arrays and objects. -/
def value : Nat → Nat → Str → Option Str
  | 0, _, _ => none
  | fuel + 1, depth, s =>
    match s with
    | 0x22 :: rest => afterString rest
    | 0x7B :: rest =>
      if maxNestingDepth ≤ depth then none else (members fuel (depth + 1) true rest).map (·.2)
    | 0x5B :: rest =>
      if maxNestingDepth ≤ depth then none else (items fuel (depth + 1) true rest).map (·.2)
    | _ =>
      if (str "true").isPrefixOf s || (str "null").isPrefixOf s then some (s.drop 4)
      else if (str "false").isPrefixOf s then some (s.drop 5)
      else afterNumber s

/-- The members of an object, each key with the raw text of its value, and the text after the
closing brace. An object may be empty, so a brace is accepted at the start only. -/
def members : Nat → Nat → Bool → Str → Option (List (Str × Str) × Str)
  | 0, _, _, _ => none
  | fuel + 1, depth, start, s =>
    match skipSpace s with
    | 0x7D :: rest => if start then some ([], rest) else none
    | 0x22 :: key =>
      match afterString key with
      | none => none
      | some afterKey =>
        match skipSpace afterKey with
        | 0x3A :: colon =>
          let v := skipSpace colon
          match value fuel depth v with
          | none => none
          | some afterValue =>
            let member := (consumed key afterKey, consumed v afterValue)
            match skipSpace afterValue with
            | 0x2C :: more => (members fuel depth false more).map fun p => (member :: p.1, p.2)
            | 0x7D :: rest => some ([member], rest)
            | _ => none
        | _ => none
    | _ => none

/-- The raw texts of the elements of an array, and the text after the closing bracket. -/
def items : Nat → Nat → Bool → Str → Option (List Str × Str)
  | 0, _, _, _ => none
  | fuel + 1, depth, start, s =>
    match skipSpace s with
    | 0x5D :: rest =>
      if start then some ([], rest) else none
    | v =>
      match value fuel depth v with
      | none => none
      | some afterValue =>
        match skipSpace afterValue with
        | 0x2C :: more => (items fuel depth false more).map fun p => (consumed v afterValue :: p.1, p.2)
        | 0x5D :: rest => some ([consumed v afterValue], rest)
        | _ => none

end

/-- The raw text of a document: one valid value with nothing but white space around it. -/
def document (data : Str) : Option Str :=
  let s := skipSpace data
  match value (s.length + 1) 0 s with
  | none => none
  | some rest => if skipSpace rest = [] then some (consumed s rest) else none

def toValid (s : Str) : Str := (runes s).flatMap Strings.encodeRune

def unit (a b c d : UInt8) : Nat :=
  [a, b, c, d].foldl (fun n b => n * 16 + (hex? b).getD 0) 0

def escaped (c : UInt8) : UInt8 :=
  if c = 0x62 then 0x08 else if c = 0x66 then 0x0C else if c = 0x6E then 0x0A
  else if c = 0x72 then 0x0D else if c = 0x74 then 0x09 else c

/-- Resolve the escapes of a string literal. Half a surrogate pair becomes U+FFFD. -/
def unescape : Str → Str
  | 0x5C :: 0x75 :: a :: b :: c :: d :: 0x5C :: 0x75 :: a' :: b' :: c' :: d' :: rest =>
    let high := unit a b c d
    let low := unit a' b' c' d'
    if 0xD800 ≤ high ∧ high < 0xDC00 ∧ 0xDC00 ≤ low ∧ low < 0xE000 then
      Strings.encodeRune ((high - 0xD800) * 1024 + (low - 0xDC00) + 0x10000) ++ unescape rest
    else
      Strings.encodeRune high ++ unescape (0x5C :: 0x75 :: a' :: b' :: c' :: d' :: rest)
  | 0x5C :: 0x75 :: a :: b :: c :: d :: rest => Strings.encodeRune (unit a b c d) ++ unescape rest
  | 0x5C :: c :: rest => escaped c :: unescape rest
  | b :: rest => b :: unescape rest
  | [] => []

/-- The string a literal stands for, given the text between an opening and a closing quote,
the closing one included. -/
def unquote (literal : Str) : Str := unescape (toValid literal.dropLast)

/-- The members of the object a raw text is, for decoding into a struct: `null` decodes to the
empty struct and everything else is a type error. -/
def fields? (raw : Str) : Option (List (Str × Str)) :=
  match raw with
  | 0x7B :: rest =>
    (members raw.length 1 true rest).map fun p => p.1.map fun m => (unquote m.1, m.2)
  | _ => if raw = "null" then some [] else none

/-- The elements of the array a raw text is; `null` decodes to the nil slice. -/
def elements? (raw : Str) : Option (List Str) :=
  match raw with
  | 0x5B :: rest => (items raw.length 1 true rest).map (·.1)
  | _ => if raw = "null" then some [] else none

/-- Decode a raw text into a string that is `old` so far. -/
def intoString (old raw : Str) : Option Str :=
  match raw with
  | 0x22 :: rest => some (unquote rest)
  | _ => if raw = "null" then some old else none

def natOf (ds : Str) : Nat := ds.foldl (fun n d => n * 10 + (d.toNat - 0x30)) 0

/-- `strconv.ParseInt(s, 10, 64)` on the text of a JSON number. -/
def parseInt64 (s : Str) : Option Int :=
  let n : Option Int := match s with
    | 0x2D :: ds => if ds.all isDigit then some (-(natOf ds : Int)) else none
    | _ => if s.all isDigit then some (natOf s : Int) else none
  n.bind fun n => if -2 ^ 63 ≤ n ∧ n < 2 ^ 63 then some n else none

def intoInt64 (old : Int) (raw : Str) : Option Int :=
  if raw = "null" then some old
  else match raw with
    | b :: _ => if isDigit b || b == 0x2D then parseInt64 raw else none
    | [] => none

def intoBool (old : Bool) (raw : Str) : Option Bool :=
  if raw = "true" then some true
  else if raw = "false" then some false
  else if raw = "null" then some old
  else none

section Fields

variable [Unicode]

/-- Read the struct field `name`, which starts as `zero`, by decoding into it each member in turn
whose key is its name up to case. -/
def field {α : Type} (name : Str) (into : α → Str → Option α) (zero : α) (ms : List (Str × Str)) : Option α :=
  ms.foldlM (fun old m => if Strings.equalFold m.1 name then into old m.2 else some old) zero

def stringField (name : Str) : List (Str × Str) → Option Str := field name intoString []

def int64Field (name : Str) : List (Str × Str) → Option Int := field name intoInt64 0

def boolField (name : Str) : List (Str × Str) → Option Bool := field name intoBool false

/-- A `json.RawMessage` keeps the text, that of `null` included. -/
def rawField (name : Str) : List (Str × Str) → Option Str := field name (fun _ raw => some raw) []

/-- A nested struct: objects under one name are decoded into the same struct one after another. -/
def structField (name : Str) : List (Str × Str) → Option (List (Str × Str)) :=
  field name (fun old raw => (fields? raw).map (old ++ ·)) []

/-- A `[]string`: an element that is `null` is the empty string. -/
def stringsField (name : Str) : List (Str × Str) → Option (List Str) :=
  field name (fun _ raw => (elements? raw).bind fun es => es.mapM (intoString [])) []

/-- A slice of structs, each decoded from its own members. -/
def structsField {α : Type} (name : Str) (decode : List (Str × Str) → Option α) :
    List (Str × Str) → Option (List α) :=
  field name (fun _ raw => (elements? raw).bind fun es => es.mapM fun e => (fields? e).bind decode) []

end Fields

/-- The members of a document that is decoded into a struct. -/
def unmarshal (data : Str) : Option (List (Str × Str)) := (document data).bind fields?

/-- One rune inside an encoded string, with the HTML-safe escapes of `json.Marshal`. -/
def quoteRune (r : Nat) : Str :=
  if r = 0x22 ∨ r = 0x5C then [0x5C, UInt8.ofNat r]
  else if r = 0x08 then "\\b" else if r = 0x0C then "\\f" else if r = 0x0A then "\\n"
  else if r = 0x0D then "\\r" else if r = 0x09 then "\\t"
  else if r < 0x20 ∨ r = 0x3C ∨ r = 0x3E ∨ r = 0x26 then
    "\\u00" ++ [hexDigit (r / 16), hexDigit (r % 16)]
  else if r = 0x2028 then "\\u2028" else if r = 0x2029 then "\\u2029"
  else Strings.encodeRune r

/-- A string of valid UTF-8 as `json.Marshal` writes it. -/
def quote (s : Str) : Str := 0x22 :: (runes s).flatMap quoteRune ++ [0x22]

end Go.Json
