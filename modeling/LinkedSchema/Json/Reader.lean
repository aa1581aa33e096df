import LinkedSchema.Json.Basic
import LinkedSchema.Text.Hex

/-!
# Reading JSON

`Json.read?` accepts exactly one value between blanks. Arrays and objects nest at most
`maxNesting` deep, a number beyond the largest finite one is refused, and so is an escape that
stands for half of a surrogate pair. A repeated member name keeps its first position and takes its
last value.
-/

namespace LinkedSchema.Json

/-- How deep arrays and objects may nest. -/
def maxNesting : Nat := 127

/-- The blanks between tokens. -/
def isBlank (c : Char) : Bool := c == ' ' || c == '\n' || c == '\t' || c == '\r'

/-- A text without the blanks at its start. -/
def skipBlanks (text : List Char) : List Char := text.dropWhile isBlank

/-- Four hexadecimal digits at the start of a text. -/
def readHex4? : List Char → Option (Nat × List Char)
  | a :: b :: c :: d :: rest => do
    let n ← Text.ofHexDigits? [a, b, c, d]
    some (n, rest)
  | _ => none

/-- The first half of a surrogate pair. -/
def isLeading (n : Nat) : Bool := 0xD800 ≤ n && n ≤ 0xDBFF

/-- The second half of a surrogate pair. -/
def isTrailing (n : Nat) : Bool := 0xDC00 ≤ n && n ≤ 0xDFFF

/-- The character after a backslash and the letter `u`: one code unit, or a pair of surrogates. -/
def readUnicode? (text : List Char) : Option (Char × List Char) := do
  let (n, rest) ← readHex4? text
  if isLeading n then
    match rest with
    | '\\' :: 'u' :: rest =>
      let (low, rest) ← readHex4? rest
      if isTrailing low then
        some (Char.ofNat (0x10000 + (n - 0xD800) * 0x400 + (low - 0xDC00)), rest)
      else none
    | _ => none
  else if isTrailing n then none
  else some (Char.ofNat n, rest)

/-- The character that a single letter after a backslash stands for. -/
def simpleEscape? : Char → Option Char
  | '"' => some '"'
  | '\\' => some '\\'
  | '/' => some '/'
  | 'b' => some (Char.ofNat 8)
  | 'f' => some (Char.ofNat 12)
  | 'n' => some '\n'
  | 'r' => some '\r'
  | 't' => some '\t'
  | _ => none

/-- The rest of a string after its opening quote, at most `fuel` characters of it. -/
def readString? : (fuel : Nat) → List Char → Option (List Char × List Char)
  | 0, _ => none
  | fuel + 1, text => do
    let (c, rest) ← match text with
      | [] => none
      | '"' :: _ => none
      | '\\' :: 'u' :: rest => readUnicode? rest
      | '\\' :: e :: rest => (simpleEscape? e).map (·, rest)
      | '\\' :: [] => none
      | c :: rest => if c.toNat < 32 then none else some (c, rest)
    match rest with
    | '"' :: rest => some ([c], rest)
    | rest =>
      let (cs, rest) ← readString? fuel rest
      some (c :: cs, rest)

/-- A string at the start of a text. -/
def readQuoted? (text : List Char) : Option (String × List Char) :=
  match text with
  | '"' :: '"' :: rest => some ("", rest)
  | '"' :: rest => (readString? rest.length rest).map fun (cs, rest) => (String.ofList cs, rest)
  | _ => none

/-- A fixed word at the start of a text. -/
def readWord? (word : List Char) (text : List Char) : Option (List Char) :=
  if word.isPrefixOf text then some (text.drop word.length) else none

mutual

/-- A value at the start of a text without leading blanks; `depth` levels of nesting are left. -/
def readValue? : (fuel depth : Nat) → List Char → Option (Json × List Char)
  | 0, _, _ => none
  | fuel + 1, depth, text =>
    match text with
    | 'n' :: _ => (readWord? "null".toList text).map (null, ·)
    | 't' :: _ => (readWord? "true".toList text).map (bool true, ·)
    | 'f' :: _ => (readWord? "false".toList text).map (bool false, ·)
    | '"' :: _ => (readQuoted? text).map fun (s, rest) => (str s, rest)
    | '[' :: rest =>
      if depth = 0 then none
      else match skipBlanks rest with
        | ']' :: rest => some (arr [], rest)
        | rest => (readItems? fuel (depth - 1) rest).map fun (vs, rest) => (arr vs, rest)
    | '\x7b' :: rest =>
      if depth = 0 then none
      else match skipBlanks rest with
        | '\x7d' :: rest => some (obj [], rest)
        | rest => (readMembers? fuel (depth - 1) [] rest).map fun (ms, rest) => (obj ms, rest)
    | _ => do
      let (literal, rest) ← Literal.read? text
      let n ← literal.number?
      some (num n, rest)

/-- The items of an array up to its closing bracket. -/
def readItems? : (fuel depth : Nat) → List Char → Option (List Json × List Char)
  | 0, _, _ => none
  | fuel + 1, depth, text => do
    let (v, rest) ← readValue? fuel depth text
    match skipBlanks rest with
    | ']' :: rest => some ([v], rest)
    | ',' :: rest =>
      let (vs, rest) ← readItems? fuel depth (skipBlanks rest)
      some (v :: vs, rest)
    | _ => none

/-- The members of an object up to its closing bracket, added to those already read. -/
def readMembers? : (fuel depth : Nat) → Members → List Char → Option (Members × List Char)
  | 0, _, _, _ => none
  | fuel + 1, depth, before, text => do
    let (name, rest) ← readQuoted? text
    match skipBlanks rest with
    | ':' :: rest =>
      let (v, rest) ← readValue? fuel depth (skipBlanks rest)
      let sofar := putMember before name v
      match skipBlanks rest with
      | '\x7d' :: rest => some (sofar, rest)
      | ',' :: rest => readMembers? fuel depth sofar (skipBlanks rest)
      | _ => none
    | _ => none

end

/-- The one value of a text, between blanks. -/
def read? (text : String) : Option Json := do
  let text := skipBlanks text.toList
  let (v, rest) ← readValue? (text.length + 1) maxNesting text
  if (skipBlanks rest).isEmpty then some v else none

end LinkedSchema.Json
