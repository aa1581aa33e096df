import LinkedSchema.Number.Literal
import LinkedSchema.Pattern.Regex
import LinkedSchema.Text.Hex

/-!
# Dialects and escapes

Patterns are read in one of two dialects. `Dialect.full` is the one that is searched, with
look-around and back-references. `Dialect.regular` has regular expressions only and is stricter
about what may be escaped and repeated; where it meets look-around or a back-reference it stops with
the fault `irregular`.
-/

namespace LinkedSchema.Pattern

/-- What a pattern may hold. -/
inductive Dialect where
  /-- Regular expressions only. -/
  | regular
  /-- Everything that can be searched. -/
  | full
deriving DecidableEq, Repr

/-- Why a pattern cannot be read. -/
inductive Fault where
  /-- It is not well formed. -/
  | malformed
  /-- It is more than a regular expression. -/
  | irregular
deriving DecidableEq, Repr

/-- What an escape stands for. -/
inductive Escape where
  /-- A character, which takes part in the ignoring of case or does not. -/
  | char (c : Char) (cased : Bool)
  | set (s : CharSet)
  | anchor (a : Anchor)
  /-- The text of a numbered group. -/
  | reference (number : Nat)
  /-- The text of a named group. -/
  | named (name : String)
  /-- The end of the text, but for line feeds. -/
  | nearEnd
  /-- Nothing that has to match. -/
  | nothing
deriving DecidableEq, Repr

/-- The text is not well formed. -/
def malformed {α : Type} : Except Fault α := .error .malformed

/-- The character of a code point, if there is one. -/
def charOfCode (n : Nat) : Except Fault Char :=
  if n.isValidChar then .ok (Char.ofNat n) else malformed

/-- The greatest count of digits of a code point in braces. -/
def maxHexDigits : Nat := 8

/-- A code point: so many digits, or digits in braces. -/
def readCodePoint (digits : Nat) (text : List Char) : Except Fault (Char × List Char) := do
  match Text.ofHexDigits? (text.take digits), text with
  | some n, text =>
    if (text.take digits).length = digits then pure (← charOfCode n, text.drop digits)
    else malformed
  | none, '\x7b' :: text =>
    let (inside, rest) := (text.takeWhile (· ≠ '\x7d'), text.dropWhile (· ≠ '\x7d'))
    if inside.isEmpty || maxHexDigits < inside.length || rest.isEmpty then malformed
    else match Text.ofHexDigits? inside with
      | some n => pure (← charOfCode n, rest.drop 1)
      | none => malformed
  | none, _ => malformed

/-- The name of a property: one letter, or a text in braces. -/
def readPropertyName (text : List Char) : Except Fault (String × List Char) :=
  match text with
  | [] => malformed
  | '\x7b' :: text =>
    match text.dropWhile (· ≠ '\x7d') with
    | [] => malformed
    | _ :: rest => .ok (String.ofList (text.takeWhile (· ≠ '\x7d')), rest)
  | c :: rest => .ok (String.ofList [c], rest)

/-- The set of a property. -/
def readProperty (negated : Bool) (text : List Char) : Except Fault (Escape × List Char) := do
  let (name, rest) ← readPropertyName text
  match Unicode.Property.ofName? name with
  | some p => pure (.set (.property p negated), rest)
  | none => malformed

/-- Whether a character may stand in the name of a group. -/
def isNameChar (c : Char) : Bool :=
  Unicode.Property.alphabetic.contains c || c == '_' ||
    Unicode.ofCategory [.decimalNumber, .letterNumber, .otherNumber] c

/-- A name and the character that closes it. -/
def readName (closing : Char) (text : List Char) : Except Fault (String × List Char) :=
  match text.takeWhile isNameChar, text.dropWhile isNameChar with
  | [], _ => malformed
  | name, c :: rest => if c = closing then .ok (String.ofList name, rest) else malformed
  | _, [] => malformed

/-- The letters of classes, each with whether it negates. -/
def shorthand? : Char → Option (Shorthand × Bool)
  | 'd' => some (.digit, false)
  | 'D' => some (.digit, true)
  | 's' => some (.space, false)
  | 'S' => some (.space, true)
  | 'w' => some (.word, false)
  | 'W' => some (.word, true)
  | _ => none

/-- The letters of control characters that both dialects have. -/
def control? : Char → Option Char
  | 'a' => some '\x07'
  | 'f' => some '\x0c'
  | 'n' => some '\n'
  | 'r' => some '\r'
  | 't' => some '\t'
  | 'v' => some '\x0b'
  | _ => none

/-- The letters of conditions, outside of brackets. -/
def anchor? : Char → Option Anchor
  | 'A' => some .startOfText
  | 'z' => some .endOfText
  | 'b' => some .wordBoundary
  | 'B' => some .noWordBoundary
  | '<' => some .startOfWord
  | '>' => some .endOfWord
  | _ => none

/-- How many digits the code point behind a letter has. -/
def codeLength? : Char → Option Nat
  | 'x' => some 2
  | 'u' => some 4
  | 'U' => some 8
  | _ => none

/-- The hexadecimal digits as a set. -/
def hexDigits : CharSet := .union (.range '0' '9') (.union (.range 'A' 'F') (.range 'a' 'f'))

/-- The escapes that only the full dialect has, by their letter. -/
def readFullEscape (inBrackets : Bool) (c : Char) (rest : List Char) :
    Except Fault (Escape × List Char) :=
  if inBrackets then
    if c = 'b' then .ok (.char '\x08' false, rest)
    else if ['k', 'A', 'z', 'B', 'K', 'G'].contains c || !c.isAlpha then .ok (.char c false, rest)
    else malformed
  else match c, rest with
    | 'k', '<' :: rest => do
      let (name, rest) ← readName '>' rest
      pure (.named name, rest)
    | 'k', '\'' :: rest => do
      let (name, rest) ← readName '\'' rest
      pure (.named name, rest)
    | 'K', rest => .ok (.nothing, rest)
    | 'G', rest => .ok (.anchor .startOfText, rest)
    | 'Z', rest => .ok (.nearEnd, rest)
    | c, rest => if c.isAlpha then malformed else .ok (.char c false, rest)

/-- An escape of the full dialect, the backslash having been read. -/
def readFull (inBrackets : Bool) (c : Char) (rest : List Char) :
    Except Fault (Escape × List Char) :=
  if c.isDigit then
    let (digits, rest) := spanDigits (c :: rest)
    .ok (.reference (ofDigits digits), rest)
  else if c = 'e' then .ok (.char '\x1b' false, rest)
  else if c = 'h' ∨ c = 'H' then .ok (.set (.bracket hexDigits (c = 'H')), rest)
  else match (if inBrackets then none else anchor? c) with
    | some a => if a.isAboutWords && rest.head? == some '\x7b' && c.isAlpha then malformed
      else .ok (.anchor a, rest)
    | none =>
      match control? c with
      | some control => .ok (.char control false, rest)
      | none => readFullEscape inBrackets c rest

/-- The control character that a letter stands for behind `\c`. -/
def controlOfLetter (c : Char) : Char := Char.ofNat (c.toNat % 32)

/-- An escape of the regular dialect, the backslash having been read. -/
def readRegular (inBrackets : Bool) (c : Char) (rest : List Char) :
    Except Fault (Escape × List Char) :=
  if c.isDigit then .error .irregular
  else match control? c, anchor? c, rest with
    | some control, _, rest => .ok (.char control false, rest)
    | none, some a, rest => if inBrackets then malformed else .ok (.anchor a, rest)
    | none, none, rest =>
      match c, rest with
      | 'c', letter :: rest =>
        if letter.isAlpha then .ok (.char (controlOfLetter letter) false, rest) else malformed
      | c, rest => if c.toNat < 128 && !c.isAlpha then .ok (.char c false, rest) else malformed

/-- An escape, the backslash having been read. -/
def readEscape (d : Dialect) (inBrackets : Bool) : List Char → Except Fault (Escape × List Char)
  | [] => malformed
  | c :: rest =>
    match shorthand? c, codeLength? c with
    | some (s, negated), _ => .ok (.set (.shorthand s negated), rest)
    | none, some digits => do
      let (c, rest) ← readCodePoint digits rest
      pure (.char c true, rest)
    | none, none =>
      if c = 'p' ∨ c = 'P' then readProperty (c = 'P') rest
      else match d with
        | .regular => readRegular inBrackets c rest
        | .full => readFull inBrackets c rest

end LinkedSchema.Pattern
