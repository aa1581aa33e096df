/-!
# Reading positions in a YAML text

A `Cursor` is a place in a text together with its line and column. Line ends are unified before
reading starts, so that a line ends in a line feed or in one of the two Unicode separators, which
folding keeps as they are. A `Gap` is a run of blanks and line ends inside a scalar, and `Gap.fold`
says what it stands for.
-/

namespace LinkedSchema.Yaml

/-- The next-line control character. -/
def nextLine : Char := Char.ofNat 0x85

/-- The characters that may stand in a YAML text. -/
def isPrintable (c : Char) : Bool :=
  let n := c.toNat
  n == 9 || n == 10 || n == 13 || (0x20 ≤ n && n ≤ 0x7E) || n == 0x85 ||
    (0xA0 ≤ n && n ≤ 0xD7FF) || (0xE000 ≤ n && n ≤ 0xFFFD && n != 0xFEFF) || 0x10000 ≤ n

/-- A text with every line end that folds written as one line feed. -/
def unifyBreaks : List Char → List Char
  | [] => []
  | '\r' :: '\n' :: rest => '\n' :: unifyBreaks rest
  | c :: rest =>
    if c = '\r' ∨ c = nextLine then '\n' :: unifyBreaks rest else c :: unifyBreaks rest

/-- The characters that end a line. -/
def isBreak (c : Char) : Bool := c == '\n' || c.toNat == 0x2028 || c.toNat == 0x2029

/-- The blanks within a line. -/
def isBlank (c : Char) : Bool := c == ' ' || c == '\t'

/-- The characters of anchors and tag handles. -/
def isWordChar (c : Char) : Bool := c.isAlphanum || c == '_' || c == '-'

/-- A place in a text. -/
structure Cursor where
  /-- What follows. -/
  rest : List Char
  /-- How many characters precede. -/
  index : Nat
  /-- How many lines precede. -/
  line : Nat
  /-- How many characters of the line precede. -/
  column : Nat

namespace Cursor

/-- The place one character further on. -/
def next (c : Cursor) : Cursor :=
  match c.rest with
  | [] => c
  | ch :: rest =>
    if isBreak ch then ⟨rest, c.index + 1, c.line + 1, 0⟩
    else ⟨rest, c.index + 1, c.line, c.column + 1⟩

/-- The place some characters further on. -/
def skip : Nat → Cursor → Cursor
  | 0, c => c
  | n + 1, c => skip n c.next

/-- The place after the characters of a kind that come next. -/
def skipWhile (p : Char → Bool) (c : Cursor) : Cursor := skip (c.rest.takeWhile p).length c

/-- The character some places ahead. -/
def peek? (c : Cursor) (n : Nat := 0) : Option Char := c.rest[n]?

/-- Whether a given character comes next. -/
def at? (c : Cursor) (ch : Char) : Bool := c.rest.head? == some ch

/-- Whether a blank, a line end or the end of the text stands some places ahead. -/
def gapAt (c : Cursor) (n : Nat) : Bool :=
  match c.rest[n]? with
  | none => true
  | some ch => isBlank ch || isBreak ch

/-- Whether a line starts here with three given marks alone. -/
def atMarks (c : Cursor) (mark : Char) : Bool :=
  c.column == 0 && [mark, mark, mark].isPrefixOf c.rest && c.gapAt 3

/-- Whether a line starts here with a document mark. -/
def atDocumentMark (c : Cursor) : Bool := c.atMarks '-' || c.atMarks '.'

/-- The place at the end of the line. -/
def toLineEnd (c : Cursor) : Cursor := c.skipWhile (!isBreak ·)

/-- Blanks and a comment may stand before the end of a line; anything else is refused. -/
def endLine? (c : Cursor) : Option Cursor :=
  let c := c.skipWhile isBlank
  let c := if c.at? '#' then c.toLineEnd else c
  match c.rest with
  | [] => some c
  | ch :: _ => if isBreak ch then some c.next else none

end Cursor

/-- A run of blanks and line ends inside a scalar. -/
structure Gap where
  /-- The blanks before the first line end. -/
  blanks : List Char
  /-- The line ends. -/
  breaks : List Char
  /-- Whether a tab stands among the indentation of a later line, left of a given column. -/
  tabbed : Bool

namespace Gap

/-- Reads a gap; `indent` is the column left of which a tab is noticed. -/
def read (indent : Nat) : (fuel : Nat) → Cursor → Gap → Gap × Cursor
  | 0, c, g => (g, c)
  | fuel + 1, c, g =>
    match c.rest with
    | [] => (g, c)
    | ch :: _ =>
      if isBlank ch then
        if g.breaks.isEmpty then read indent fuel c.next { g with blanks := g.blanks ++ [ch] }
        else
          let tabbed := g.tabbed || (ch == '\t' && c.column < indent)
          read indent fuel c.next { g with tabbed := tabbed }
      else if isBreak ch then read indent fuel c.next { g with breaks := g.breaks ++ [ch] }
      else (g, c)

/-- What a gap stands for: its blanks within a line; across lines a space for a single line feed,
and otherwise the line ends after the first line feed. -/
def fold (g : Gap) : List Char :=
  match g.breaks with
  | [] => g.blanks
  | '\n' :: [] => [' ']
  | '\n' :: more => more
  | breaks => breaks

end Gap

/-- The gap at a place. -/
def Cursor.gap (c : Cursor) (indent : Nat := 0) : Gap × Cursor :=
  Gap.read indent c.rest.length c ⟨[], [], false⟩

end LinkedSchema.Yaml
