import LinkedSchema.Pattern.Bracket

/-!
# Reading patterns

`Regex.parse` reads a pattern in a dialect: alternatives of pieces, each an atom that may be
repeated. Flags change what follows them, up to the end of the group that they open, or else up to
the end of the pattern. Groups are numbered from left to right by their opening brackets, and a
reference must be to a group that the pattern has.
-/

namespace LinkedSchema.Pattern

/-- The flags that change how a pattern is read. -/
structure Flags where
  /-- Case is ignored. -/
  ignoreCase : Bool := false
  /-- The conditions on the ends of the text hold at the ends of lines. -/
  byLine : Bool := false
  /-- The dot stands for line feeds too. -/
  dotAll : Bool := false
  /-- Repetitions match as little as possible, unless they say otherwise. -/
  reluctant : Bool := false
  /-- Blanks and comments count for nothing. -/
  spaced : Bool := false
deriving DecidableEq, Repr

/-- How far the reading of a pattern has come. -/
structure Position where
  rest : List Char
  flags : Flags
  /-- How many groups have been opened. -/
  groups : Nat
  /-- The groups that have names. -/
  names : List (String × Nat)
  /-- Whether a group has been referred to by its number. -/
  usesNumbers : Bool

/-- The reading of a part of a pattern. -/
abbrev Parser := StateT Position (Except Fault)

namespace Parser

/-- Gives up. -/
def fail {α : Type} (fault : Fault) : Parser α := StateT.lift (.error fault)

/-- The text that has not been read. -/
def rest : Parser (List Char) := do pure (← get).rest

/-- Goes on with another text. -/
def setRest (text : List Char) : Parser Unit := modify fun p => { p with rest := text }

/-- Reads by a function on texts. -/
def readBy {α : Type} (read : List Char → Except Fault (α × List Char)) : Parser α := do
  let (a, text) ← StateT.lift (read (← rest))
  setRest text
  pure a

/-- Changes the flags. -/
def setFlags (flags : Flags) : Parser Unit := modify fun p => { p with flags }

end Parser

/-- An atom, and whether it may be repeated. -/
structure Atom where
  regex : Regex
  repeatable : Bool

/-- What follows a comment in parentheses, the opening of which has been read. -/
def afterComment : List Char → Option (List Char)
  | [] => none
  | ['\\'] => none
  | '\\' :: _ :: rest => afterComment rest
  | ')' :: rest => some rest
  | _ :: rest => afterComment rest

/-- What follows comments, and blanks where they do not count. -/
def skipIdle (d : Dialect) (spaced : Bool) : (fuel : Nat) → List Char → Except Fault (List Char)
  | 0, text => .ok text
  | fuel + 1, text =>
    match text with
    | '(' :: '?' :: '#' :: inside =>
      match d, afterComment inside with
      | .full, some rest => skipIdle d spaced fuel rest
      | _, _ => malformed
    | '#' :: rest =>
      if spaced then skipIdle d spaced fuel ((rest.dropWhile (· ≠ '\n')).drop 1) else .ok text
    | c :: rest =>
      if spaced && (c == ' ' || c == '\t' || c == '\n' || c == '\r') then
        skipIdle d spaced fuel rest
      else .ok text
    | [] => .ok []

/-- Skips what counts for nothing. -/
def idle (d : Dialect) : Parser Unit := do
  let p ← get
  Parser.setRest (← StateT.lift (skipIdle d p.flags.spaced (p.rest.length + 1) p.rest))

/-- The counts of a repetition, the opening brace having been read. -/
def readCounts? (text : List Char) : Option (Nat × Option Nat × List Char) :=
  let (low, rest) := spanDigits text
  match rest with
  | '\x7d' :: rest => if low.isEmpty then none else some (ofDigits low, some (ofDigits low), rest)
  | ',' :: rest =>
    let (high, rest) := spanDigits rest
    match rest with
    | '\x7d' :: rest =>
      some (ofDigits low, if high.isEmpty then none else some (ofDigits high), rest)
    | _ => none
  | _ => none

/-- The greatest count of a repetition is less than this. -/
def countLimit : Nat := Nat.pow 2 32

/-- The counts that a repetition starts with; nothing where none starts. In the full dialect a brace
that opens no repetition stands for itself. -/
def readRepetition? (d : Dialect) : List Char → Except Fault (Option (Nat × Option Nat) × List Char)
  | '?' :: rest => .ok (some (0, some 1), rest)
  | '*' :: rest => .ok (some (0, none), rest)
  | '+' :: rest => .ok (some (1, none), rest)
  | '\x7b' :: inside =>
    match readCounts? inside, d with
    | some (least, most, rest), d =>
      let sound := least < countLimit && most.all fun most => least ≤ most && most < countLimit
      let named := d = .full || (inside.head?).any Char.isDigit
      if sound && named then .ok (some (least, most), rest) else malformed
    | none, .full => .ok (none, '\x7b' :: inside)
    | none, .regular => malformed
  | text => .ok (none, text)

/-- An atom with the repetitions behind it. -/
def repetitions (d : Dialect) : (fuel : Nat) → Atom → Parser Regex
  | 0, atom => pure atom.regex
  | fuel + 1, atom => do
    idle d
    match ← Parser.readBy (readRepetition? d) with
    | none => pure atom.regex
    | some (least, most) =>
      if !atom.repeatable then Parser.fail .malformed
      idle d
      let flags := (← get).flags
      let (greedy, text) := match ← Parser.rest with
        | '?' :: text => (flags.reluctant, text)
        | text => (!flags.reluctant, text)
      let regex := Regex.repeated atom.regex least most greedy
      match d, text with
      | .regular, text =>
        Parser.setRest text
        repetitions d fuel ⟨regex, true⟩
      | .full, '+' :: text =>
        Parser.setRest text
        pure (.atomic regex)
      | .full, text =>
        Parser.setRest text
        pure regex

/-- The set of the dot. -/
def dotSet (flags : Flags) : CharSet := if flags.dotAll then .any else .allBut '\n'

/-- The group with a name, which may be its number. -/
def groupNamed (name : String) : Parser Nat := do
  match (← get).names.lookup name with
  | some n => pure n
  | none =>
    match natural? name with
    | some n => pure n
    | none => Parser.fail .malformed

/-- The end of the text, but for line feeds. -/
def nearEnd : Regex :=
  .ahead (.seq (.repeated (.char false (.single '\n')) 0 none true) (.anchor .endOfText)) false

/-- The atom of an escape. -/
def escapeAtom (d : Dialect) (e : Escape) : Parser Atom := do
  let ignoreCase := (← get).flags.ignoreCase
  match e with
  | .char c cased => pure ⟨.char (ignoreCase && cased) (.literal c), true⟩
  | .set s => pure ⟨.char ignoreCase s, true⟩
  | .anchor a => pure ⟨.anchor a, d = .regular⟩
  | .reference n =>
    modify fun p => { p with usesNumbers := true }
    pure ⟨.reference n, true⟩
  | .named name => pure ⟨.reference (← groupNamed name), true⟩
  | .nearEnd => pure ⟨nearEnd, false⟩
  | .nothing => pure ⟨.empty, true⟩

/-- The flag with a letter, set or taken back. -/
def setFlag? (d : Dialect) (flags : Flags) (value : Bool) : Char → Option Flags
  | 'i' => some { flags with ignoreCase := value }
  | 'm' => some { flags with byLine := value }
  | 's' => some { flags with dotAll := value }
  | 'U' => some { flags with reluctant := value }
  | 'x' => some { flags with spaced := value }
  | 'u' => if value || d = .regular then some flags else none
  | 'R' => if d = .regular then some flags else none
  | _ => none

/-- Letters of flags with their effect, up to the character that ends them, which is returned; in
the regular dialect every letter occurs once, and a letter follows the dash. -/
def readFlags (d : Dialect) (seen : List Char) : Flags → List Char →
    Except Fault ((Flags × Char) × List Char)
  | _, [] => malformed
  | flags, c :: rest =>
    if c = ')' ∨ c = ':' then
      let bare := seen.isEmpty || seen == ['-']
      let dangling := seen.head? == some '-'
      if (bare && (c = ')' || dangling)) || (dangling && d = .regular) then malformed
      else .ok ((flags, c), rest)
    else if c = '-' then
      if seen.contains '-' then malformed else readFlags d ('-' :: seen) flags rest
    else if d = .regular && seen.contains c then malformed
    else match setFlag? d flags (!seen.contains '-') c with
      | some flags => readFlags d (c :: seen) flags rest
      | none => malformed

/-- How a group opens. -/
inductive Opening where
  | capture (name : Option String)
  | atomic
  | look (behind negated : Bool)
  /-- A reference to a named group, which is closed already. -/
  | reference (name : String)
  /-- Flags for what follows, with nothing inside. -/
  | flags (flags : Flags)
  /-- Flags for the inside. -/
  | flagged (flags : Flags)

/-- Whether a name may be given to a group in a dialect. -/
def isGroupName (d : Dialect) (name : String) (names : List (String × Nat)) : Bool :=
  d = .full || ((name.toList.head?).all fun c => !c.isDigit) && (names.lookup name).isNone

/-- The name of a group that captures. -/
def readCaptureName (d : Dialect) (names : List (String × Nat)) (text : List Char) :
    Except Fault (Opening × List Char) := do
  let (name, rest) ← readName '>' text
  if isGroupName d name names then pure (.capture (some name), rest) else malformed

/-- Look-around, which the regular dialect does not have. -/
def look (d : Dialect) (behind negated : Bool) (rest : List Char) :
    Except Fault (Opening × List Char) :=
  if d = .regular then .error .irregular else .ok (.look behind negated, rest)

/-- How a group opens, the parenthesis having been read. -/
def readOpeningOf (d : Dialect) (flags : Flags) (names : List (String × Nat)) :
    List Char → Except Fault (Opening × List Char)
  | '?' :: '=' :: rest => look d false false rest
  | '?' :: '!' :: rest => look d false true rest
  | '?' :: '<' :: '=' :: rest => look d true false rest
  | '?' :: '<' :: '!' :: rest => look d true true rest
  | '?' :: '<' :: rest => readCaptureName d names rest
  | '?' :: 'P' :: '<' :: rest => readCaptureName d names rest
  | '?' :: 'P' :: '=' :: rest =>
    if d = .regular then malformed
    else do
      let (name, rest) ← readName ')' rest
      pure (.reference name, rest)
  | '?' :: '>' :: rest => if d = .regular then malformed else .ok (.atomic, rest)
  | '?' :: rest => do
    let ((flags, closing), rest) ← readFlags d [] flags rest
    pure (if closing = ')' then .flags flags else .flagged flags, rest)
  | rest => .ok (.capture none, rest)

/-- How deep groups may nest. -/
def maxGroupDepth : Nat := 63

/-- The closing parenthesis of a group. -/
def closeGroup (d : Dialect) : Parser Unit := do
  idle d
  match ← Parser.rest with
  | ')' :: rest => Parser.setRest rest
  | _ => Parser.fail .malformed

mutual

/-- Alternatives, up to the end of the group. -/
def parseAlternatives (d : Dialect) : (fuel depth : Nat) → Parser Regex
  | 0, _ => Parser.fail .malformed
  | fuel + 1, depth => do
    let first ← parseBranch d fuel depth []
    let others ← parseMore d fuel depth
    if others.isEmpty then
      let p ← get
      if p.usesNumbers && !p.names.isEmpty then Parser.fail .malformed
    pure (.alternatives first others)

/-- The alternatives behind the first one. -/
def parseMore (d : Dialect) : (fuel depth : Nat) → Parser (List Regex)
  | 0, _ => Parser.fail .malformed
  | fuel + 1, depth => do
    idle d
    match ← Parser.rest with
    | '|' :: rest =>
      Parser.setRest rest
      let branch ← parseBranch d fuel depth []
      let others ← parseMore d fuel depth
      pure (branch :: others)
    | _ => pure []

/-- One alternative; `done` are its pieces so far, the last one first. -/
def parseBranch (d : Dialect) : (fuel depth : Nat) → (done : List Regex) → Parser Regex
  | 0, _, _ => Parser.fail .malformed
  | fuel + 1, depth, done => do
    idle d
    match ← Parser.rest with
    | [] => pure (.sequence done.reverse)
    | ')' :: _ | '|' :: _ => pure (.sequence done.reverse)
    | rest =>
      let atom ← parseAtom d fuel depth
      let piece ← repetitions d rest.length atom
      parseBranch d fuel depth (if piece = .empty then done else piece :: done)

/-- One atom. -/
def parseAtom (d : Dialect) : (fuel depth : Nat) → Parser Atom
  | 0, _ => Parser.fail .malformed
  | fuel + 1, depth => do
    let flags := (← get).flags
    match ← Parser.rest with
    | '.' :: rest =>
      Parser.setRest rest
      pure ⟨.char false (dotSet flags), true⟩
    | '^' :: rest =>
      Parser.setRest rest
      pure ⟨.anchor (if flags.byLine then .startOfLine else .startOfText), d = .regular⟩
    | '$' :: rest =>
      Parser.setRest rest
      pure ⟨.anchor (if flags.byLine then .endOfLine else .endOfText), d = .regular⟩
    | '(' :: rest =>
      Parser.setRest rest
      parseGroup d fuel (depth + 1)
    | '[' :: rest =>
      Parser.setRest rest
      let set ← Parser.readBy (readCharSet d)
      pure ⟨.char flags.ignoreCase set, true⟩
    | '\\' :: rest =>
      Parser.setRest rest
      escapeAtom d (← Parser.readBy (readEscape d false))
    | '?' :: _ | '*' :: _ | '+' :: _ => Parser.fail .malformed
    | '\x7b' :: rest =>
      if d = .regular then Parser.fail .malformed
      Parser.setRest rest
      pure ⟨.char flags.ignoreCase (.literal '\x7b'), true⟩
    | c :: rest =>
      Parser.setRest rest
      pure ⟨.char flags.ignoreCase (.literal c), true⟩
    | [] => pure ⟨.empty, false⟩

/-- A group, the opening parenthesis having been read. -/
def parseGroup (d : Dialect) : (fuel depth : Nat) → Parser Atom
  | 0, _ => Parser.fail .malformed
  | fuel + 1, depth => do
    if d = .full && maxGroupDepth < depth then Parser.fail .malformed
    let before ← get
    match ← Parser.readBy (readOpeningOf d before.flags before.names) with
    | .flags flags =>
      Parser.setFlags flags
      pure ⟨.empty, false⟩
    | .reference name => pure ⟨.reference (← groupNamed name), true⟩
    | .flagged flags =>
      -- The flags of a group end with it.
      Parser.setFlags flags
      let inside ← parseAlternatives d fuel depth
      Parser.setFlags before.flags
      closeGroup d
      pure ⟨inside, d = .regular || inside != .empty⟩
    | .atomic =>
      let inside ← parseAlternatives d fuel depth
      closeGroup d
      pure ⟨.atomic inside, true⟩
    | .look behind negated =>
      let inside ← parseAlternatives d fuel depth
      closeGroup d
      if !behind then pure ⟨.ahead inside negated, false⟩
      else match Regex.lookBehind? negated inside with
        | some regex => pure ⟨regex, false⟩
        | none => Parser.fail .malformed
    | .capture name =>
      -- Groups are numbered by their opening parentheses, so the number is taken before the inside.
      let number := before.groups + 1
      modify fun p =>
        { p with
          groups := number
          names := match name with
            | some name => (name, number) :: p.names
            | none => p.names }
      let inside ← parseAlternatives d fuel depth
      closeGroup d
      pure ⟨.group number inside, true⟩

end

/-- The expression of a whole pattern. -/
def parsePattern (d : Dialect) (text : List Char) : Parser Regex := do
  let regex ← parseAlternatives d (5 * text.length + 5) 0
  let p ← get
  if !p.rest.isEmpty then Parser.fail .malformed
  if regex.references.any fun n => n = 0 || p.groups < n then Parser.fail .malformed
  pure regex

/-- The expression of a pattern in a dialect. -/
def Regex.parse (d : Dialect) (pattern : String) : Except Fault Regex :=
  (StateT.run (parsePattern d pattern.toList) ⟨pattern.toList, {}, 0, [], false⟩).map (·.1)

end LinkedSchema.Pattern
