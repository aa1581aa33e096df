import LinkedSchema.Pattern.Escape

/-!
# Bracket expressions

A bracket expression holds characters, ranges, escapes, classes with names and nested bracket
expressions, and may join sets by `&&`, `--` and `~~`, from left to right. Dashes at its start and
its end stand for themselves, and so does a closing bracket in the first place.
-/

namespace LinkedSchema.Pattern

/-- A class with a name, the opening bracket and colon having been read; nothing where this is no
such class. -/
def readAsciiClass? (text : List Char) : Option (CharSet × List Char) := do
  let (negated, text) := match text with
    | '^' :: rest => (true, rest)
    | text => (false, text)
  let name := String.ofList (text.takeWhile (· ≠ ':'))
  match text.dropWhile (· ≠ ':') with
  | ':' :: ']' :: rest =>
    let a ← AsciiClass.names.lookup name
    pure (.ascii a negated, rest)
  | _ => none

/-- One character or escape. -/
def readBracketItem (d : Dialect) : List Char → Except Fault (Escape × List Char)
  | [] => malformed
  | '\\' :: rest => readEscape d true rest
  | c :: rest => .ok (.char c true, rest)

/-- The set of an item. -/
def itemSet : Escape → Except Fault CharSet
  | .char c _ => .ok (.single c)
  | .set s => .ok s
  | _ => malformed

/-- An item, or a range between two of them. -/
def readRange (d : Dialect) (text : List Char) : Except Fault (CharSet × List Char) := do
  let (first, rest) ← readBracketItem d text
  match rest with
  | '-' :: ']' :: _ | '-' :: '-' :: _ => pure (← itemSet first, rest)
  | '-' :: rest =>
    match first, ← readBracketItem d rest with
    | .char a _, (.char b _, rest) => if a ≤ b then pure (.range a b, rest) else malformed
    | _, _ => malformed
  | rest => pure (← itemSet first, rest)

/-- A set that is being read: what stands in front of the last operation, and what has been read
since. -/
structure Pending where
  left : Option (SetOperation × CharSet)
  current : CharSet

namespace Pending

/-- One more item. -/
def add (p : Pending) (s : CharSet) : Pending := { p with current := .union p.current s }

/-- The set so far. -/
def close (p : Pending) : CharSet :=
  match p.left with
  | none => p.current
  | some (op, left) => .operation op left p.current

/-- An operation behind the set so far. -/
def operate (p : Pending) (op : SetOperation) : Pending := ⟨some (op, p.close), .none⟩

end Pending

/-- What a bracket expression starts with: a negation, dashes or a bracket that stand for
themselves. -/
def readOpening (text : List Char) : Bool × Pending × List Char :=
  let (negated, text) := match text with
    | '^' :: rest => (true, rest)
    | text => (false, text)
  let dash : Pending := ⟨none, .single '-'⟩
  match text with
  | '-' :: _ => (negated, dash, text.dropWhile (· = '-'))
  | ']' :: rest => (negated, ⟨none, .single ']'⟩, rest)
  | text => (negated, ⟨none, .none⟩, text)

mutual

/-- A bracket expression, the opening bracket having been read. -/
def readBracket (d : Dialect) : (fuel : Nat) → List Char → Except Fault (CharSet × List Char)
  | 0, _ => malformed
  | fuel + 1, text => do
    let (negated, pending, rest) := readOpening text
    let (set, rest) ← readItems d fuel pending rest
    pure (.bracket set negated, rest)

/-- The items of a bracket expression up to its closing bracket. -/
def readItems (d : Dialect) : (fuel : Nat) → Pending → List Char →
    Except Fault (CharSet × List Char)
  | 0, _, _ => malformed
  | fuel + 1, pending, text =>
    match text with
    | [] => malformed
    | ']' :: rest => .ok (pending.close, rest)
    | '&' :: '&' :: rest => readItems d fuel (pending.operate .intersection) rest
    | '-' :: '-' :: rest => readItems d fuel (pending.operate .difference) rest
    | '~' :: '~' :: rest => readItems d fuel (pending.operate .symmetricDifference) rest
    | '[' :: rest =>
      match rest with
      | ':' :: inside =>
        match readAsciiClass? inside with
        | some (set, rest) => readItems d fuel (pending.add set) rest
        | none => do
          let (set, rest) ← readBracket d fuel rest
          readItems d fuel (pending.add set) rest
      | rest => do
        let (set, rest) ← readBracket d fuel rest
        readItems d fuel (pending.add set) rest
    | text => do
      let (set, rest) ← readRange d text
      readItems d fuel (pending.add set) rest

end

/-- What follows the bracket that closes as many brackets as have been opened; an escaped bracket
does not count. -/
def afterBalanced : (depth : Nat) → List Char → Option (List Char)
  | _, [] => none
  | _, ['\\'] => none
  | depth, '\\' :: _ :: rest => afterBalanced depth rest
  | depth, '[' :: rest => afterBalanced (depth + 1) rest
  | 0, ']' :: rest => some rest
  | depth + 1, ']' :: rest => afterBalanced depth rest
  | depth, _ :: rest => afterBalanced depth rest

/-- What follows a bracket expression when its brackets are counted. -/
def afterBrackets (text : List Char) : Option (List Char) :=
  let text := match text with
    | '^' :: rest => rest
    | text => text
  match text with
  | ']' :: rest => afterBalanced 0 rest
  | text => afterBalanced 0 text

/-- A bracket expression as an atom of a pattern, the opening bracket having been read. In the full
dialect it must end where its brackets are balanced. -/
def readCharSet (d : Dialect) (text : List Char) : Except Fault (CharSet × List Char) := do
  let (set, rest) ← readBracket d (2 * text.length + 2) text
  match d with
  | .regular => pure (set, rest)
  | .full =>
    if (afterBrackets text).map List.length = some rest.length then pure (set, rest)
    else malformed

end LinkedSchema.Pattern
