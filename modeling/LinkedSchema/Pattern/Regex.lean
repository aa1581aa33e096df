import LinkedSchema.Pattern.CharSet

/-!
# Regular expressions

A `Regex` is what a pattern means. Beside the regular operators there are look-around, atomic groups
and back-references, which need a search that goes back; `Regex.isRegular` tells the patterns that
do without them. Word boundaries are among what needs that search.
-/

namespace LinkedSchema.Pattern

/-- A condition on a place between two characters. -/
inductive Anchor where
  | startOfText
  | endOfText
  | startOfLine
  | endOfLine
  | wordBoundary
  | noWordBoundary
  | startOfWord
  | endOfWord
deriving DecidableEq, Repr

/-- Whether there is a word character on one side of a place. -/
def isWordBeside (neighbour : Option Char) : Bool := neighbour.any Unicode.isWord

/-- Whether a condition holds between two characters, either of which may be missing. -/
def Anchor.holds (a : Anchor) (before after : Option Char) : Bool :=
  match a with
  | startOfText => before.isNone
  | endOfText => after.isNone
  | startOfLine => before.isNone || before == some '\n'
  | endOfLine => after.isNone || after == some '\n'
  | wordBoundary => isWordBeside before != isWordBeside after
  | noWordBoundary => isWordBeside before == isWordBeside after
  | startOfWord => !isWordBeside before && isWordBeside after
  | endOfWord => isWordBeside before && !isWordBeside after

/-- Whether a condition is about words. -/
def Anchor.isAboutWords : Anchor → Bool
  | startOfText | endOfText | startOfLine | endOfLine => false
  | wordBoundary | noWordBoundary | startOfWord | endOfWord => true

/-- A regular expression. -/
inductive Regex where
  | empty
  /-- One character of a set. -/
  | char (ignoreCase : Bool) (set : CharSet)
  | anchor (a : Anchor)
  | seq (a b : Regex)
  | alt (a b : Regex)
  /-- A group whose text can be referred to. -/
  | group (number : Nat) (r : Regex)
  /-- At least `least` times and at most `most` times, many times first if `greedy`. -/
  | repeated (r : Regex) (least : Nat) (most : Option Nat) (greedy : Bool)
  /-- The first way to match, and no other. -/
  | atomic (r : Regex)
  /-- What follows matches, or does not. -/
  | ahead (r : Regex) (negated : Bool)
  /-- The characters in front, as many as `width`, match, or do not. -/
  | behind (width : Nat) (r : Regex) (negated : Bool)
  /-- The text of a group once more. -/
  | reference (number : Nat)
deriving DecidableEq, Repr

namespace Regex

/-- How many characters every match has, if that is fixed. -/
def width? : Regex → Option Nat
  | empty | anchor _ | ahead .. | behind .. => some 0
  | char .. => some 1
  | seq a b => do pure ((← a.width?) + (← b.width?))
  | alt a b => do
    let n ← a.width?
    if (← b.width?) = n then some n else none
  | group _ r | atomic r => r.width?
  | repeated r least most _ => do
    let n ← r.width?
    if most = some least then some (n * least) else none
  | reference _ => none

/-- The groups that are referred to. -/
def references : Regex → List Nat
  | empty | char .. | anchor _ => []
  | seq a b | alt a b => a.references ++ b.references
  | group _ r | repeated r .. | atomic r | ahead r _ | behind _ r _ => r.references
  | reference n => [n]

/-- Whether an expression can be searched without going back, given the groups that are referred
to anywhere. -/
def isRegularAmong (referred : List Nat) : Regex → Bool
  | empty | char .. => true
  | anchor a => !a.isAboutWords
  | seq a b | alt a b => a.isRegularAmong referred && b.isRegularAmong referred
  | group n r => !referred.contains n && r.isRegularAmong referred
  | repeated r .. => r.isRegularAmong referred
  | atomic _ | ahead .. | behind .. | reference _ => false

/-- Whether an expression can be searched without going back. -/
def isRegular (r : Regex) : Bool := r.isRegularAmong r.references

/-- Expressions one after the other. -/
def sequence : List Regex → Regex
  | [] => empty
  | [r] => r
  | r :: rest => seq r (sequence rest)

/-- Expressions as alternatives, of which there is at least one. -/
def alternatives (first : Regex) : List Regex → Regex
  | [] => first
  | r :: rest => alt first (alternatives r rest)

/-- Looks behind for an expression: every alternative must be of fixed width. -/
def lookBehind? (negated : Bool) : Regex → Option Regex
  | alt a b => do
    let a ← lookBehind? negated a
    let b ← lookBehind? negated b
    pure (if negated then seq a b else alt a b)
  | r => do pure (behind (← r.width?) r negated)

end Regex

end LinkedSchema.Pattern
