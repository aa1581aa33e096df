import LinkedSchema.Unicode.Fold
import LinkedSchema.Unicode.Property

/-!
# Sets of characters in patterns

A `CharSet` is what a pattern says about one character: a range, a shorthand such as `\d`, a
property, a bracket expression. `CharSet.contains` says which characters it has. Where case is
ignored, a set has all case variants of its characters, and a negation takes them all away; the
operands of the set operations are widened one by one, so that folding comes before negation and
intersection on every level.
-/

namespace LinkedSchema.Pattern

/-- The classes that have a letter of their own. -/
inductive Shorthand where
  | digit
  | space
  | word
deriving DecidableEq, Repr

/-- Whether a character is of a class that has a letter. -/
def Shorthand.contains : Shorthand → Char → Bool
  | digit, c => Unicode.isDigit c
  | space, c => Text.isSpace c
  | word, c => Unicode.isWord c

/-- The classes of the first 128 characters that have a name between colons. -/
inductive AsciiClass where
  | alnum | alpha | ascii | blank | cntrl | digit | graph | lower | print | punct | space | upper
  | word | xdigit
deriving DecidableEq, Repr

namespace AsciiClass

/-- The classes with their names. -/
def names : List (String × AsciiClass) :=
  [("alnum", alnum), ("alpha", alpha), ("ascii", ascii), ("blank", blank), ("cntrl", cntrl),
    ("digit", digit), ("graph", graph), ("lower", lower), ("print", print), ("punct", punct),
    ("space", space), ("upper", upper), ("word", word), ("xdigit", xdigit)]

/-- Whether a character is of a class. -/
def contains (a : AsciiClass) (c : Char) : Bool :=
  let n := c.toNat
  match a with
  | alnum => c.isAlphanum
  | alpha => c.isAlpha
  | ascii => n < 128
  | blank => c == ' ' || c == '\t'
  | cntrl => n < 32 || n == 127
  | digit => c.isDigit
  | graph => 33 ≤ n && n < 127
  | lower => c.isLower
  | print => 32 ≤ n && n < 127
  | punct => 33 ≤ n && n < 127 && !c.isAlphanum
  | space => c == ' ' || (9 ≤ n && n ≤ 13)
  | upper => c.isUpper
  | word => c.isAlphanum || c == '_'
  | xdigit => c.isDigit || ('a' ≤ c && c ≤ 'f') || ('A' ≤ c && c ≤ 'F')

end AsciiClass

/-- An operation on sets of characters. -/
inductive SetOperation where
  | intersection
  | difference
  | symmetricDifference
deriving DecidableEq, Repr

/-- The effect of an operation for one character. -/
def SetOperation.apply : SetOperation → Bool → Bool → Bool
  | intersection, a, b => a && b
  | difference, a, b => a && !b
  | symmetricDifference, a, b => a != b

/-- A set of characters. -/
inductive CharSet where
  | none
  | range (first last : Char)
  | shorthand (s : Shorthand) (negated : Bool)
  | property (p : Unicode.Property) (negated : Bool)
  | ascii (a : AsciiClass) (negated : Bool)
  | union (a b : CharSet)
  | operation (op : SetOperation) (a b : CharSet)
  /-- A set in brackets. -/
  | bracket (set : CharSet) (negated : Bool)
deriving DecidableEq, Repr

namespace CharSet

/-- The set of one character. -/
def single (c : Char) : CharSet := range c c

/-- One character of a pattern as a set, to which its case variants belong where case is ignored. -/
def literal (c : Char) : CharSet := bracket (single c) false

/-- The set of all characters. -/
def any : CharSet := bracket none true

/-- The set of all characters but one. -/
def allBut (c : Char) : CharSet := bracket (single c) true

/-- The characters that stand for a given one. -/
def variants (ignoreCase : Bool) (c : Char) : List Char :=
  if ignoreCase then Unicode.caseVariants c else [c]

/-- Whether a set has a character. -/
def contains (ignoreCase : Bool) : CharSet → Char → Bool
  | none, _ => false
  | range first last, c => first ≤ c && c ≤ last
  | shorthand s negated, c => negated != s.contains c
  | property p negated, c => negated != (variants ignoreCase c).any p.contains
  | ascii a negated, c => negated != (variants ignoreCase c).any a.contains
  | union a b, c => contains ignoreCase a c || contains ignoreCase b c
  | operation op a b, c =>
    op.apply ((variants ignoreCase c).any (contains ignoreCase a))
      ((variants ignoreCase c).any (contains ignoreCase b))
  | bracket set negated, c => negated != (variants ignoreCase c).any (contains ignoreCase set)

end CharSet

end LinkedSchema.Pattern
