import LinkedSchema.Text.Split

/-!
# Sets of code points

A `CodeSet` is a list of runs of code points. A run goes from its first code point to its last one
in steps of one or two; the second kind is common where upper and lower case alternate.
-/

namespace LinkedSchema.Unicode

/-- The code points `first`, `first + stride`, … up to `last`. -/
structure Run where
  first : Nat
  last : Nat
  stride : Nat
deriving DecidableEq, Repr

/-- Whether a run has a code point. -/
def Run.contains (r : Run) (n : Nat) : Bool :=
  r.first ≤ n && n ≤ r.last && (n - r.first) % r.stride == 0

/-- A set of code points as runs. -/
abbrev CodeSet := List Run

namespace CodeSet

/-- Whether a set has a character. -/
def contains (set : CodeSet) (c : Char) : Bool := set.any (·.contains c.toNat)

/-- The value of a hexadecimal digit. -/
def hexDigit (c : Char) : Nat :=
  if c.toNat < 'a'.toNat then c.toNat - '0'.toNat else c.toNat - 'a'.toNat + 10

/-- The number that hexadecimal digits stand for. -/
def number (digits : List Char) : Nat := digits.foldl (fun n c => 16 * n + hexDigit c) 0

/-- The run that a hexadecimal number stands for, or two of them with a dash between, to which a
slash and the stride may be added. -/
def readRun (piece : List Char) : Run :=
  let first := number (piece.takeWhile (· ≠ '-'))
  match piece.dropWhile (· ≠ '-') with
  | [] => ⟨first, first, 1⟩
  | _ :: rest =>
    let last := number (rest.takeWhile (· ≠ '/'))
    match rest.dropWhile (· ≠ '/') with
    | [] => ⟨first, last, 1⟩
    | _ :: stride => ⟨first, last, number stride⟩

/-- The set that a text stands for: runs with blanks or line feeds between them. -/
def read (text : String) : CodeSet :=
  let pieces := Text.splitAt ' ' (text.toList.map fun c => if c = '\n' then ' ' else c)
  (pieces.filter (!·.isEmpty)).map readRun

end CodeSet

end LinkedSchema.Unicode
