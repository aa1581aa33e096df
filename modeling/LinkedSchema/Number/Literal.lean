import LinkedSchema.Number.Shortest

/-!
# Numbers and their literals

A number of a document is an integer of 64 bits, signed or unsigned, or a finite binary64 number.
`Literal` holds the parts of a written number, and `Literal.number?` says which number it denotes.

An integer literal that fits denotes that integer. Everything else denotes a binary64 number that
is found in steps, each of them rounded: the leading digits are read as long as they stay below
`2⁶⁴`, the result becomes binary64, and it is multiplied or divided by the power of ten that
remains. So the result may differ from the nearest binary64 number in its last place.
-/

namespace LinkedSchema

/-- The first natural number that 64 bits cannot hold. -/
def wordLimit : Nat := Nat.pow 2 64

/-- A number of a document. -/
inductive Number where
  /-- An integer of 64 bits, signed or unsigned. -/
  | int (n : Int)
  /-- A finite binary64 number. -/
  | float (x : Binary64)
deriving DecidableEq, Repr, Inhabited

namespace Number

/-- The number as binary64, an integer being rounded. -/
def toBinary64 : Number → Binary64
  | int n => .ofInt n
  | float x => x

/-- The exact value in units of `2⁻¹⁰⁷⁴`. -/
def units : Number → Int
  | int n => n * Binary64.one
  | float x => x.units

/-- True of integers and of floats without a fractional part. -/
def isIntegral : Number → Bool
  | int _ => true
  | float x => x.isIntegral

/-- Equal kind and equal value: an integer and a float are never the same number here. -/
def same : Number → Number → Bool
  | int m, int n => m == n
  | float x, float y => x.beq y
  | _, _ => false

/-- The layout of floats in documents and messages. -/
def floatStyle : FloatStyle := ⟨true⟩

/-- The text of a number in documents and messages. -/
def render : Number → String
  | int n => toString n
  | float x => floatStyle.render x

end Number

/-- The value of a decimal digit. -/
def digitValue (c : Char) : Nat := c.toNat - '0'.toNat

/-- The number written by decimal digits. -/
def ofDigits (digits : List Char) : Nat :=
  digits.foldl (fun n c => 10 * n + digitValue c) 0

/-- The digits at the start of a text and what follows them. -/
def spanDigits (text : List Char) : List Char × List Char :=
  (text.takeWhile Char.isDigit, text.dropWhile Char.isDigit)

/-- A natural number of 64 bits: digits, with a plus sign in front of them or none. -/
def natural? (text : String) : Option Nat :=
  let digits := match text.toList with
    | '+' :: rest => rest
    | all => all
  if digits.isEmpty || !digits.all Char.isDigit then none
  else
    let n := ofDigits digits
    if n < wordLimit then some n else none

/-- The power of ten as the nearest binary64 number. -/
def powerOfTen (n : Nat) : Binary64 :=
  .ofMagnitude false (Binary64.roundUnits (Nat.pow 10 n * Binary64.one) 1)

/-- The largest power of ten that is a finite binary64 number. -/
def largestPowerOfTen : Nat := 308

/-- A non-negative number divided by a power of ten, in as many rounded steps as it takes. -/
def divideByTens (x : Binary64) (n : Nat) : Option Binary64 :=
  if n ≤ largestPowerOfTen then x.div? (powerOfTen n)
  else if x.units = 0 then some x
  else (x.div? (powerOfTen largestPowerOfTen)).bind fun y =>
    divideByTens y (n - largestPowerOfTen)
termination_by n
decreasing_by simp only [largestPowerOfTen] at *; omega

/-- A significand times a power of ten, rounded step by step; nothing when it overflows. -/
def scaleByTens (significand : Nat) (exponent : Int) : Option Binary64 :=
  let x := Binary64.ofNat significand
  if exponent < 0 then divideByTens x exponent.natAbs
  else if exponent.natAbs ≤ largestPowerOfTen then x.mul? (powerOfTen exponent.natAbs)
  else if x.units = 0 then some x
  else none

/-- The parts of a written number. -/
structure Literal where
  /-- Whether a minus sign leads. -/
  negative : Bool
  /-- The digits before the point. -/
  whole : List Char
  /-- The digits after the point, if there is one. -/
  fraction : Option (List Char)
  /-- The exponent, if there is one. -/
  exponent : Option Int
deriving Repr

namespace Literal

/-- Reads digits into a significand while it stays below `2⁶⁴`; the digits left over are
returned. -/
def absorb (significand : Nat) : List Char → Nat × List Char
  | [] => (significand, [])
  | c :: rest =>
    let next := 10 * significand + digitValue c
    if next < wordLimit then absorb next rest else (significand, c :: rest)

/-- The number that a literal denotes, or nothing when it is beyond the largest finite one. -/
def number? (l : Literal) : Option Number :=
  let (significand, dropped) := absorb 0 l.whole
  let float (significand : Nat) (exponent : Int) : Option Number :=
    (scaleByTens significand exponent).map fun x =>
      .float (if l.negative then x.neg else x)
  match l.fraction, l.exponent with
  | none, none =>
    if !dropped.isEmpty then float significand dropped.length
    else if !l.negative then some (.int significand)
    else if significand = 0 ∨ Nat.pow 2 63 < significand then float significand 0
    else some (.int (-(significand : Int)))
  | fraction, exponent =>
    let fraction := fraction.getD []
    let (significand, ignored) := absorb significand fraction
    let shift : Int := dropped.length - (fraction.length - ignored.length : Nat)
    float significand (shift + exponent.getD 0)

/-- The exponent at the start of a text: `e`, a sign or none, and digits. Nothing when the digits
are missing; a text without exponent is left as it is. -/
def readExponent (text : List Char) : Option (Option Int × List Char) :=
  match text with
  | c :: rest =>
    if c == 'e' || c == 'E' then
      let (negative, rest) := match rest with
        | '+' :: rest => (false, rest)
        | '-' :: rest => (true, rest)
        | rest => (false, rest)
      let (digits, rest) := spanDigits rest
      if digits.isEmpty then none
      else
        let n : Int := ofDigits digits
        some (some (if negative then -n else n), rest)
    else some (none, text)
  | [] => some (none, text)

/-- The fraction at the start of a text: a point and digits. Nothing when the digits are missing;
a text without a point is left as it is. -/
def readFraction (text : List Char) : Option (Option (List Char) × List Char) :=
  match text with
  | '.' :: rest =>
    let (digits, rest) := spanDigits rest
    if digits.isEmpty then none else some (some digits, rest)
  | text => some (none, text)

/-- The literal at the start of a text and what follows it. A zero is followed by no further
digit. -/
def read? (text : List Char) : Option (Literal × List Char) := do
  let (negative, text) := match text with
    | '-' :: rest => (true, rest)
    | text => (false, text)
  let (whole, rest) := spanDigits text
  if whole.isEmpty || (whole.head? == some '0' && whole.length != 1) then none
  else
    let (fraction, rest) ← readFraction rest
    let (exponent, rest) ← readExponent rest
    some (⟨negative, whole, fraction, exponent⟩, rest)

end Literal

end LinkedSchema
