/-!
# Finite binary64 numbers

Every finite binary64 number is a whole multiple of `2⁻¹⁰⁷⁴`, so a number is kept here as that
multiple, its `units`, and all arithmetic is exact integer arithmetic followed by one rounding.
Order and equality are those of the units; only printing sees the sign of zero.

`roundUnits` rounds a quotient to the nearest representable multiple, ties to the even
significand; every other operation is an exact quotient handed to it.
-/

namespace LinkedSchema

/-- A quotient rounded to the nearest integer, a half going to the even neighbour. -/
def roundHalfEven (num den : Nat) : Nat :=
  let whole := num / den
  let twice := 2 * (num % den)
  if twice < den then whole
  else if den < twice then whole + 1
  else whole + whole % 2

/-- A finite binary64 number: `units` steps of `2⁻¹⁰⁷⁴`, and a mark that tells negative zero from
zero. -/
structure Binary64 where
  /-- The value as a multiple of `2⁻¹⁰⁷⁴`. -/
  units : Int
  /-- Set for negative zero alone. -/
  negativeZero : Bool := false
deriving DecidableEq, Repr, Inhabited

namespace Binary64

/-- How many units make one. -/
def one : Nat := Nat.pow 2 1074

/-- The first multiple of the unit that is too large to be finite. -/
def ceiling : Nat := Nat.pow 2 2098

/-- The low bits that a significand of 53 bits cannot keep. -/
def excessBits (units : Nat) : Nat := units.log2 - 52

/-- A quotient of units rounded to a representable number of units. -/
def roundUnits (num den : Nat) : Nat :=
  let step := Nat.pow 2 (excessBits (num / den))
  roundHalfEven num (den * step) * step

/-- The number with the given sign and magnitude in units. -/
def ofMagnitude (negative : Bool) (units : Nat) : Binary64 :=
  if negative then ⟨-(units : Int), units = 0⟩ else ⟨units, false⟩

/-- Zero of either sign. -/
def zero (negative : Bool) : Binary64 := ofMagnitude negative 0

/-- An integer rounded to binary64. Only integers below `2¹⁰²⁴` in magnitude are meant. -/
def ofInt (n : Int) : Binary64 :=
  ofMagnitude (n < 0) (roundUnits (n.natAbs * one) 1)

/-- A natural number rounded to binary64. -/
def ofNat (n : Nat) : Binary64 := ofInt n

/-- The sign of a number, negative zero being negative. -/
def isNegative (x : Binary64) : Bool := x.units < 0 || x.negativeZero

/-- The opposite number, zero changing its sign too. -/
def neg (x : Binary64) : Binary64 := ofMagnitude (!x.isNegative) x.units.natAbs

/-- The rounded magnitude with a sign, or nothing when it is beyond the largest finite number. -/
def ofRounded? (negative : Bool) (units : Nat) : Option Binary64 :=
  if units < ceiling then some (ofMagnitude negative units) else none

/-- The rounded product of two numbers, or nothing on overflow. -/
def mul? (x y : Binary64) : Option Binary64 :=
  ofRounded? (x.isNegative != y.isNegative) (roundUnits (x.units.natAbs * y.units.natAbs) one)

/-- The rounded quotient of two numbers, or nothing on overflow or when the divisor is zero. -/
def div? (x y : Binary64) : Option Binary64 :=
  if y.units = 0 then none
  else ofRounded? (x.isNegative != y.isNegative) (roundUnits (x.units.natAbs * one) y.units.natAbs)

/-- Numeric equality: zeros of both signs are equal. -/
def beq (x y : Binary64) : Bool := x.units == y.units

/-- Numeric order. -/
def lt (x y : Binary64) : Bool := x.units < y.units

/-- True of numbers without a fractional part. -/
def isIntegral (x : Binary64) : Bool := x.units % one == 0

/-- The integer part, towards zero. -/
def truncate (x : Binary64) : Int := Int.tdiv x.units one

end Binary64

end LinkedSchema
