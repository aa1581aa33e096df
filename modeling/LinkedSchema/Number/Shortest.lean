import LinkedSchema.Number.Binary64

/-!
# The shortest decimal that reads back

`Binary64.shortest` gives the fewest significant digits that identify a number among all binary64
numbers, and of those digit strings the one nearest to it. For each digit count in turn the two
neighbours of the number on the decimal grid are compared with the interval of reals that round to
it, in exact arithmetic; seventeen digits always suffice.

`FloatStyle.render` then places the point. The layouts of this library agree on where positional
notation ends and differ in the sign of a positive exponent. `Binary64.renderPositional` never uses
an exponent.
-/

namespace LinkedSchema

/-- A positive decimal number `digits · 10^exponent`. -/
structure Decimal where
  /-- The significant digits, read as a number. -/
  digits : Nat
  /-- The power of ten. -/
  exponent : Int
deriving DecidableEq, Repr, Inhabited

namespace Binary64

/-- A power of ten that makes every grid in question a whole number. -/
def decimalScale : Nat := 400

/-- The interval of reals that round to a number of units, in quarters of a unit scaled by
`10^decimalScale`, and whether its ends belong to it. -/
structure Interval where
  low : Nat
  value : Nat
  high : Nat
  closed : Bool

/-- The reals that round to `units`: half a step to either side, a quarter below a power of two,
the ends included when the significand is even. -/
def interval (units : Nat) : Interval :=
  let excess := excessBits units
  let step := Nat.pow 2 excess
  let scale := Nat.pow 10 decimalScale
  let significand := units / step
  let below := if significand = Nat.pow 2 52 ∧ excess ≠ 0 then step else 2 * step
  { low := (4 * units - below) * scale
    value := 4 * units * scale
    high := (4 * units + 2 * step) * scale
    closed := significand % 2 = 0 }

/-- Membership in the interval. -/
def Interval.contains (i : Interval) (x : Nat) : Bool :=
  if i.closed then i.low ≤ x && x ≤ i.high else i.low < x && x < i.high

/-- Of the two multiples of `grid` around the value, the one that rounds to it; of two the nearer,
and the even one when both are equally near. -/
def Interval.onGrid? (i : Interval) (grid : Nat) : Option Nat :=
  let lower := i.value / grid
  let upper := lower + 1
  let gapBelow := i.value - lower * grid
  let gapAbove := upper * grid - i.value
  match i.contains (lower * grid), i.contains (upper * grid) with
  | false, false => none
  | true, false => some lower
  | false, true => some upper
  | true, true =>
    if gapBelow < gapAbove then some lower
    else if gapAbove < gapBelow then some upper
    else if lower % 2 = 0 then some lower else some upper

/-- The place of the leading decimal digit above `10^(-decimalScale)`. -/
def leadingPlace (units : Nat) : Nat :=
  (Nat.toDigits 10 (units * Nat.pow 10 decimalScale / one)).length - 1

/-- Zeros at the end of the digits moved into the exponent, at most `n` of them. -/
def dropZeros : Nat → Decimal → Decimal
  | 0, d => d
  | n + 1, d =>
    if d.digits % 10 = 0 then dropZeros n ⟨d.digits / 10, d.exponent + 1⟩ else d

/-- The shortest decimal for a positive number of units. -/
def shortest (units : Nat) : Decimal :=
  let i := interval units
  let lead := leadingPlace units
  let attempt (count : Nat) : Option Decimal :=
    let place := lead - count
    (i.onGrid? (4 * one * Nat.pow 10 place)).map fun digits => ⟨digits, (place : Int) - decimalScale⟩
  dropZeros 17 (((List.range 17).findSome? attempt).getD ⟨0, 0⟩)

end Binary64

/-- How a float is written. -/
structure FloatStyle where
  /-- Whether a positive exponent carries a plus sign. -/
  plusSign : Bool

namespace FloatStyle

/-- The digits of a positive decimal, positional when the leading digit stands between `10⁻⁵` and
`10¹⁵`, else in scientific notation; positional text always has a point. -/
def renderDecimal (style : FloatStyle) (d : Decimal) : String :=
  let digits := Nat.toDigits 10 d.digits
  let lead : Int := d.exponent + digits.length - 1
  let text : List Char :=
    if -5 ≤ lead ∧ lead < 0 then
      '0' :: '.' :: (List.replicate (-lead - 1).toNat '0' ++ digits)
    else if 0 ≤ lead ∧ lead < 16 then
      let whole := (lead + 1).toNat
      let padded := digits ++ List.replicate (whole - digits.length) '0'
      let fraction := padded.drop whole
      padded.take whole ++ '.' :: (if fraction.isEmpty then ['0'] else fraction)
    else
      let tail := digits.drop 1
      let sign := if lead < 0 then ['-'] else if style.plusSign then ['+'] else []
      digits.take 1 ++ (if tail.isEmpty then [] else '.' :: tail) ++
        'e' :: (sign ++ Nat.toDigits 10 lead.natAbs)
  String.ofList text

/-- The text of a number: zero is `0.0`, and a negative number, negative zero included, starts with
a minus sign. -/
def render (style : FloatStyle) (x : Binary64) : String :=
  let magnitude :=
    if x.units = 0 then "0.0" else style.renderDecimal (Binary64.shortest x.units.natAbs)
  if x.isNegative then "-" ++ magnitude else magnitude

end FloatStyle

/-- The digits of a positive decimal without an exponent, with a point only in front of a
fraction. -/
def Decimal.renderPositional (d : Decimal) : String :=
  let digits := Nat.toDigits 10 d.digits
  let places := (-d.exponent).toNat
  let padded := List.replicate (places + 1 - digits.length) '0' ++ digits
  let whole := padded.take (padded.length - places)
  let fraction := padded.drop (padded.length - places)
  String.ofList (whole ++ List.replicate d.exponent.toNat '0' ++
    (if fraction.isEmpty then [] else '.' :: fraction))

/-- The text of a number without an exponent; zero is `0`. -/
def Binary64.renderPositional (x : Binary64) : String :=
  let magnitude := if x.units = 0 then "0" else (shortest x.units.natAbs).renderPositional
  if x.isNegative then "-" ++ magnitude else magnitude

end LinkedSchema
