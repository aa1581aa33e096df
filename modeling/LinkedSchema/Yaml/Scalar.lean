import LinkedSchema.Yaml.Basic
import LinkedSchema.Yaml.Tree

/-!
# What YAML scalars mean

A plain scalar is null, a boolean, an integer, a float or a string by its spelling alone;
`Scalar.plain?` tells which. A core tag forces the kind that it names, any other tag of a document's
own makes a tagged value, and scalars in quotes are strings. `Node.value?` gives the value of a
whole tree; it refuses mappings in which a key occurs twice and integers that 64 bits cannot hold.
-/

namespace LinkedSchema.Yaml

namespace Scalar

/-- Whether a text is one of the spellings of null. -/
def isNull (text : String) : Bool := ["~", "null", "Null", "NULL"].contains text

/-- The boolean that a text spells. -/
def bool? (text : String) : Option Bool :=
  if ["true", "True", "TRUE"].contains text then some true
  else if ["false", "False", "FALSE"].contains text then some false
  else none

/-- The value of a digit in a base up to sixteen. -/
def digitIn? (base : Nat) (c : Char) : Option Nat := (Text.hexValue? c).filter (· < base)

/-- The natural number written with at least one digit in a base. -/
def naturalIn? (base : Nat) (digits : List Char) : Option Nat :=
  if digits.isEmpty then none
  else digits.foldlM (fun n c => (digitIn? base c).map (base * n + ·)) 0

/-- A text without one sign in front of it. -/
def unsigned : List Char → List Char
  | '+' :: rest => rest
  | '-' :: rest => rest
  | rest => rest

/-- Several digits of which the first is zero: such a text is no number. -/
def isPadded (text : List Char) : Bool :=
  let digits := unsigned text
  1 < digits.length && digits.head? == some '0' && digits.all Char.isDigit

/-- The magnitude of an integer behind its sign: decimal, or in the base that its first two
characters name. -/
def magnitude? : List Char → Option Nat
  | '0' :: 'x' :: digits => naturalIn? 16 digits
  | '0' :: 'o' :: digits => naturalIn? 8 digits
  | '0' :: 'b' :: digits => naturalIn? 2 digits
  | digits => naturalIn? 10 digits

/-- The integer that a text spells. -/
def integer? (text : List Char) : Option Int :=
  if isPadded text then none
  else match text with
    | '-' :: rest => (magnitude? rest).map fun n => -(n : Int)
    | '+' :: rest => (magnitude? rest).map Int.ofNat
    | rest => (magnitude? rest).map Int.ofNat

/-- The finite number nearest to a decimal; nothing when it is too large. -/
def nearest? (negative : Bool) (digits : Nat) (exponent : Int) : Option Binary64 :=
  let size : Int := exponent + (Nat.toDigits 10 digits).length
  if digits = 0 ∨ size < -400 then some (.zero negative)
  else if 400 < size then none
  else
    let units :=
      if exponent < 0 then Binary64.roundUnits (digits * Binary64.one) (Nat.pow 10 exponent.natAbs)
      else Binary64.roundUnits (digits * Nat.pow 10 exponent.natAbs * Binary64.one) 1
    Binary64.ofRounded? negative units

/-- The finite number that a decimal without plus sign spells. Digits may be missing on one side of
the point. -/
def decimal? (text : List Char) : Option Binary64 := do
  let (negative, body) := match text with
    | '-' :: rest => (true, rest)
    | rest => (false, rest)
  let (whole, rest) := spanDigits body
  let (fraction, rest) := match rest with
    | '.' :: rest => spanDigits rest
    | rest => ([], rest)
  if whole.isEmpty && fraction.isEmpty then none
  else
    let (exponent, rest) ← Literal.readExponent rest
    if !rest.isEmpty then none
    else nearest? negative (ofDigits (whole ++ fraction)) (exponent.getD 0 - fraction.length)

/-- The float that a text spells. -/
def float? (text : String) : Option YamlNumber :=
  let signless := match text.toList with
    | '+' :: rest => rest
    | rest => rest
  let isSign (c : Option Char) : Bool := c == some '+' || c == some '-'
  if text.toList.head? == some '+' && isSign signless.head? then none
  else if [".inf", ".Inf", ".INF"].contains (String.ofList signless) then some (.infinity false)
  else if ["-.inf", "-.Inf", "-.INF"].contains text then some (.infinity true)
  else if [".nan", ".NaN", ".NAN"].contains text then some .nan
  else (decimal? signless).map .float

/-- The largest magnitude of an integer that is read as one; beyond it numbers are floats. -/
def integerCeiling : Nat := Nat.pow 2 128

/-- The value of an integer scalar: an integer of 64 bits. One of up to 128 bits is refused, and a
longer one is no integer. -/
def integerValue? (text : String) : Option (Option Yaml) :=
  (integer? text.toList).bind fun n =>
    if -(Nat.pow 2 63 : Int) ≤ n ∧ n < (Nat.pow 2 64 : Int) then some (some (.num (.int n)))
    else if -(Nat.pow 2 127 : Int) ≤ n ∧ n < (integerCeiling : Int) then some none
    else none

/-- The value of a plain scalar. -/
def plain? (text : String) : Option Yaml :=
  if text.isEmpty || isNull text then some .null
  else match bool? text with
    | some b => some (.bool b)
    | none =>
      match integerValue? text with
      | some value => value
      | none =>
        if isPadded text.toList then some (.str text)
        else match float? text with
          | some x => some (.num x)
          | none => some (.str text)

/-- A core tag by its last name. -/
def coreTag (name : String) : String := "tag:yaml.org,2002:" ++ name

/-- The name that a document's own tag gives to a value. -/
def localTag? (tag : Option String) : Option String :=
  match tag.map String.toList with
  | some ('!' :: c :: rest) => some (String.ofList (c :: rest))
  | _ => none

/-- The value of a scalar that has no tag of the document's own. A tag without a name says nothing
about a scalar, but a scalar must be there. -/
def value? (tag : Option String) (style : ScalarStyle) (text : String) : Option Yaml :=
  match tag with
  | none => if style = .plain then plain? text else some (.str text)
  | some "!" => if style = .plain && text.isEmpty then none
    else if style = .plain then plain? text else some (.str text)
  | some tag =>
    if tag = coreTag "bool" then (bool? text).map .bool
    else if tag = coreTag "int" then (integerValue? text).join
    else if tag = coreTag "float" then (float? text).map .num
    else if tag = coreTag "null" then if isNull text then some .null else none
    else some (.str text)

end Scalar

mutual

/-- Equality of keys: an integer and a float differ, and the entries of mappings have no order. -/
def same : Yaml → Yaml → Bool
  | .null, .null => true
  | .bool a, .bool b => a == b
  | .num (.float x), .num (.float y) => x.beq y
  | .num a, .num b => a == b
  | .str a, .str b => a == b
  | .seq xs, .seq ys => sameItems xs ys
  | .map xs, .map ys => xs.length == ys.length && samePairs xs ys
  | .tagged s a, .tagged t b => s == t && same a b
  | _, _ => false

/-- Sequences with the same items in order. -/
def sameItems : List Yaml → List Yaml → Bool
  | [], [] => true
  | x :: xs, y :: ys => same x y && sameItems xs ys
  | _, _ => false

/-- Every entry of the first mapping occurs in the second. -/
def samePairs : List (Yaml × Yaml) → List (Yaml × Yaml) → Bool
  | [], _ => true
  | (k, v) :: rest, ys => ys.any (fun y => same k y.1 && same v y.2) && samePairs rest ys

end

/-- A collection under a document's own tag, if it has one. The tag must have a name. -/
def underTag? (tag : Option String) (value : Yaml) : Option Yaml :=
  if tag = some "!" then none
  else match Scalar.localTag? tag with
    | some name => some (.tagged name value)
    | none => some value

mutual

/-- The value of a tree, or nothing when a scalar or a repeated key is refused. -/
def Node.value? : Node → Option Yaml
  | .scalar tag style text =>
    match Scalar.localTag? tag with
    | some name =>
      (if style = .plain then Scalar.plain? text else some (.str text)).map (.tagged name)
    | none => Scalar.value? tag style text
  | .seq tag items => (itemValues? items).bind fun vs => underTag? tag (.seq vs)
  | .map tag pairs => (pairValues? pairs []).bind fun ps => underTag? tag (.map ps)

/-- The values of the items of a sequence. -/
def itemValues? : List Node → Option (List Yaml)
  | [] => some []
  | item :: rest => do
    let v ← item.value?
    let vs ← itemValues? rest
    some (v :: vs)

/-- The values of the pairs of a mapping, added to those already read. -/
def pairValues? : List (Node × Node) → List (Yaml × Yaml) → Option (List (Yaml × Yaml))
  | [], before => some before
  | (k, v) :: rest, before => do
    let k ← k.value?
    if before.any fun p => same k p.1 then none
    else
      let v ← v.value?
      pairValues? rest (before ++ [(k, v)])

end

/-- The value of a YAML text; an empty text is null. -/
def read? (text : String) : Option Yaml := do
  match ← Node.ofText? text with
  | none => some .null
  | some node => node.value?

end LinkedSchema.Yaml
