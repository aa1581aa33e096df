import LinkedSchema.Draft7.Pattern
import LinkedSchema.Json.Equality
import LinkedSchema.Json.Printer
import LinkedSchema.Number.Literal

/-!
# Assertions

An `Assertion` is what a keyword demands of a value without applying a further schema to any part of
it. `Assertion.messages` gives the findings about a value in words, none when the demand is met;
values of a kind that a keyword does not speak of meet it. Bounds and sizes are compared exactly.

When two values are the same is a parameter: the comparison is asked by `enum`, with the value in
front of a listed one, by `const` and by `uniqueItems`.
-/

namespace LinkedSchema.Draft7

/-- The types of values, in the alphabetical order of their names. -/
inductive TypeName where
  | array
  | boolean
  | integer
  | null
  | number
  | object
  | string
deriving DecidableEq, Repr

namespace TypeName

/-- All types. -/
def all : List TypeName := [array, boolean, integer, null, number, object, string]

/-- The name of a type in schemas. -/
def name : TypeName → String
  | array => "array"
  | boolean => "boolean"
  | integer => "integer"
  | null => "null"
  | number => "number"
  | object => "object"
  | string => "string"

/-- The type with a name. -/
def ofName? (s : String) : Option TypeName := all.find? (·.name == s)

/-- Whether a value is of a type; a number without a fractional part is an integer. -/
def contains : TypeName → Json → Bool
  | array, .arr _ => true
  | boolean, .bool _ => true
  | integer, .num n => n.isIntegral
  | null, .null => true
  | number, .num _ => true
  | object, .obj _ => true
  | string, .str _ => true
  | _, _ => false

/-- The name of a type in quotes. -/
def quoted (t : TypeName) : String := Json.quote t.name

end TypeName

/-- What is counted in a value. -/
inductive Measure where
  /-- The characters of a string. -/
  | length
  /-- The items of an array. -/
  | items
  /-- The members of an object. -/
  | properties
deriving DecidableEq, Repr

/-- The size of a value that can be counted so. -/
def Measure.of? : Measure → Json → Option Nat
  | length, .str s => some s.length
  | items, .arr vs => some vs.length
  | properties, .obj members => some members.length
  | _, _ => none

/-- On which side a limit stands. -/
inductive Side where
  /-- The least that is allowed. -/
  | low
  /-- The greatest that is allowed. -/
  | high
deriving DecidableEq, Repr

/-- What a keyword demands of a value by itself. -/
inductive Assertion where
  /-- It is of a type. -/
  | type (expected : TypeName)
  /-- It is of one of several types. -/
  | types (expected : List TypeName)
  /-- It is the same as one of several values. -/
  | enum (allowed : List Json)
  /-- It is the same as a value. -/
  | const (value : Json)
  /-- Its size does not cross a limit. -/
  | size (measure : Measure) (side : Side) (limit : Nat)
  /-- It is a number that does not cross a limit, or, if the limit is strict, does not reach it. -/
  | bound (side : Side) (strict : Bool) (limit : Number)
  /-- It is a multiple of a number. -/
  | multipleOf (divisor : Binary64)
  /-- It is a string in which a pattern is found. -/
  | pattern (text : String) (regex : Pattern.Regex)
  /-- It is an array no two items of which are the same. -/
  | uniqueItems
  /-- It is an array with at most so many items, all of which the schema names one by one. -/
  | noItemsFrom (count : Nat)
  /-- It is an object with certain members. -/
  | required (names : List String)
  /-- It is an object without members, each of which no schema accepts. -/
  | noMembers
  /-- It is an object without members, whose names no schema accepts. -/
  | noNames

/-- The finding that no value is accepted. -/
def falseSchema (v : Json) : String := "False schema does not allow " ++ v.render

/-- The finding that a member is missing. -/
def missingMember (name : String) : String := Json.quote name ++ " is a required property"

/-- Things that were unexpected, between brackets. -/
def unexpected (things : List String) : String :=
  let verb := if things.length = 1 then " was unexpected)" else " were unexpected)"
  " are not allowed (" ++ String.intercalate ", " things ++ verb

/-- A difference from which on two numbers are told apart where they are compared as binary64:
`2⁻⁵²`, in units. -/
def epsilon : Nat := Nat.pow 2 1022

/-- Numbers whose difference, rounded to binary64, is below `epsilon`. -/
def closeNumbers (x y : Binary64) : Bool :=
  Binary64.roundUnits (x.units - y.units).natAbs 1 < epsilon

/-- Whether a value is the same as a constant; two numbers need only be close. -/
def equalsConst (same : Json → Json → Bool) : Json → Json → Bool
  | .num x, .num y => closeNumbers x.toBinary64 y.toBinary64
  | v, w => same v w

/-- Whether a number is a multiple of a divisor. A whole divisor divides whole numbers only. Any
other one divides a number when the rounded quotient has a fractional part below `epsilon`, its sign
counting; where the quotient is too large, the division must leave no remainder. -/
def isMultiple (x divisor : Binary64) : Bool :=
  if divisor.isIntegral then
    x.isIntegral && divisor.units ≠ 0 && x.units % divisor.units == 0
  else match x.div? divisor with
    | some q => q.units - q.truncate * Binary64.one < epsilon
    | none => x.units % divisor.units == 0

/-- Whether no item of an array is the same as a later one. -/
def distinct (same : Json → Json → Bool) : List Json → Bool
  | [] => true
  | v :: rest => !rest.any (same v) && distinct same rest

namespace Measure

/-- What is counted, in the number that a count asks for. -/
def unit (measure : Measure) (n : Nat) : String :=
  match measure with
  | length => if n = 1 then " character" else " characters"
  | items => if n = 1 then " item" else " items"
  | properties => if n = 1 then " property" else " properties"

/-- The relation of a value to a limit that it crosses. -/
def relation : Measure → Side → String
  | length, .low => " is shorter than "
  | length, .high => " is longer than "
  | _, .low => " has less than "
  | _, .high => " has more than "

end Measure

/-- Whether a number crosses a limit on a side. -/
def Side.crossed : Side → Int → Int → Bool
  | low, limit, n => n < limit
  | high, limit, n => limit < n

/-- The relation of a number to a bound that it crosses or, if strict, may have reached. -/
def Side.relation : Side → Bool → String
  | low, false => " is less than the minimum of "
  | low, true => " is less than or equal to the minimum of "
  | high, false => " is greater than the maximum of "
  | high, true => " is greater than or equal to the maximum of "

/-- A message, unless a demand is met. -/
def demand (met : Bool) (message : String) : List String := if met then [] else [message]

namespace Assertion

/-- The findings about a string that is searched for a pattern. A search that breaks off is a
finding of its own. -/
def patternMessages (s pattern : String) (regex : Pattern.Regex) : List String :=
  match regex.search? s with
  | none => ["Error executing regex: Max limit for backtracking count exceeded"]
  | some found => demand found (Json.quote s ++ " does not match \"" ++ pattern ++ "\"")

/-- What is wrong with a value, in words. -/
def messages (same : Json → Json → Bool) : Assertion → Json → List String
  | type expected, v =>
    demand (expected.contains v) (v.render ++ " is not of type " ++ expected.quoted)
  | types expected, v =>
    demand (expected.any (·.contains v))
      (v.render ++ " is not of types " ++ String.intercalate ", " (expected.map TypeName.quoted))
  | enum allowed, v =>
    demand (allowed.any (same v))
      (v.render ++ " is not one of " ++ (Json.arr allowed).render)
  | const value, v => demand (equalsConst same v value) (value.render ++ " was expected")
  | size measure side limit, v =>
    match measure.of? v with
    | none => []
    | some n =>
      demand (!side.crossed limit n)
        (v.render ++ measure.relation side ++ toString limit ++ measure.unit limit)
  | bound side strict limit, .num n =>
    demand (!(side.crossed limit.units n.units || (strict && n.units == limit.units)))
      (n.render ++ side.relation strict ++ limit.render)
  | multipleOf divisor, .num n =>
    demand (isMultiple n.toBinary64 divisor)
      (n.render ++ " is not a multiple of " ++ divisor.renderPositional)
  | pattern text regex, .str s => patternMessages s text regex
  | uniqueItems, .arr items =>
    demand (distinct same items) ((Json.arr items).render ++ " has non-unique elements")
  | noItemsFrom count, .arr items =>
    demand (items.length ≤ count)
      ("Additional items" ++ unexpected ((items.drop count).map Json.render))
  | required names, .obj members =>
    (names.filter fun name => (members.lookup name).isNone).map missingMember
  | noMembers, .obj ((_, v) :: _) => [falseSchema v]
  | noNames, .obj (member :: rest) => [falseSchema (.obj (member :: rest))]
  | _, _ => []

end Assertion

end LinkedSchema.Draft7
