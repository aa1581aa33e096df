import LinkedSchema.Json.Printer
import LinkedSchema.Validation.Locator

/-!
# Reports

A violation is a finding about an instance: a locator, a message and the kind of rule that is not
met. A report is the list of violations of one validation, in the order in which they were found;
the empty report means that the instance is valid.
-/

namespace LinkedSchema

/-- The rule that a violation is about. -/
inductive ViolationKind where
  | type
  | enum
  | minLength
  | pattern
  | minimum
  | maximum
  | minItems
  | maxItems
  | required
  | additionalProperty
  | anyOf
  | anyOfBranch
  | engine
deriving DecidableEq, Repr

namespace ViolationKind

/-- All kinds. -/
def all : List ViolationKind :=
  [type, enum, minLength, pattern, minimum, maximum, minItems, maxItems, required,
    additionalProperty, anyOf, anyOfBranch, engine]

/-- The name of a kind in reports. -/
def name : ViolationKind → String
  | type => "type"
  | enum => "enum"
  | minLength => "min_length"
  | pattern => "pattern"
  | minimum => "minimum"
  | maximum => "maximum"
  | minItems => "min_items"
  | maxItems => "max_items"
  | required => "required"
  | additionalProperty => "additional_property"
  | anyOf => "any_of"
  | anyOfBranch => "any_of_branch"
  | engine => "engine"

/-- The kind with a name. -/
def ofName? (s : String) : Option ViolationKind := all.find? (·.name == s)

end ViolationKind

/-- A finding about an instance. -/
structure Violation where
  /-- The place in the instance. -/
  place : Locator
  /-- The kind of rule that is not met. -/
  kind : ViolationKind
  /-- What is wrong, in words. -/
  message : String
deriving DecidableEq, Repr

/-- A violation on one line: its place and its message. -/
def Violation.render (v : Violation) : String := v.place.render ++ ": " ++ v.message

/-- A violation as a JSON object. -/
def Violation.toJson (v : Violation) : Json :=
  .obj [("path", .str v.place.render), ("message", .str v.message), ("kind", .str v.kind.name)]

/-- The violations of one validation, in the order in which they were found. -/
abbrev Report := List Violation

namespace Report

/-- An instance is valid when nothing was found. -/
def isValid (r : Report) : Bool := r.isEmpty

/-- How many violations are of a kind. -/
def countKind (r : Report) (kind : ViolationKind) : Nat :=
  (r.filter (·.kind == kind)).length

/-- The lines of a report. -/
def lines (r : Report) : List String := r.map Violation.render

/-- The report as one text, a line for each violation. -/
def render (r : Report) : String := String.intercalate "\n" r.lines

/-- The report as a JSON array. -/
def toJson (r : Report) : Json := .arr (r.map Violation.toJson)

end Report

end LinkedSchema
