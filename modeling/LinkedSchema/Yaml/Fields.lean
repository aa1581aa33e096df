import LinkedSchema.Yaml.Scalar

/-!
# Records written in YAML

Readers for trees that are expected to have a certain shape. A record is a mapping with text keys;
where a record or a list is expected an empty plain scalar counts as an empty one. A text may be any
scalar as it is written, while booleans and numbers must be plain.
-/

namespace LinkedSchema.Yaml.Node

/-- The text of a scalar as it is written. -/
def text? : Node → Option String
  | .scalar _ _ text => some text
  | _ => none

/-- A scalar that may be read as something else than a text: a plain one, or a literal one under the
core tag of what it is. -/
def typed? (core : String) : Node → Option String
  | .scalar tag style text =>
    if style = .plain ∨ (style = .literal ∧ tag = some (Scalar.coreTag core)) then some text
    else none
  | _ => none

/-- The value of a switch. -/
def bool? (n : Node) : Option Bool := (n.typed? "bool").bind Scalar.bool?

/-- The value of a natural number of 64 bits. -/
def natural? (n : Node) : Option Nat := do
  let text ← n.typed? "int"
  if text.toList.head? == some '-' then none
  else
    let value ← Scalar.integer? text.toList
    if value.toNat < wordLimit then some value.toNat else none

/-- Whether nothing is written where a value is expected. -/
def isBlank : Node → Bool
  | .scalar _ .plain text => text.isEmpty
  | _ => false

/-- Whether a plain scalar says that there is no value. -/
def isAbsent : Node → Bool
  | .scalar none .plain text => text.isEmpty || Scalar.isNull text
  | .scalar (some tag) .plain text => tag = Scalar.coreTag "null" && Scalar.isNull text
  | _ => false

/-- The items of a list. -/
def items? : Node → Option (List Node)
  | .seq _ items => some items
  | n => if n.isBlank then some [] else none

/-- The fields of a record, each of which must have one of the given names and occur once. -/
def fields? (names : List String) (n : Node) : Option (List (String × Node)) :=
  match n with
  | .map _ pairs => go pairs []
  | n => if n.isBlank then some [] else none
where
  /-- Adds fields to those already read. -/
  go : List (Node × Node) → List (String × Node) → Option (List (String × Node))
    | [], before => some before
    | (k, v) :: rest, before => do
      let name ← k.text?
      if !names.contains name || (before.lookup name).isSome then none
      else go rest (before ++ [(name, v)])

/-- An optional field: its reader must succeed where the field is present. -/
def field? {α : Type} (fields : List (String × Node)) (name : String)
    (read : Node → Option α) : Option (Option α) :=
  match fields.lookup name with
  | none => some none
  | some v => (read v).map some

/-- A name of a fixed set, written as a text or as the tag of an empty value. -/
def choice? {α : Type} (ofName? : String → Option α) : Node → Option α
  | .scalar tag style text =>
    match Scalar.localTag? tag with
    | some name =>
      if style = .plain && (text.isEmpty || Scalar.isNull text) then ofName? name else none
    | none => ofName? text
  | _ => none

end LinkedSchema.Yaml.Node
