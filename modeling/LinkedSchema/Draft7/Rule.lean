import LinkedSchema.Draft7.Assertion

/-!
# Rules

A schema is read one node at a time. `Node.read?` tells whether a node accepts everything, accepts
nothing, stands for another node, or lists rules; nothing is returned where the node is not well
formed. The subschemas inside a rule are left unread, so that a schema is well formed when reading
succeeds at every node that is reached, which `Rule.subschemas` enumerates.

A reference hides its siblings. Where `additionalProperties` is false or an object it takes over
the members that `properties` and `patternProperties` speak of, and those have no rules of their
own.
-/

namespace LinkedSchema.Draft7

/-- The results of a function on the elements of a list, one after the other, if all of them
exist. -/
def gather? {α β : Type} (f : α → Option (List β)) : List α → Option (List β)
  | [] => some []
  | x :: rest => do
    let found ← f x
    let others ← gather? f rest
    pure (found ++ others)

/-- A schema for the members whose names match a pattern. -/
structure PatternSchema where
  regex : Pattern.Regex
  schema : Json

/-- Whether a name matches; one on which the search breaks off does not. -/
def PatternSchema.covers (p : PatternSchema) (name : String) : Bool :=
  p.regex.search? name == some true

/-- What the presence of a member asks of its object. -/
inductive Dependency where
  /-- Further members. -/
  | members (names : List String)
  /-- That the object meets a schema. -/
  | schema (schema : Json)

/-- What a keyword asks of a value. -/
inductive Rule where
  /-- A demand on the value by itself. -/
  | assertion (a : Assertion)
  /-- A schema for every item. -/
  | items (schema : Json)
  /-- Schemas for the first items, one for each. -/
  | tuple (schemas : List Json)
  /-- A schema for every item from an index on. -/
  | itemsFrom (start : Nat) (schema : Json)
  /-- A schema that some item meets. -/
  | contains (schema : Json)
  /-- Schemas for members by name. -/
  | members (declared : Members)
  /-- Schemas for members by pattern. -/
  | matching (patterns : List PatternSchema)
  /-- Schemas for members by name and by pattern, and no other members. -/
  | closed (declared : Members) (patterns : List PatternSchema)
  /-- Schemas for members by name and by pattern, and one for all other members. -/
  | others (declared : Members) (patterns : List PatternSchema) (schema : Json)
  /-- A schema for the names of members. -/
  | names (schema : Json)
  /-- What the presence of members asks. -/
  | dependencies (entries : List (String × Dependency))
  /-- Schemas that the value meets. -/
  | allOf (schemas : List Json)
  /-- Schemas of which the value meets at least one. -/
  | anyOf (schemas : List Json)
  /-- Schemas of which the value meets exactly one. -/
  | oneOf (schemas : List Json)
  /-- A schema that the value does not meet. -/
  | not (schema : Json)
  /-- A schema that selects which of two others the value has to meet. -/
  | choice (condition : Json) (met unmet : Option Json)

/-- A node of a schema. -/
inductive Node where
  /-- The node accepts every value. -/
  | always
  /-- The node accepts no value. -/
  | never
  /-- The node stands for the one that a reference leads to. -/
  | reference (text : String)
  /-- The node accepts the values that meet all rules. -/
  | rules (rules : List Rule)

namespace Rule

/-- The strings of a list that holds nothing else. -/
def strings? (v : Json) : Option (List String) := v.items?.bind fun items => items.mapM Json.text?

/-- The largest size that can be told. -/
def maxSize : Nat := wordLimit - 1

/-- A limit on a size: a whole number, taken as zero if it is negative. -/
def sizeLimit? : Json → Option Nat
  | .num (.int n) => some n.toNat
  | .num (.float x) => if x.isIntegral then some (min x.truncate.toNat maxSize) else none
  | _ => none

/-- The rule of `type`. A list of one name says the same as the name. -/
def type? : Json → Option Assertion
  | .str name => (TypeName.ofName? name).map .type
  | .arr [v] => (v.text?.bind TypeName.ofName?).map .type
  | v => do
    let names ← strings? v
    let types ← names.mapM TypeName.ofName?
    pure (.types (TypeName.all.filter types.contains))

/-- The rule of a keyword that limits a size. -/
def size? (measure : Measure) (side : Side) (v : Json) : Option (List Rule) :=
  (sizeLimit? v).map fun limit => [assertion (.size measure side limit)]

/-- The rule of a keyword that bounds a number. -/
def bound? (side : Side) (strict : Bool) (v : Json) : Option (List Rule) :=
  v.number?.map fun limit => [assertion (.bound side strict limit)]

/-- The rule of `pattern`. -/
def pattern? (v : Json) : Option (List Rule) := do
  let text ← v.text?
  let regex ← compilePattern? text
  pure [assertion (.pattern text regex)]

/-- The rule of `items`; what is neither a schema nor a list is none. -/
def items? : Json → List Rule
  | .arr schemas => [tuple schemas]
  | .obj schema => [items (.obj schema)]
  | .bool b => [items (.bool b)]
  | _ => []

/-- The rule of `additionalItems`, which speaks of the items behind those that `items` lists one by
one. It asks that `items`, if present, is a schema or a list. -/
def additionalItems? (siblings : Members) (v : Json) : Option (List Rule) :=
  match siblings.lookup "items" with
  | none | some (.obj _) | some (.bool _) => some []
  | some (.arr schemas) =>
    match v with
    | .bool false => some [assertion (.noItemsFrom schemas.length)]
    | .obj schema => some [itemsFrom schemas.length (.obj schema)]
    | _ => some []
  | some _ => none

/-- The schemas of `patternProperties`. -/
def patterns? : Members → Option (List PatternSchema)
  | [] => some []
  | (pattern, schema) :: rest => do
    let regex ← compilePattern? pattern
    let others ← patterns? rest
    pure (⟨regex, schema⟩ :: others)

/-- Whether `additionalProperties` takes over the members that its siblings speak of. -/
def takesOver (siblings : Members) : Bool :=
  match siblings.lookup "additionalProperties" with
  | some (.bool false) | some (.obj _) => true
  | _ => false

/-- The rule of `properties`. -/
def properties? (siblings : Members) (v : Json) : Option (List Rule) :=
  if takesOver siblings then some [] else v.members?.map fun declared => [members declared]

/-- The rule of `patternProperties`. -/
def patternProperties? (siblings : Members) (v : Json) : Option (List Rule) :=
  if takesOver siblings then some []
  else (v.members?.bind patterns?).map fun patterns => [matching patterns]

/-- The rule of `additionalProperties`. -/
def additionalProperties? (siblings : Members) (v : Json) : Option (List Rule) := do
  let declared ← ((siblings.lookup "properties").getD (.obj [])).members?
  let patterns ← ((siblings.lookup "patternProperties").getD (.obj [])).members?.bind patterns?
  let alone := (siblings.lookup "properties").isNone && (siblings.lookup "patternProperties").isNone
  match v with
  | .bool true => pure []
  | .bool false => pure [if alone then assertion .noMembers else closed declared patterns]
  | schema => pure [others declared patterns schema]

/-- The rule of `propertyNames`; what is no schema is none. -/
def propertyNames? : Json → List Rule
  | .obj schema => [names (.obj schema)]
  | .bool false => [assertion .noNames]
  | _ => []

/-- The entries of `dependencies`. -/
def dependencies? : Members → Option (List (String × Dependency))
  | [] => some []
  | (name, v) :: rest => do
    let dependency ← match v with
      | .arr _ => (strings? v).map .members
      | schema => some (.schema schema)
    let others ← dependencies? rest
    pure ((name, dependency) :: others)

/-- The rule of `if`, which is none without `then` and `else`. -/
def choice? (siblings : Members) (condition : Json) : List Rule :=
  match siblings.lookup "then", siblings.lookup "else" with
  | none, none => []
  | met, unmet => [choice condition met unmet]

/-- The rules of a keyword among its siblings; a keyword that is not known has none. -/
def read? (siblings : Members) (keyword : String) (v : Json) : Option (List Rule) :=
  match keyword with
  | "type" => (type? v).map fun a => [assertion a]
  | "enum" => v.items?.map fun allowed => [assertion (.enum allowed)]
  | "const" => some [assertion (.const v)]
  | "minLength" => size? .length .low v
  | "maxLength" => size? .length .high v
  | "minItems" => size? .items .low v
  | "maxItems" => size? .items .high v
  | "minProperties" => size? .properties .low v
  | "maxProperties" => size? .properties .high v
  | "minimum" => bound? .low false v
  | "maximum" => bound? .high false v
  | "exclusiveMinimum" => bound? .low true v
  | "exclusiveMaximum" => bound? .high true v
  | "multipleOf" => v.number?.map fun n => [assertion (.multipleOf n.toBinary64)]
  | "pattern" => pattern? v
  | "uniqueItems" => match v with
    | .bool true => some [assertion .uniqueItems]
    | _ => some []
  | "required" => (strings? v).map fun names => [assertion (.required names)]
  | "items" => some (items? v)
  | "additionalItems" => additionalItems? siblings v
  | "contains" => some [contains v]
  | "properties" => properties? siblings v
  | "patternProperties" => patternProperties? siblings v
  | "additionalProperties" => additionalProperties? siblings v
  | "propertyNames" => some (propertyNames? v)
  | "dependencies" => (v.members?.bind dependencies?).map fun entries => [dependencies entries]
  | "allOf" => v.items?.map fun schemas => [allOf schemas]
  | "anyOf" => v.items?.map fun schemas => [anyOf schemas]
  | "oneOf" => v.items?.map fun schemas => [oneOf schemas]
  | "not" => some [not v]
  | "if" => some (choice? siblings v)
  | _ => some []

/-- The schemas inside a rule. -/
def subschemas : Rule → List Json
  | assertion _ => []
  | items schema | itemsFrom _ schema | contains schema | names schema | not schema => [schema]
  | tuple schemas | allOf schemas | anyOf schemas | oneOf schemas => schemas
  | members declared => declared.map (·.2)
  | matching patterns => patterns.map (·.schema)
  | closed declared patterns => declared.map (·.2) ++ patterns.map (·.schema)
  | others declared patterns schema => declared.map (·.2) ++ patterns.map (·.schema) ++ [schema]
  | dependencies entries => entries.filterMap fun (_, d) => match d with
    | .schema schema => some schema
    | .members _ => none
  | choice condition met unmet => condition :: (met.toList ++ unmet.toList)

end Rule

/-- Reads a node of a schema. The rules come in the order of the keywords. -/
def Node.read? : Json → Option Node
  | .bool true => some .always
  | .bool false => some .never
  | .obj schema =>
    match schema.lookup "$ref" with
    | some target => target.text?.map .reference
    | none => (gather? (fun (keyword, v) => Rule.read? schema keyword v) schema).map .rules
  | _ => none

end LinkedSchema.Draft7
