import LinkedSchema.Draft7.Registry
import LinkedSchema.Draft7.Rule
import LinkedSchema.Validation.Locator

/-!
# Evaluation of schemas

A `Finding` is a place in the instance and what is wrong there. `evaluate` collects the findings of
an instance against a node: those of its rules in order, or those behind its reference. Rules that
combine schemas over the same value look only at which of them find nothing, and speak for
themselves. The comparison of values is a parameter, as for assertions.

References stay at the same place of the instance, so the walk recurses on levels; it returns
nothing when they run out or a node cannot be read.
-/

namespace LinkedSchema.Draft7

/-- What is wrong at a place of the instance. -/
structure Finding where
  /-- The place. -/
  place : Locator
  /-- What is wrong, in words. -/
  message : String
deriving DecidableEq, Repr

/-- How evaluation goes on below a node: with a schema, a value and its place. -/
abbrev Check := Json → Json → Locator → Option (List Finding)

/-- Findings about one place. -/
def findingsAt (place : Locator) (messages : List String) : List Finding :=
  messages.map fun message => ⟨place, message⟩

/-- A finding about a place, unless something is so. -/
def findingUnless (met : Bool) (place : Locator) (message : String) : List Finding :=
  findingsAt place (demand met message)

/-- The items of an array with their places, counted from an index. -/
def placedItems (place : Locator) (i : Nat) : List Json → List (Json × Locator)
  | [] => []
  | v :: rest => (v, place.index i) :: placedItems place (i + 1) rest

namespace Rule

/-- Whether a value meets each of several schemas. -/
def verdicts (check : Check) (v : Json) (place : Locator) (schemas : List Json) :
    Option (List Bool) :=
  schemas.mapM fun schema => (check schema v place).map List.isEmpty

/-- The findings about items that all have to meet one schema. -/
def checkItems (check : Check) (schema : Json) (items : List (Json × Locator)) :
    Option (List Finding) :=
  gather? (fun (item, place) => check schema item place) items

/-- The findings about items against the schemas that stand at their positions. -/
def checkTuple (check : Check) (schemas : List Json) (items : List (Json × Locator)) :
    Option (List Finding) :=
  gather? (fun (schema, item, place) => check schema item place) (schemas.zip items)

/-- The schemas that speak of a member: the one declared for its name, and those of the patterns
that cover it. -/
def schemasOf (declared : Members) (patterns : List PatternSchema) (name : String) : List Json :=
  (declared.lookup name).toList ++ (patterns.filter (·.covers name)).map (·.schema)

/-- The findings about a member against several schemas. -/
def checkMember (check : Check) (schemas : List Json) (name : String) (v : Json) (place : Locator) :
    Option (List Finding) :=
  gather? (fun schema => check schema v (place.property name)) schemas

/-- The findings about an object against schemas declared by name, in their order. -/
def checkDeclared (check : Check) (declared members : Members) (place : Locator) :
    Option (List Finding) :=
  gather? (fun (name, schema) =>
    match members.lookup name with
    | none => some []
    | some v => check schema v (place.property name)) declared

/-- The findings about an object against schemas given by patterns, in their order. -/
def checkMatching (check : Check) (patterns : List PatternSchema) (members : Members)
    (place : Locator) : Option (List Finding) :=
  gather? (fun p =>
    gather? (fun (name, v) => check p.schema v (place.property name))
      (members.filter fun (name, _) => p.covers name)) patterns

/-- The findings about an object whose members all need a schema that speaks of them. -/
def checkClosed (check : Check) (declared : Members) (patterns : List PatternSchema)
    (members : Members) (place : Locator) : Option (List Finding) := do
  let found ← gather? (fun (name, v) =>
    checkMember check (schemasOf declared patterns name) name v place) members
  let strangers := members.filter fun (name, _) => (schemasOf declared patterns name).isEmpty
  let quoted := strangers.map fun (name, _) => "'" ++ name ++ "'"
  pure (found ++
    findingUnless strangers.isEmpty place ("Additional properties" ++ unexpected quoted))

/-- The findings about an object whose members have to meet a schema where none other speaks of
them. -/
def checkOthers (check : Check) (declared : Members) (patterns : List PatternSchema) (schema : Json)
    (members : Members) (place : Locator) : Option (List Finding) :=
  gather? (fun (name, v) =>
    let schemas := schemasOf declared patterns name
    checkMember check (if schemas.isEmpty then [schema] else schemas) name v place) members

/-- The findings about what the presence of members asks. -/
def checkDependencies (same : Json → Json → Bool) (check : Check)
    (entries : List (String × Dependency)) (members : Members) (place : Locator) :
    Option (List Finding) :=
  gather? (fun (name, dependency) =>
    if (members.lookup name).isNone then some []
    else match dependency with
      | .members needed =>
        some (findingsAt place ((Assertion.required needed).messages same (.obj members)))
      | .schema schema => check schema (.obj members) place) entries

/-- The finding about alternatives none of which is met. -/
def noAlternative (v : Json) (keyword : String) : String :=
  v.render ++ " is not valid under any of the schemas listed in the '" ++ keyword ++ "' keyword"

/-- The finding about alternatives several of which are met. -/
def manyAlternatives (v : Json) (keyword : String) : String :=
  v.render ++ " is valid under more than one of the schemas listed in the '" ++ keyword ++
    "' keyword"

/-- The findings about a value against a rule, given how evaluation goes on below. -/
def evaluate (same : Json → Json → Bool) (check : Check) (v : Json) (place : Locator)
    (rule : Rule) : Option (List Finding) :=
  match rule, v with
  | assertion a, v => some (findingsAt place (a.messages same v))
  | items schema, .arr vs => checkItems check schema (placedItems place 0 vs)
  | tuple schemas, .arr vs => checkTuple check schemas (placedItems place 0 vs)
  | itemsFrom start schema, .arr vs =>
    checkItems check schema ((placedItems place 0 vs).drop start)
  | contains schema, .arr vs => do
    let met ← vs.mapM fun item => (check schema item place).map List.isEmpty
    pure (findingUnless (met.contains true) place
      ("None of " ++ (Json.arr vs).render ++ " are valid under the given schema"))
  | members declared, .obj ms => checkDeclared check declared ms place
  | matching patterns, .obj ms => checkMatching check patterns ms place
  | closed declared patterns, .obj ms => checkClosed check declared patterns ms place
  | others declared patterns schema, .obj ms => checkOthers check declared patterns schema ms place
  | names schema, .obj ms => gather? (fun (name, _) => check schema (.str name) place) ms
  | dependencies entries, .obj ms => checkDependencies same check entries ms place
  | allOf schemas, v => gather? (fun schema => check schema v place) schemas
  | anyOf schemas, v => do
    let met ← verdicts check v place schemas
    pure (findingUnless (met.contains true) place (noAlternative v "anyOf"))
  | oneOf schemas, v => do
    let met ← verdicts check v place schemas
    pure (match met.count true with
      | 0 => findingsAt place [noAlternative v "oneOf"]
      | 1 => []
      | _ => findingsAt place [manyAlternatives v "oneOf"])
  | not schema, v => do
    let found ← check schema v place
    pure (findingUnless (!found.isEmpty) place
      (schema.render ++ " is not allowed for " ++ v.render))
  | choice condition met unmet, v => do
    let found ← check condition v place
    match if found.isEmpty then met else unmet with
    | none => pure []
    | some schema => check schema v place
  -- A rule for values of another kind has nothing to say.
  | _, _ => some []

end Rule

/-- The findings about a value at a place against a node in the document with a given URI, given how
evaluation goes on below, in the document with a URI. -/
def evaluateNode (same : Json → Json → Bool) (registry : Registry) (below : Uri → Check)
    (base : Uri) (node v : Json) (place : Locator) : Option (List Finding) :=
  match Node.read? node with
  | none => none
  | some .always => some []
  | some .never => some (findingsAt place [falseSchema v])
  | some (.reference text) =>
    match registry.follow? base text with
    | none => none
    | some target => below target.address.document target.node v place
  | some (.rules rules) => gather? (Rule.evaluate same (below base) v place) rules

/-- The findings about a value at a place against a node in the document with a given URI, with so
many levels left. -/
def evaluate (same : Json → Json → Bool) (registry : Registry) : (levels : Nat) → Uri → Check
  | 0 => fun _ _ _ _ => none
  | levels + 1 => evaluateNode same registry (evaluate same registry levels)

end LinkedSchema.Draft7
