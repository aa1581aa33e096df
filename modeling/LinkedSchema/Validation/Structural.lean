import LinkedSchema.Documents.Reference
import LinkedSchema.Json.Equality
import LinkedSchema.Pattern.Search
import LinkedSchema.Validation.Report

/-!
# Structural validation

The structural walk checks an instance against the keywords `$ref`, `anyOf`, `type`, `enum`,
`minLength`, `pattern`, `minimum`, `maximum`, `minItems`, `maxItems`, `items`, `required`,
`properties` and `additionalProperties`, in this order on every node, and collects all violations.
A wrong type ends the checks of its node, since the others presuppose the shape.

References and alternatives stay at the same place of the instance and share one chain of
references; items and members start a fresh one. A step into a subschema costs one level of depth,
and the walk recurses on the levels that are left.
-/

namespace LinkedSchema.Structural

/-- The limits of a walk and how it reports alternatives. -/
structure Settings where
  /-- How many references may follow each other at one place of the instance. -/
  maxRefChain : Nat
  /-- How deep the walk may go. -/
  maxDepth : Nat
  /-- Whether the violations of every alternative are reported when none matches. -/
  verboseAnyOf : Bool
deriving DecidableEq, Repr

/-- Whether a value is of the type with a name. -/
def hasType (v : Json) (name : String) : Bool :=
  match v with
  | .obj _ => name == "object"
  | .arr _ => name == "array"
  | .str _ => name == "string"
  | .num n => name == "number" || (name == "integer" && n.isIntegral)
  | .bool _ => name == "boolean"
  | .null => name == "null"

/-- The wording of a type that a value does not have; nothing when it has the expected type, or
when the keyword is no name and no list. -/
def typeMismatch? (v : Json) (expected : Json) : Option String :=
  match expected with
  | .str name => if hasType v name then none else some ("expected type " ++ name)
  | .arr names =>
    let names := names.filterMap Json.text?
    if names.any (hasType v) then none
    else
      let quoted := names.map fun name => "'" ++ name ++ "'"
      some ("expected type [" ++ String.intercalate ", " quoted ++ "]")
  | _ => none

/-- The value of a numeric keyword as binary64, together with its text. -/
def bound? (schema : Members) (keyword : String) : Option (Binary64 × String) :=
  match schema.lookup keyword with
  | some (.num n) => some (n.toBinary64, n.render)
  | _ => none

/-- A violation, if a numeric keyword is present and its bound fails a test. -/
def boundViolation (schema : Members) (keyword : String) (place : Locator) (kind : ViolationKind)
    (broken : Binary64 → Bool) (message : String → String) : Report :=
  match bound? schema keyword with
  | some (limit, text) => if broken limit then [⟨place, kind, message text⟩] else []
  | none => []

/-- The violation of `enum`. -/
def checkEnum (v : Json) (schema : Members) (place : Locator) : Report :=
  match schema.lookup "enum" with
  | some (.arr allowed) =>
    if allowed.any (v.equal ·) then []
    else [⟨place, .enum, "value " ++ v.render ++ " not in enum"⟩]
  | _ => []

/-- The violations of the string keywords. The empty pattern is no constraint. -/
def checkString (text : String) (schema : Members) (place : Locator) :
    Except SchemaError Report := do
  let length := Binary64.ofNat text.length
  let short := boundViolation schema "minLength" place .minLength (length.lt ·)
    fun limit => "string length < " ++ limit
  match schema.lookup "pattern" with
  | some (.str pattern) =>
    if pattern.isEmpty then pure short
    else match Pattern.search? pattern text with
      | none => throw (.invalidPattern pattern place)
      | some true => pure short
      | some false =>
        let message := "string does not match pattern '" ++ pattern ++ "'"
        pure (short ++ [⟨place, .pattern, message⟩])
  | _ => pure short

/-- The violations of the numeric bounds. -/
def checkNumber (n : Number) (schema : Members) (place : Locator) : Report :=
  let value := n.toBinary64
  let wording (relation : String) (limit : String) : String :=
    "value " ++ n.render ++ relation ++ limit
  boundViolation schema "minimum" place .minimum (value.lt ·) (wording " < minimum ") ++
    boundViolation schema "maximum" place .maximum (·.lt value) (wording " > maximum ")

/-- The violations of the size of an array. -/
def checkSize (items : List Json) (schema : Members) (place : Locator) : Report :=
  let size := Binary64.ofNat items.length
  boundViolation schema "minItems" place .minItems (size.lt ·)
      (fun limit => "array has fewer than " ++ limit ++ " items") ++
    boundViolation schema "maxItems" place .maxItems (·.lt size)
      (fun limit => "array has more than " ++ limit ++ " items")

/-- The violations of `required`, in the order of the names. -/
def checkRequired (members : Members) (schema : Members) (place : Locator) : Report :=
  match schema.lookup "required" with
  | some (.arr names) =>
    (names.filterMap Json.text?).filterMap fun name =>
      match members.lookup name with
      | some _ => none
      | none => some ⟨place, .required, "missing required property '" ++ name ++ "'"⟩
  | _ => []

/-- How a walk goes on below a node: with an instance, a schema node, a context, the place of the
instance and the chain of references. -/
abbrev Visit := Json → Json → Context → Locator → Chain → Loading Report

/-- Goes through alternatives until one matches. The reports of those that do not are collected;
nothing is returned once one matches. -/
def failures (check : Json → Loading Report) : List Json → Loading (Option (List Report))
  | [] => pure (some [])
  | alternative :: rest => do
    let report ← check alternative
    if report.isEmpty then pure none
    else
      let others ← failures check rest
      pure (others.map (report :: ·))

/-- The violations of the alternatives, each marked with the number of its alternative. -/
def branchReports (i : Nat) : List Report → Report
  | [] => []
  | report :: rest =>
    report.map (fun v =>
      { v with kind := .anyOfBranch, message := "anyOf[" ++ toString i ++ "]: " ++ v.message }) ++
      branchReports (i + 1) rest

/-- The report on alternatives of which none matches; an empty list of alternatives is no
constraint. -/
def anyOfReport (verbose : Bool) (place : Locator) : Option (List Report) → Report
  | none => []
  | some [] => []
  | some reports =>
    ⟨place, .anyOf, "does not match anyOf options"⟩ ::
      (if verbose then branchReports 0 reports else [])

/-- The reports on items, one after the other. -/
def eachItem (check : Nat → Json → Loading Report) (i : Nat) : List Json → Loading Report
  | [] => pure []
  | item :: rest => do
    let report ← check i item
    let others ← eachItem check (i + 1) rest
    pure (report ++ others)

/-- The reports on members, one after the other. -/
def eachMember (check : String → Json → Loading Report) : Members → Loading Report
  | [] => pure []
  | (name, v) :: rest => do
    let report ← check name v
    let others ← eachMember check rest
    pure (report ++ others)

/-- The violations behind a reference, at the same place. -/
def checkReference (files : Texts) (visit : Visit) (v : Json) (schema : Members)
    (context : Context) (place : Locator) (chain : Chain) : Loading Report :=
  match schema.lookup "$ref" with
  | none => pure []
  | some reference => do
    let reference ← ExceptT.mk (pure (referenceText reference))
    let target ← resolveReference files reference context
    let chain ← ExceptT.mk (pure (chain.enter target.identity reference))
    let node ← ExceptT.mk (pure target.node)
    visit v node target.context place chain

/-- The violations of `anyOf`. -/
def checkAnyOf (settings : Settings) (visit : Visit) (v : Json) (schema : Members)
    (context : Context) (place : Locator) (chain : Chain) : Loading Report :=
  match schema.lookup "anyOf" with
  | some (.arr alternatives) => do
    let reports ← failures (fun alternative => visit v alternative context place chain) alternatives
    pure (anyOfReport settings.verboseAnyOf place reports)
  | _ => pure []

/-- The violations of the array keywords; `items` counts only where it is one schema. -/
def checkArray (visit : Visit) (items : List Json) (schema : Members) (context : Context)
    (place : Locator) (chain : Chain) : Loading Report := do
  let sizes := checkSize items schema place
  match schema.lookup "items" with
  | some (.obj itemSchema) =>
    let reports ← eachItem
      (fun i item => visit item (.obj itemSchema) context (place.index i) chain.fresh) 0 items
    pure (sizes ++ reports)
  | _ => pure sizes

/-- The violations of the object keywords. Members are visited in the order of the instance; one
that no schema is declared for is a violation where `additionalProperties` is false. -/
def checkObject (visit : Visit) (members : Members) (schema : Members) (context : Context)
    (place : Locator) (chain : Chain) : Loading Report := do
  let required := checkRequired members schema place
  let declared := ((schema.lookup "properties").bind Json.members?).getD []
  let closed := match schema.lookup "additionalProperties" with
    | some (.bool false) => true
    | _ => false
  let reports ← eachMember (fun name v =>
    match declared.lookup name with
    | some memberSchema => visit v memberSchema context (place.property name) chain.fresh
    | none =>
      pure (if closed then
        [⟨place, .additionalProperty, "additional property '" ++ name ++ "' not allowed"⟩] else []))
    members
  pure (required ++ reports)

/-- The violations of the keywords that depend on the kind of value. -/
def checkByKind (visit : Visit) (v : Json) (schema : Members) (context : Context)
    (place : Locator) (chain : Chain) : Loading Report :=
  match v with
  | .str text => ExceptT.mk (pure (checkString text schema place))
  | .num n => pure (checkNumber n schema place)
  | .arr items => checkArray visit items schema context place chain
  | .obj members => checkObject visit members schema context place chain
  | _ => pure []

/-- The violations of one node that is an object, given how the walk goes on below it. -/
def checkNode (files : Texts) (settings : Settings) (visit : Visit) (v : Json)
    (schema : Members) (context : Context) (place : Locator) (chain : Chain) : Loading Report := do
  let behind ← checkReference files visit v schema context place chain
  let alternatives ← checkAnyOf settings visit v schema context place chain
  match (schema.lookup "type").bind (typeMismatch? v) with
  | some message => pure (behind ++ alternatives ++ [⟨place, .type, message⟩])
  | none =>
    let values := checkEnum v schema place
    let rest ← checkByKind visit v schema context place chain
    pure (behind ++ alternatives ++ values ++ rest)

/-- The violations of an instance against a node with so many levels of depth left. A node that is
no object has no keywords. -/
def walk (files : Texts) (settings : Settings) : (levels : Nat) → Visit
  | 0, _, _, _, place, _ => throw (.depthExceeded settings.maxDepth place)
  | levels + 1, v, node, context, place, chain =>
    match node with
    | .obj schema =>
      checkNode files settings (walk files settings levels) v schema context place chain
    | _ => pure []

/-- Validates an instance, which stands at a given place, against a node in its context. -/
def validateNode (files : Texts) (settings : Settings) (v : Json) (node : Json)
    (context : Context) (place : Locator) : Loading Report :=
  walk files settings (settings.maxDepth + 1) v node context place (.start settings.maxRefChain)

/-- Validates an instance against the root of a document. -/
def validate (files : Texts) (settings : Settings) (schema : Document) (v : Json) :
    Loading Report :=
  validateNode files settings v schema.root (.ofDocument schema) .root

end LinkedSchema.Structural
