import LinkedSchema.Documents.Reference

/-!
# The reference graph

`checkReferences` follows every reference that can be reached from a schema, without an instance.
References and the keywords that apply a subschema to the same value are steps in place, and share
one chain of references. The keywords that apply a subschema to a part of the value lead to a new
location, which starts a fresh chain and is expanded once, however often it is reached.

So a schema that passes has no cycle of references that consumes nothing of the instance, and no
chain of references beyond the limit. The walk needs no ceiling of its own: a location is expanded
once, the references of a chain differ, and every other step leads to a smaller value. `levels`
states the resulting bound on its depth.
-/

namespace LinkedSchema.ReferenceGraph

/-- The keywords whose subschemas apply to the same value. -/
def inPlaceKeywords : List String := ["allOf", "anyOf", "oneOf", "not", "if", "then", "else"]

/-- The keywords that map names to subschemas for members. -/
def memberKeywords : List String := ["properties", "patternProperties"]

/-- The keywords with a subschema, or a list of them, for members, items or names. -/
def partKeywords : List String :=
  ["additionalProperties", "items", "additionalItems", "contains", "propertyNames"]

/-- The items of an array with their pointers, counted from a number. -/
def numbered (pointer : String) (i : Nat) : List Json → List (String × Json)
  | [] => []
  | v :: rest => (Pointer.child pointer (toString i), v) :: numbered pointer (i + 1) rest

/-- The subschemas of a keyword with their pointers: the items of a list, or the value itself. -/
def subschemas (schema : Members) (pointer keyword : String) : List (String × Json) :=
  let pointer := Pointer.child pointer keyword
  match schema.lookup keyword with
  | some (.arr items) => numbered pointer 0 items
  | some v => [(pointer, v)]
  | none => []

/-- The members of a keyword that maps names to subschemas, with their pointers. -/
def memberSchemas (schema : Members) (pointer keyword : String) : List (String × Json) :=
  let pointer := Pointer.child pointer keyword
  match schema.lookup keyword with
  | some (.obj members) => members.map fun (name, v) => (Pointer.child pointer name, v)
  | _ => []

/-- The subschemas that apply to the same value, in the order in which they are visited. -/
def inPlace (schema : Members) (pointer : String) : List (String × Json) :=
  inPlaceKeywords.flatMap (subschemas schema pointer) ++
    (memberSchemas schema pointer "dependencies").filter (·.2.isObject)

/-- The subschemas that apply to a part of the value, in the order in which they are visited. -/
def parts (schema : Members) (pointer : String) : List (String × Json) :=
  memberKeywords.flatMap (memberSchemas schema pointer) ++
    partKeywords.flatMap (subschemas schema pointer)

/-- The locations expanded so far. -/
abbrev Expanded := List Identity

/-- How the walk goes on below a node: with a node, its context and pointer, and the chain of
references. -/
abbrev Visit := Json → Context → String → Chain → Expanded → Loading Expanded

/-- Follows the reference of a node, if it has one, at the same place. -/
def followReference (files : Texts) (visit : Visit) (schema : Members) (context : Context)
    (chain : Chain) (expanded : Expanded) : Loading Expanded :=
  match schema.lookup "$ref" with
  | none => pure expanded
  | some reference => do
    let reference ← ExceptT.mk (pure (referenceText reference))
    let target ← resolveReference files reference context
    let chain ← ExceptT.mk (pure (chain.enter target.identity reference))
    let node ← ExceptT.mk (pure target.node)
    visit node target.context target.identity.pointer chain expanded

/-- Expands a location, once. -/
def expand (visit : Visit) (node : Json) (context : Context) (pointer : String) (limit : Nat)
    (expanded : Expanded) : Loading Expanded :=
  let identity := Identity.of context.root.location pointer
  if identity ∈ expanded then pure expanded
  else visit node context pointer (.start limit) (identity :: expanded)

/-- Visits subschemas one after the other. -/
def each (visit : String → Json → Expanded → Loading Expanded) :
    List (String × Json) → Expanded → Loading Expanded
  | [], expanded => pure expanded
  | (pointer, v) :: rest, expanded => do
    let expanded ← visit pointer v expanded
    each visit rest expanded

/-- The walk through one node that is an object, given how it goes on below. -/
def visitNode (files : Texts) (visit : Visit) (schema : Members) (context : Context)
    (pointer : String) (chain : Chain) (expanded : Expanded) : Loading Expanded := do
  let expanded ← followReference files visit schema context chain expanded
  let expanded ← each (fun pointer v => visit v context pointer chain) (inPlace schema pointer)
    expanded
  each (fun pointer v => expand visit v context pointer chain.limit) (parts schema pointer) expanded

/-- The walk with so many levels left. Values that are no objects have no references. -/
def walk (files : Texts) : (levels : Nat) → Visit
  | 0, _, _, _, chain, _ => throw (.depthExceeded chain.limit .root)
  | levels + 1, node, context, pointer, chain, expanded =>
    match node with
    | .obj schema => visitNode files (walk files levels) schema context pointer chain expanded
    | _ => pure expanded

/-- How many values all documents hold together: those of the store and those of the files. -/
def weight (files : Texts) (store : Store) : Nat :=
  let held := store.documents.map fun d => d.root.size
  let readable := files.places.map fun l =>
    match files.readValue l none with
    | .ok v => v.size
    | .error _ => 0
  held.foldr (· + ·) 0 + readable.foldr (· + ·) 0

/-- A bound on the depth of the walk. There are fewer locations than pairs of a reference and a
value, at each of them at most `limit` references follow each other, and the values between two
references shrink. -/
def levels (weight limit : Nat) : Nat :=
  ((weight + 1) * (weight + 1) + 1) * ((limit + 1) * (weight + 1)) + 1

/-- Checks all references that can be reached from a schema. -/
def check (files : Texts) (schema : Document) (limit : Nat) : Loading Unit := do
  let store ← get
  let depth := levels (weight files store + schema.root.size) limit
  let _ ← expand (walk files depth) schema.root (.ofDocument schema) "" limit []
  pure ()

end LinkedSchema.ReferenceGraph
