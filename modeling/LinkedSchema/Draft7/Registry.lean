import LinkedSchema.Documents.Store
import LinkedSchema.Uri.Basic

/-!
# The registry of a schema

A reference of a schema is a URI reference, read against the URI of the document in which it
stands. The `Registry` holds all documents that references can name, each under its URI. It is
filled before anything is validated: the schema comes first, and then, round after round, the
documents named by references in those already there, wherever in a document a subschema may stand.
A `file` URI names a file; of any other URI the last segment names a file beside the schema.

`Registry.follow?` follows one reference. A fragment is a pointer whose escaped bytes are decoded
before it is cut into names.
-/

namespace LinkedSchema.Draft7

/-- A value inside a document. -/
structure Address where
  /-- The document. -/
  document : Uri
  /-- The names on the way down from its root. -/
  names : List String
deriving DecidableEq, Repr

/-- What a reference leads to: a node and its address. -/
structure Target where
  address : Address
  node : Json

/-- The documents that references can name. -/
structure Registry where
  /-- The roots of the documents by their URIs; of two with one URI the first counts. -/
  documents : List (Uri × Json)

namespace Registry

/-- The root of the document with a URI. -/
def root? (r : Registry) (u : Uri) : Option Json := r.documents.lookup u

/-- The registry with one more document. -/
def add (r : Registry) (u : Uri) (root : Json) : Registry := ⟨r.documents ++ [(u, root)]⟩

/-- The names that a fragment leads along; it is empty or starts with a slash. -/
def fragmentNames? (fragment : String) : Option (List String) :=
  match fragment.toList with
  | [] => some []
  | '/' :: path => (Uri.decode? (String.ofList path)).map Pointer.names
  | _ => none

/-- Follows a reference that stands in the document with a given URI. -/
def follow? (r : Registry) (base : Uri) (text : String) : Option Target := do
  let reference ← UriReference.read? text
  let names ← fragmentNames? (reference.fragment.getD "")
  let document := reference.resolve base
  let root ← r.root? document
  let node ← (Pointer.descend root names).toOption
  pure ⟨⟨document, names⟩, node⟩

end Registry

/-! ## Where references stand -/

/-- What the value of a keyword holds, as far as schemas go. -/
inductive Holding where
  /-- No schema. -/
  | nothing
  /-- A schema. -/
  | schema
  /-- A list of schemas. -/
  | list
  /-- A schema, or a list of schemas. -/
  | schemaOrList
  /-- Schemas by name. -/
  | members
deriving DecidableEq, Repr

/-- What a keyword holds. -/
def Holding.of (keyword : String) : Holding :=
  if ["additionalItems", "additionalProperties", "contains", "else", "if", "not", "propertyNames",
      "then"].contains keyword then schema
  else if ["allOf", "anyOf", "oneOf"].contains keyword then list
  else if ["definitions", "dependencies", "patternProperties", "properties"].contains keyword then
    members
  else if keyword = "items" then schemaOrList
  else nothing

mutual

/-- A schema and all schemas inside it. -/
def subschemas : Json → List Json
  | .obj members => .obj members :: keywordSubschemas members
  | v => [v]
termination_by structural v => v

/-- The schemas inside the keywords of a schema. -/
def keywordSubschemas : Members → List Json
  | [] => []
  | (keyword, v) :: rest =>
    (match Holding.of keyword, v with
      | .list, .arr items => itemSubschemas items
      | .schemaOrList, .arr items => itemSubschemas items
      | .members, .obj members => memberSubschemas members
      | .schema, v => subschemas v
      | .schemaOrList, v => subschemas v
      | _, _ => []) ++ keywordSubschemas rest

/-- The schemas in a list and all schemas inside them. -/
def itemSubschemas : List Json → List Json
  | [] => []
  | v :: rest => subschemas v ++ itemSubschemas rest

/-- The schemas of members and all schemas inside them. -/
def memberSubschemas : Members → List Json
  | [] => []
  | (_, v) :: rest => subschemas v ++ memberSubschemas rest

end

/-- The text of a keyword of a node. -/
def keywordText? (node : Json) (keyword : String) : Option String :=
  (node.member? keyword).bind Json.text?

/-- The starts of references to the documents that define the language of schemas; these are never
read. -/
def standardLocations : List String :=
  ["https://json-schema.org/draft/2020-12/", "https://json-schema.org/draft/2019-09/",
    "http://json-schema.org/draft-07/", "http://json-schema.org/draft-06/",
    "http://json-schema.org/draft-04/"]

/-- Whether a reference leads to a document that defines the language of schemas. -/
def isStandard (text : String) : Bool :=
  standardLocations.any fun start => start.toList.isPrefixOf text.toList

/-- The node that a reference starting with `#` leads to inside a value. -/
def localNode? (root : Json) (text : String) : Option Json :=
  match text.toList.dropWhile (· == '#') with
  | [] => some root
  | '/' :: path => (Pointer.descend root (Pointer.names (String.ofList path))).toOption
  | _ => none

/-- The references to other documents at a node and at the nodes that local references lead to from
there, so many of them in a row. -/
def foreignReferences (root : Json) : (hops : Nat) → Json → List String
  | 0, _ => []
  | hops + 1, node =>
    (match keywordText? node "$ref" with
      | none => []
      | some text =>
        if isStandard text || text = "#" then []
        else if text.toList.head? = some '#' then
          match localNode? root text with
          | none => []
          | some target => foreignReferences root hops target
        else [text]) ++
    (match keywordText? node "$schema" with
      | none => []
      | some text => if isStandard text || text.toList.head? = some '#' then [] else [text])

/-- A value in which references are looked for, with the URI against which they are read. -/
structure Source where
  base : Uri
  node : Json

namespace Source

/-- The URI that a document gives itself by `$id`, its own one if it gives none. A reference hides
`$id` like all its siblings. -/
def uri? (s : Source) : Option Uri :=
  match s.node.member? "$ref", keywordText? s.node "$id" with
  | none, some text =>
    if text.toList.head? = some '#' then some s.base
    else (UriReference.read? text).map (UriReference.resolve s.base)
  | _, _ => some s.base

/-- The documents that are named in a source, with fragments. -/
def named? (s : Source) (base : Uri) : Option (List (Uri × String)) :=
  let texts := (subschemas s.node).flatMap fun node => foreignReferences s.node s.node.size node
  texts.mapM fun text => (UriReference.read? text).map fun r => (r.resolve base, r.fragment.getD "")

end Source

namespace Registry

/-- The documents that are named in sources, and the registry with the sources that name
themselves. -/
def enlist? : List Source → Registry → Option (Registry × List (Uri × String))
  | [], r => some (r, [])
  | s :: rest, r => do
    let base ← s.uri?
    let named ← s.named? base
    let (r, others) ← enlist? rest (if base = s.base then r else r.add base s.node)
    pure (r, named ++ others)

/-- The location at which a document is read: the file that a `file` URI names, else the last
segment of the URI beside the schema. -/
def location? (directory : Location) (u : Uri) : Option Location :=
  if u.scheme = "file" then u.filePath?.map Location.root.resolve
  else if u.lastSegment.isEmpty then none
  else some (directory.resolve u.lastSegment)

/-- Reads a document; every failure becomes a given one. -/
def fetch (files : Texts) (directory : Location) (fault : SchemaError) (u : Uri) :
    Loading Json :=
  match location? directory u with
  | none => throw fault
  | some l =>
    let root := (loadDocument files l (some u.render)).map Document.root
    tryCatch root fun _ => throw fault

/-- The part of a document that a fragment names, as a source. -/
def partSource (u : Uri) (root : Json) (fragment : String) : List Source :=
  if fragment.isEmpty then []
  else match localNode? root fragment with
    | none => []
    | some node => [⟨u, node⟩]

/-- Adds the documents that are not there yet, and returns them as sources. -/
def extend (fetch : Uri → Loading Json) :
    List (Uri × String) → Registry → Loading (Registry × List Source)
  | [], r => pure (r, [])
  | (u, fragment) :: rest, r =>
    if (r.root? u).isSome then extend fetch rest r
    else do
      let root ← fetch u
      let (r, sources) ← extend fetch rest (r.add u root)
      pure (r, ⟨u, root⟩ :: (partSource u root fragment ++ sources))

/-- Adds all documents that are named in sources, in the documents added then, and so on, for so
many rounds. -/
def complete (fetch : Uri → Loading Json) (fault : SchemaError) :
    (rounds : Nat) → List Source → Registry → Loading Registry
  | 0, _, r => pure r
  | _, [], r => pure r
  | rounds + 1, sources, r =>
    match enlist? sources r with
    | none => throw fault
    | some (r, named) => do
      let (r, sources) ← extend fetch named r
      complete fetch fault rounds sources r

/-- The registry of a schema. -/
def ofSchema (files : Texts) (rounds : Nat) (schema : Document) (u : Uri) (fault : SchemaError) :
    Loading Registry :=
  complete (fetch files schema.location.parent fault) fault rounds [⟨u, schema.root⟩]
    ⟨[(u, schema.root)]⟩

end Registry

end LinkedSchema.Draft7
