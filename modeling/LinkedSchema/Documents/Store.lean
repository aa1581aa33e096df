import LinkedSchema.Documents.Error
import LinkedSchema.Json.Reader
import LinkedSchema.Yaml.Scalar

/-!
# Documents and the store

A document is the value read from a file, under the location that identifies it. A `Store` keeps
the documents that have been loaded, at most one for each location: the first one stays, whatever
happens to the file afterwards. `Loading` is the effect of everything that may load documents; what
was loaded stays in the store also when the computation fails.
-/

namespace LinkedSchema

/-- A value and the location that identifies it. -/
structure Document where
  /-- The identity of the document. -/
  location : Location
  /-- The value of the whole document. -/
  root : Json
deriving Repr, Inhabited

namespace Document

/-- Whether a location is read as YAML: everything else is JSON. -/
def isYaml (l : Location) : Bool :=
  l.extension? == some "yaml" || l.extension? == some "yml"

/-- The value of a text found at a location. -/
def parse (l : Location) (text : String) : Except ParseFailure Json :=
  if isYaml l then
    match Yaml.read? text with
    | none => .error .yaml
    | some value => value.toJson
  else
    match Json.read? text with
    | none => .error .json
    | some value => .ok value

/-- The value that a pointer names. -/
def find (d : Document) (pointer : String) : Except SchemaError Json :=
  match Pointer.find d.root pointer with
  | .error segment => .error (.unresolvedPointer d.location pointer segment)
  | .ok value => .ok value

end Document

/-- Reads the value at a location; `referencedFrom` is who asked for it. -/
def Texts.readValue (files : Texts) (l : Location) (referencedFrom : Option String) :
    Except SchemaError Json :=
  match files.read l with
  | .error .notFound => .error (.documentNotFound l referencedFrom)
  | .error reason => .error (.documentRead l reason)
  | .ok text =>
    match Document.parse l text with
    | .error reason => .error (.documentParse l reason)
    | .ok value => .ok value

/-- Reads the value of a file. -/
def Document.readValue (files : FileTree) (l : Location) (referencedFrom : Option String) :
    Except SchemaError Json :=
  Texts.readValue files l referencedFrom

/-- The documents loaded so far. -/
structure Store where
  /-- The documents in the order of their loading, at most one for each location. -/
  documents : List Document
deriving Inhabited

namespace Store

/-- The store without documents. -/
def empty : Store := ⟨[]⟩

/-- The document of a location. -/
def find? (store : Store) (l : Location) : Option Document :=
  store.documents.find? (·.location = l)

/-- Whether a location has a document. -/
def contains (store : Store) (l : Location) : Bool := (store.find? l).isSome

/-- How many documents there are. -/
def size (store : Store) : Nat := store.documents.length

/-- The document that the store holds for the location of a given one, which is the given one if
the location had none, and the store that holds it. -/
def add (store : Store) (d : Document) : Document × Store :=
  match store.find? d.location with
  | some held => (held, store)
  | none => (d, ⟨store.documents ++ [d]⟩)

end Store

/-- A computation that loads documents and may fail; the store outlives a failure. -/
abbrev Loading := ExceptT SchemaError (StateM Store)

namespace Loading

/-- A computation as a function on stores. -/
def ofStep {α : Type} (step : Store → Except SchemaError α × Store) : Loading α := step

/-- The outcome of a computation on a store, and the store it leaves. -/
def runOn {α : Type} (action : Loading α) (store : Store) : Except SchemaError α × Store :=
  action store

end Loading

/-- The document at a location: the one in the store, or else the one that is read now and kept.
`referencedFrom` names the reference that asks for it. -/
def loadDocument (files : Texts) (l : Location) (referencedFrom : Option String) :
    Loading Document :=
  .ofStep fun store =>
    match store.find? l with
    | some d => (.ok d, store)
    | none =>
      match files.readValue l referencedFrom with
      | .error e => (.error e, store)
      | .ok root =>
        let (d, store) := store.add ⟨l, root⟩
        (.ok d, store)

end LinkedSchema
