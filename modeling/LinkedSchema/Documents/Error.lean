import LinkedSchema.Files.Texts
import LinkedSchema.Validation.Locator

/-!
# What can go wrong with schemas

A `SchemaError` is a failure of the schema machinery: a document that cannot be read, a reference
that cannot be followed, a ceiling that is hit. It says nothing about the instance, and it ends
the validation that meets it.
-/

namespace LinkedSchema

/-- The node that a reference leads to: a document and a normalized pointer into it. -/
structure Identity where
  /-- The document. -/
  document : Location
  /-- The normalized pointer; the whole document is the empty text. -/
  pointer : String
deriving DecidableEq, Repr, Hashable

namespace Identity

/-- The identity of a document and a pointer in any spelling. -/
def of (document : Location) (pointer : String) : Identity :=
  ⟨document, Pointer.normalize pointer⟩

/-- The written form of an identity. -/
def render (i : Identity) : String :=
  if i.pointer.isEmpty then i.document.render ++ "#"
  else i.document.render ++ "#/" ++ i.pointer

end Identity

/-- Why the text of a document is no value. -/
inductive ParseFailure where
  /-- It is not JSON. -/
  | json
  /-- It is not YAML. -/
  | yaml
  /-- It holds a number that JSON has no form for. -/
  | nonFinite (number : String)
  /-- A mapping has a key that is no scalar. -/
  | mappingKey (key : String)
deriving DecidableEq, Repr

/-- The wording of a parse failure. -/
def ParseFailure.message : ParseFailure → String
  | json => "invalid JSON"
  | yaml => "invalid YAML"
  | nonFinite number => "non-finite number " ++ number ++ " has no JSON form"
  | mappingKey key => "unsupported mapping key: " ++ key

/-- Why a reference is malformed. -/
inductive ReferenceFault where
  /-- It is not a string. -/
  | notAString
  /-- It names no file where it should. -/
  | emptyFile
deriving DecidableEq, Repr

/-- The wording of a reference fault. -/
def ReferenceFault.message : ReferenceFault → String
  | notAString => "$ref must be a string"
  | emptyFile => "empty file part"

/-- A failure of the schema machinery. -/
inductive SchemaError where
  /-- A document does not exist; the reference that asked for it is named if there is one. -/
  | documentNotFound (document : Location) (referencedFrom : Option String)
  /-- A document exists but cannot be read. -/
  | documentRead (document : Location) (reason : AccessFailure)
  /-- A document is not well formed. -/
  | documentParse (document : Location) (reason : ParseFailure)
  /-- A segment of a pointer leads nowhere. -/
  | unresolvedPointer (document : Location) (pointer : String) (segment : String)
  /-- A reference is malformed. -/
  | invalidReference (reference : String) (reason : ReferenceFault)
  /-- References lead back to a node that they came from. -/
  | cyclicReference (chain : List Identity)
  /-- Too many references follow each other at one place of the instance. -/
  | referenceChainTooLong (limit : Nat) (reference : String)
  /-- The walk went deeper than its ceiling. -/
  | depthExceeded (limit : Nat) (place : Locator)
  /-- A pattern is malformed or takes too many steps. -/
  | invalidPattern (pattern : String) (place : Locator)
  /-- The schema cannot be compiled. -/
  | engineBuild (schema : Location)
deriving DecidableEq, Repr

namespace SchemaError

/-- The name of the kind of failure. -/
def kind : SchemaError → String
  | documentNotFound .. => "DocumentNotFound"
  | documentRead .. => "DocumentRead"
  | documentParse .. => "DocumentParse"
  | unresolvedPointer .. => "UnresolvedPointer"
  | invalidReference .. => "InvalidReference"
  | cyclicReference .. => "CyclicReference"
  | referenceChainTooLong .. => "ReferenceChainTooLong"
  | depthExceeded .. => "DepthExceeded"
  | invalidPattern .. => "InvalidPattern"
  | engineBuild .. => "EngineBuild"

/-- The wording of a failure. -/
def message : SchemaError → String
  | documentNotFound d none => "document not found: " ++ d.render
  | documentNotFound d (some r) =>
    "document not found: " ++ d.render ++ " (referenced from '" ++ r ++ "')"
  | documentRead d reason => "cannot read document " ++ d.render ++ ": " ++ reason.message
  | documentParse d reason => "cannot parse document " ++ d.render ++ ": " ++ reason.message
  | unresolvedPointer d pointer segment =>
    "unresolved pointer segment '" ++ segment ++ "' in '" ++ pointer ++ "' (document " ++
      d.render ++ ")"
  | invalidReference reference reason =>
    "invalid reference '" ++ reference ++ "': " ++ reason.message
  | cyclicReference chain =>
    "cyclic reference: " ++ String.intercalate " -> " (chain.map Identity.render)
  | referenceChainTooLong limit reference =>
    "reference chain exceeded " ++ toString limit ++ " hops at '" ++ reference ++ "'"
  | depthExceeded limit place =>
    "validation depth exceeded " ++ toString limit ++ " at " ++ place.render
  | invalidPattern pattern place =>
    "invalid pattern '" ++ pattern ++ "' at " ++ place.render ++ ": <regex>"
  | engineBuild schema => "cannot build validator for schema " ++ schema.render ++ ": <engine>"

end SchemaError

end LinkedSchema
