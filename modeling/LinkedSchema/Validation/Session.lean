import LinkedSchema.Configuration.Settings
import LinkedSchema.Draft7.Engine
import LinkedSchema.Validation.Structural

/-!
# Validators and sessions

A validator checks instances against schemas that are named by path. Its store either lives for one
validation, or is kept from one validation to the next, or is lent by whoever owns the session. A
session puts a validator next to the files it reads and to a store of its own; everything that can
happen to them is an operation on sessions.
-/

namespace LinkedSchema

/-- Validates an instance against a loaded schema by the engine of a configuration. -/
def Config.validate (config : Config) (files : Texts) (schema : Document) (v : Json) :
    Loading Report :=
  match config.engine.select with
  | .draft7 => Draft7.validate files config.maxRefChain schema v
  | .structural =>
    Structural.validate files ⟨config.maxRefChain, config.maxDepth, config.verboseAnyOf⟩ schema v

/-- Validates an instance, unless reading it failed, against the schema at a location. The schema is
read first. -/
def Config.validateAt (config : Config) (schemas : Texts) (schema : Location)
    (v : Except SchemaError Json) : Loading Report := do
  let schema ← loadDocument schemas schema none
  let v ← ExceptT.mk (pure v)
  config.validate schemas schema v

/-- Validates an instance against the schema at a path. -/
def Config.validateValue (config : Config) (files : FileTree) (schema : String) (v : Json) :
    Loading Report :=
  config.validateAt files (files.locate schema) (.ok v)

/-- Validates the document at one path against the schema at another. -/
def Config.validateFile (config : Config) (files : FileTree) (schema data : String) :
    Loading Report :=
  config.validateAt files (files.locate schema) (Document.readValue files (files.locate data) none)

/-- The store that a validator loads schemas into. -/
inductive StoreUse where
  /-- A fresh one for every validation. -/
  | fresh
  /-- One of its own that is kept. -/
  | kept (store : Store)
  /-- The one that its session lends. -/
  | lent

/-- A configured validator. -/
structure Validator where
  config : Config
  storeUse : StoreUse

/-- The validator of a configuration. -/
def Validator.ofConfig (config : Config) : Validator :=
  ⟨config, if config.shareCache then .kept .empty else .fresh⟩

/-- A validator with the files it reads and a store that it may be lent. -/
structure Session where
  validator : Validator
  files : FileTree
  own : Store

namespace Session

/-- A session that starts with a validator of a configuration and an empty store. -/
def start (config : Config) (files : FileTree) : Session :=
  ⟨.ofConfig config, files, .empty⟩

/-- The session with the validator of another configuration. -/
def reconfigure (s : Session) (config : Config) : Session :=
  { s with validator := .ofConfig config }

/-- The session in which the validator uses the store of the session. -/
def lend (s : Session) : Session := { s with validator := ⟨s.validator.config, .lent⟩ }

/-- The store that outlives a validation, if the validator has one. -/
def shared? (s : Session) : Option Store :=
  match s.validator.storeUse with
  | .fresh => none
  | .kept store => some store
  | .lent => some s.own

/-- The session after the store of its validator has become another one. -/
def withShared (s : Session) (store : Store) : Session :=
  match s.validator.storeUse with
  | .fresh => s
  | .kept _ => { s with validator := ⟨s.validator.config, .kept store⟩ }
  | .lent => { s with own := store }

/-- Runs a computation on the store of the validator. -/
def run {α : Type} (s : Session) (action : Loading α) : Except SchemaError α × Session :=
  let (outcome, store) := action.runOn (s.shared?.getD .empty)
  (outcome, s.withShared store)

/-- Validates the document at one path against the schema at another. -/
def validateFile (s : Session) (schema data : String) : Except SchemaError Report × Session :=
  s.run (s.validator.config.validateFile s.files schema data)

/-- Validates an instance against the schema at a path. -/
def validateValue (s : Session) (schema : String) (v : Json) :
    Except SchemaError Report × Session :=
  s.run (s.validator.config.validateValue s.files schema v)

/-- Validates two files with the standard configuration, apart from the validator of the session. -/
def validateOnce (s : Session) (schema data : String) : Except SchemaError Report :=
  ((start {} s.files).validateFile schema data).1

/-- Empties the store of the validator. -/
def reset (s : Session) : Session := s.withShared .empty

/-- Empties the store of the session. -/
def clear (s : Session) : Session := { s with own := .empty }

/-- Loads a document into the store of the session. -/
def load (s : Session) (path : String) (referencedFrom : Option String) :
    Except SchemaError Document × Session :=
  let (outcome, store) :=
    (loadDocument s.files (s.files.locate path) referencedFrom).runOn s.own
  (outcome, { s with own := store })

/-- Puts a value into the store of the session, unless its place is taken. -/
def insert (s : Session) (path : String) (root : Json) : Document × Session :=
  let (d, store) := s.own.add ⟨s.files.locate path, root⟩
  (d, { s with own := store })

/-- Writes a file. -/
def write (s : Session) (path : String) (content : ByteArray) : Session :=
  { s with files := s.files.write (s.files.locate path) content }

/-- Makes a directory. -/
def makeDirectory (s : Session) (path : String) : Session :=
  { s with files := s.files.makeDirectory (s.files.locate path) }

/-- Removes a file or a directory. -/
def remove (s : Session) (path : String) : Session :=
  { s with files := s.files.remove (s.files.locate path) }

end Session

end LinkedSchema
