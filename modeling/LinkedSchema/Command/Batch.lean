import LinkedSchema.Command.Outcome
import LinkedSchema.Yaml.Fields

/-!
# Checking the entries of a manifest

A manifest lists documents with their schemas, both by paths that are read against the directory of
the manifest. The command validates one entry after the other with one store for all schemas. A
missing document is an error, or a warning where the entry is optional; a failure of the schema
machinery ends the run, and then nothing is written.
-/

namespace LinkedSchema

/-- One document of a manifest and the schema that it must satisfy. -/
structure ManifestEntry where
  /-- The path of the document. -/
  path : String
  /-- The path of the schema. -/
  schema : String
  /-- What stands in front of the violations of this entry, if it is not the path. -/
  label : Option String
  /-- Whether a missing data document is a warning and no error. -/
  optional : Bool
deriving DecidableEq, Repr

namespace ManifestEntry

/-- What stands in front of the violations of an entry. -/
def title (e : ManifestEntry) : String := e.label.getD e.path

/-- The entry of a record. -/
def ofNode? (n : Yaml.Node) : Option ManifestEntry := do
  let fields ← n.fields? ["path", "schema", "label", "optional"]
  let path ← (fields.lookup "path").bind Yaml.Node.text?
  let schema ← (fields.lookup "schema").bind Yaml.Node.text?
  let label ← Yaml.Node.field? fields "label" fun v =>
    if v.isAbsent then some none else v.text?.map some
  let optional ← Yaml.Node.field? fields "optional" Yaml.Node.bool?
  some ⟨path, schema, label.join, optional.getD false⟩

end ManifestEntry

/-- The entries of a manifest in order. -/
abbrev Manifest := List ManifestEntry

namespace Manifest

/-- The manifest of a record. -/
def ofNode? (n : Yaml.Node) : Option Manifest := do
  let fields ← n.fields? ["entries"]
  let entries ← fields.lookup "entries"
  let items ← entries.items?
  items.mapM ManifestEntry.ofNode?

/-- The manifest of a YAML text. -/
def ofText? (text : String) : Option Manifest := do
  let node ← Yaml.Node.ofText? text
  node.bind ofNode?

/-- Reads the manifest at a path. -/
def read (files : FileTree) (path : String) : Except CommandError Manifest :=
  match files.readText path with
  | .error cause => .error (.manifestUnreadable path cause)
  | .ok text =>
    match ofText? text with
    | none => .error (.manifestMalformed path)
    | some manifest => .ok manifest

end Manifest

/-- What has been found in the entries of a manifest. -/
structure BatchFindings where
  /-- The missing documents of optional entries. -/
  warnings : List String
  /-- The violations, and the missing documents of other entries. -/
  errors : List String
  /-- How many documents were validated. -/
  checked : Nat
deriving DecidableEq, Repr

namespace BatchFindings

/-- Nothing found. -/
def none : BatchFindings := ⟨[], [], 0⟩

/-- The findings of two runs of entries, one after the other. -/
def append (a b : BatchFindings) : BatchFindings :=
  ⟨a.warnings ++ b.warnings, a.errors ++ b.errors, a.checked + b.checked⟩

/-- A missing document. -/
def missing (optional : Bool) (message : String) : BatchFindings :=
  if optional then ⟨[message], [], 0⟩ else ⟨[], [message], 0⟩

/-- A validated document. -/
def validated (title : String) (report : Report) : BatchFindings :=
  ⟨[], report.lines.map fun line => title ++ ": " ++ line, 1⟩

/-- What is written about the findings. -/
def outcome (f : BatchFindings) : Outcome :=
  let warnings := if f.warnings.isEmpty then "" else bulletList "Warnings:" f.warnings
  if f.errors.isEmpty then
    ⟨0, warnings ++ "Validation passed (" ++ toString f.checked ++ " documents).\n"⟩
  else ⟨1, warnings ++ bulletList "Validation failed:" f.errors⟩

end BatchFindings

/-- The findings of one entry, whose paths are read against a directory. -/
def checkEntry (base : String) (e : ManifestEntry) (s : Session) :
    Except CommandError BatchFindings × Session :=
  let data := joinPaths base e.path
  let schema := joinPaths base e.schema
  if !s.files.pathExists data then
    let message :=
      if e.optional then "Missing optional file: " ++ e.title
      else "Missing expected output: " ++ e.title
    (.ok (.missing e.optional message), s)
  else if !s.files.pathExists schema then
    let message := "Missing schema: " ++ e.schema ++ " (for " ++ e.title ++ ")"
    (.ok (.missing e.optional message), s)
  else
    match s.validateFile schema data with
    | (.error cause, s) => (.error (.entry e.title cause), s)
    | (.ok report, s) => (.ok (.validated e.title report), s)

/-- The findings of entries one after the other, up to the first failure. -/
def checkEntries (base : String) : Manifest → Session → Except CommandError BatchFindings
  | [], _ => .ok .none
  | e :: rest, s =>
    match checkEntry base e s with
    | (.error failure, _) => .error failure
    | (.ok found, s) => (checkEntries base rest s).map found.append

/-- Validates every entry of the manifest at a path. -/
def runBatch (files : FileTree) (config : Config) (manifest : String) :
    Except CommandError Outcome := do
  let entries ← Manifest.read files manifest
  let session := Session.start { config with shareCache := true } files
  let findings ← checkEntries (directoryPath manifest) entries session
  pure findings.outcome

end LinkedSchema
