import LinkedSchema.Validation.Session

/-!
# Outcomes of commands

A command ends with an exit code and what it has written, or with a failure. A failure says what
was being done when its cause arose, and then the cause.
-/

namespace LinkedSchema

/-- What a command that ran to its end leaves. -/
structure Outcome where
  /-- Zero when everything was valid, else one. -/
  code : Nat
  /-- What was written to standard output. -/
  output : String
deriving DecidableEq, Repr

/-- Why a command did not run to its end. -/
inductive CommandError where
  /-- The check of one document failed. -/
  | check (schema data : String) (cause : SchemaError)
  /-- The manifest cannot be read. -/
  | manifestUnreadable (path : String) (cause : AccessFailure)
  /-- The manifest is malformed. -/
  | manifestMalformed (path : String)
  /-- The check of an entry of the manifest failed. -/
  | entry (label : String) (cause : SchemaError)
deriving DecidableEq, Repr

namespace CommandError

/-- The name of the kind of the cause. -/
def kind : CommandError → String
  | check _ _ cause => cause.kind
  | manifestUnreadable .. => "Io"
  | manifestMalformed _ => "ManifestParse"
  | entry _ cause => cause.kind

/-- The wording of a failure: what was being done, and the cause. -/
def message : CommandError → String
  | check schema data cause =>
    "validating " ++ data ++ " against " ++ schema ++ ": " ++ cause.message
  | manifestUnreadable path cause => "reading manifest " ++ path ++ ": " ++ cause.message
  | manifestMalformed path => "parsing manifest " ++ path ++ ": <yaml>"
  | entry label cause => "validating " ++ label ++ ": " ++ cause.message

end CommandError

/-- A heading and a list of lines under it. -/
def bulletList (heading : String) (lines : List String) : String :=
  heading ++ "\n" ++ String.join (lines.map fun line => "- " ++ line ++ "\n")

end LinkedSchema
