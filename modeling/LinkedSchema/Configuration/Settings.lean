import LinkedSchema.Files.Tree
import LinkedSchema.Number.Literal

/-!
# Settings

A validator is configured by the choice of its engine, two ceilings and two switches. Each of them
can be written as text, in the environment or on the command line; the readers of those texts are
here.
-/

namespace LinkedSchema

/-- An engine that validates. -/
inductive EngineKind where
  /-- All of Draft 7. -/
  | draft7
  /-- The structural subset. -/
  | structural
deriving DecidableEq, Repr

/-- The name of an engine. -/
def EngineKind.name : EngineKind → String
  | draft7 => "draft7"
  | structural => "structural"

/-- The engine that is asked for. -/
inductive EngineChoice where
  /-- The best there is. -/
  | auto
  /-- All of Draft 7. -/
  | draft7
  /-- The structural subset. -/
  | structural
deriving DecidableEq, Repr

namespace EngineChoice

/-- The name of a choice. -/
def name : EngineChoice → String
  | auto => "auto"
  | draft7 => "draft7"
  | structural => "structural"

/-- The choice with exactly a given name. -/
def ofName? (s : String) : Option EngineChoice :=
  [auto, draft7, structural].find? (·.name == s)

/-- The engine that a choice selects. -/
def select : EngineChoice → EngineKind
  | auto => .draft7
  | draft7 => .draft7
  | structural => .structural

/-- Reads a choice, blanks around it and the case of its letters being ignored; on failure the text
that was looked for is returned. -/
def read (s : String) : Except String EngineChoice :=
  let wanted := Text.lower (Text.trim s)
  if wanted = "auto" then .ok auto
  else if wanted = "draft7" ∨ wanted = "draft-7" then .ok draft7
  else if wanted = "structural" ∨ wanted = "builtin" then .ok structural
  else .error wanted

/-- The wording of a choice that is not known. -/
def unknownMessage (wanted : String) : String :=
  "unknown engine '" ++ wanted ++ "' (expected auto, draft7 or structural)"

end EngineChoice

/-- The settings of a validator. -/
structure Config where
  /-- The engine that is asked for. -/
  engine : EngineChoice := .auto
  /-- How many references may follow each other at one place of the instance. -/
  maxRefChain : Nat := 64
  /-- How deep the structural walk may go. -/
  maxDepth : Nat := 512
  /-- Whether the violations of every alternative are reported when none matches. -/
  verboseAnyOf : Bool := false
  /-- Whether schemas stay loaded from one validation to the next. -/
  shareCache : Bool := false
deriving DecidableEq, Repr

/-- A ceiling written as text: a positive number of 64 bits, with blanks around it or none. -/
def readCeiling? (s : String) : Option Nat := (natural? (Text.trim s)).filter (0 < ·)

/-- A switch written as text, blanks around it and the case of its letters being ignored. -/
def readSwitch? (s : String) : Option Bool :=
  let wanted := Text.lower (Text.trim s)
  if ["1", "true", "yes", "on"].contains wanted then some true
  else if ["0", "false", "no", "off"].contains wanted then some false
  else none

/-- Why settings cannot be had from a file or the environment. -/
inductive ConfigError where
  /-- The file cannot be read. -/
  | unreadable (path : String) (reason : AccessFailure)
  /-- The file does not hold settings. -/
  | malformed (path : String)
  /-- A variable has a value that means nothing. -/
  | invalid (name : String) (value : String)
deriving DecidableEq, Repr

namespace ConfigError

/-- The name of the kind of error. -/
def kind : ConfigError → String
  | unreadable .. => "ConfigRead"
  | malformed .. => "ConfigParse"
  | invalid .. => "ConfigInvalid"

/-- The wording of an error. -/
def message : ConfigError → String
  | unreadable path reason => "cannot read config file " ++ path ++ ": " ++ reason.message
  | malformed path => "invalid config file " ++ path ++ ": <yaml>"
  | invalid name value => "invalid value for " ++ name ++ ": '" ++ value ++ "'"

end ConfigError

end LinkedSchema
