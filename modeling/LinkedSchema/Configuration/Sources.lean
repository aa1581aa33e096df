import LinkedSchema.Configuration.Settings
import LinkedSchema.Yaml.Fields

/-!
# Where settings come from

Settings start as the defaults and are changed, field by field, by a file, then by environment
variables, then by the flags of the command line. Every source must be sound, also where a later one
overrides it; of several faults the one of the earliest source is reported.
-/

namespace LinkedSchema

namespace Config

/-- The fields that a file may set. -/
def fieldNames : List String :=
  ["engine", "max_ref_chain", "max_depth", "verbose_any_of", "share_cache"]

/-- The settings of a record: the defaults, but for the fields that it has. -/
def ofNode? (n : Yaml.Node) : Option Config := do
  let fields ← n.fields? fieldNames
  let engine ← Yaml.Node.field? fields "engine" (Yaml.Node.choice? EngineChoice.ofName?)
  let maxRefChain ← Yaml.Node.field? fields "max_ref_chain" Yaml.Node.natural?
  let maxDepth ← Yaml.Node.field? fields "max_depth" Yaml.Node.natural?
  let verboseAnyOf ← Yaml.Node.field? fields "verbose_any_of" Yaml.Node.bool?
  let shareCache ← Yaml.Node.field? fields "share_cache" Yaml.Node.bool?
  let standard : Config := {}
  some
    { engine := engine.getD standard.engine
      maxRefChain := maxRefChain.getD standard.maxRefChain
      maxDepth := maxDepth.getD standard.maxDepth
      verboseAnyOf := verboseAnyOf.getD standard.verboseAnyOf
      shareCache := shareCache.getD standard.shareCache }

/-- The settings of a YAML text; an empty text holds the defaults. -/
def ofText? (text : String) : Option Config := do
  match ← Yaml.Node.ofText? text with
  | none => some {}
  | some node => ofNode? node

/-- The settings of a file. -/
def ofFile (files : FileTree) (path : String) : Except ConfigError Config :=
  match files.readText path with
  | .error reason => .error (.unreadable path reason)
  | .ok text =>
    match ofText? text with
    | none => .error (.malformed path)
    | some config => .ok config

end Config

/-- The variables of the environment. -/
abbrev Environment := List (String × String)

/-- The value of a variable, if it is set; it must be one that the reader accepts. -/
def readVariable {α : Type} (env : Environment) (name : String) (read? : String → Option α) :
    Except ConfigError (Option α) :=
  match env.lookup name with
  | none => .ok none
  | some raw =>
    match read? raw with
    | none => .error (.invalid name raw)
    | some value => .ok (some value)

/-- The settings changed by the variables that are set. -/
def Config.withEnvironment (config : Config) (env : Environment) : Except ConfigError Config := do
  let engine ← readVariable env "BRAND_SCHEMA_ENGINE" fun raw => (EngineChoice.read raw).toOption
  let maxRefChain ← readVariable env "BRAND_SCHEMA_MAX_REF_CHAIN" readCeiling?
  let maxDepth ← readVariable env "BRAND_SCHEMA_MAX_DEPTH" readCeiling?
  let verboseAnyOf ← readVariable env "BRAND_SCHEMA_VERBOSE_ANYOF" readSwitch?
  let shareCache ← readVariable env "BRAND_SCHEMA_SHARE_CACHE" readSwitch?
  pure
    { engine := engine.getD config.engine
      maxRefChain := maxRefChain.getD config.maxRefChain
      maxDepth := maxDepth.getD config.maxDepth
      verboseAnyOf := verboseAnyOf.getD config.verboseAnyOf
      shareCache := shareCache.getD config.shareCache }

/-- The flags of the command line that change settings. -/
structure Flags where
  /-- The engine, if it is given. -/
  engine : Option EngineChoice := none
  /-- Whether the violations of alternatives are asked for. -/
  verboseAnyOf : Bool := false
  /-- The ceiling on references, if it is given. -/
  maxRefChain : Option Nat := none
  /-- The ceiling on depth, if it is given. -/
  maxDepth : Option Nat := none
deriving DecidableEq, Repr

/-- Why a configuration cannot be put together. -/
inductive SetupError where
  /-- The file is at fault. -/
  | file (path : String) (cause : ConfigError)
  /-- The environment is at fault. -/
  | environment (cause : ConfigError)
  /-- A ceiling on the command line is zero. -/
  | zeroCeiling (flag : String)
deriving DecidableEq, Repr

namespace SetupError

/-- The name of the kind of error. -/
def kind : SetupError → String
  | file _ cause => cause.kind
  | environment cause => cause.kind
  | zeroCeiling _ => "Message"

/-- The wording of an error. -/
def message : SetupError → String
  | file path cause => "loading config " ++ path ++ ": " ++ cause.message
  | environment cause => "reading BRAND_SCHEMA_* environment: " ++ cause.message
  | zeroCeiling flag => flag ++ " must be at least 1"

end SetupError

/-- A ceiling given as a flag, which must be positive. -/
def checkCeiling (flag : String) (value : Option Nat) : Except SetupError Unit :=
  if value = some 0 then .error (.zeroCeiling flag) else .ok ()

/-- The settings changed by flags. -/
def Config.withFlags (config : Config) (flags : Flags) : Except SetupError Config := do
  checkCeiling "--max-ref-chain" flags.maxRefChain
  checkCeiling "--max-depth" flags.maxDepth
  pure
    { config with
      engine := flags.engine.getD config.engine
      verboseAnyOf := flags.verboseAnyOf || config.verboseAnyOf
      maxRefChain := flags.maxRefChain.getD config.maxRefChain
      maxDepth := flags.maxDepth.getD config.maxDepth }

/-- The settings from all sources: file, environment and flags. -/
def Config.build (files : FileTree) (path : Option String) (env : Environment) (flags : Flags) :
    Except SetupError Config := do
  let base ← match path with
    | none => pure {}
    | some path => (ofFile files path).mapError (SetupError.file path)
  let config ← (base.withEnvironment env).mapError SetupError.environment
  config.withFlags flags

end LinkedSchema
