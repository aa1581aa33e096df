import LinkedSchema.Command.Batch
import LinkedSchema.Command.Check
import LinkedSchema.Configuration.Sources

/-!
# The command line

The program is called as `brand-schema [options] check [options] <schema> <data>` or
`brand-schema [options] batch [options] <manifest>`. Options that change settings may stand in front
of the command and behind it, where the later one counts; in either place an option with a value
stands at most once. After `--` everything is a path.

`CommandLine.run` gives the exit code and the standard output of a call: code 2 for a call that
makes no sense and for unsound settings, code 1 for a command that fails.
-/

namespace LinkedSchema

namespace CommandLine

/-- The name and version of the program. -/
def versionText : String := "brand-schema 0.1.0"

/-- A command with its arguments. -/
inductive Command where
  | check (schema data : String) (asJson : Bool)
  | batch (manifest : String)
deriving DecidableEq, Repr

/-- What a call asks for. -/
inductive Request where
  /-- The version. -/
  | version
  /-- The help text. -/
  | help
  /-- To run a command under the settings of a file, if one is named, and of flags. -/
  | command (configFile : Option String) (flags : Flags) (command : Command)
deriving DecidableEq, Repr

/-- The options of one part of the line. -/
structure Options where
  configFile : Option String := none
  flags : Flags := {}
  asJson : Bool := false

/-- The part of the line that is read. -/
inductive Part where
  /-- In front of the command. -/
  | front
  | check
  | batch
deriving DecidableEq

/-- The effect of an option with a value; the value must make sense. Nothing is returned for an
option that does not exist, and no options for a wrong or repeated one. -/
def setValue (o : Options) (name value : String) : Option (Option Options) :=
  match name with
  | "config" =>
    some (if o.configFile.isSome || value.isEmpty then none
      else some { o with configFile := some value })
  | "engine" =>
    some (match o.flags.engine, EngineChoice.read value with
      | none, .ok e => some { o with flags := { o.flags with engine := some e } }
      | _, _ => none)
  | "max-ref-chain" =>
    some (match o.flags.maxRefChain, natural? value with
      | none, some n => some { o with flags := { o.flags with maxRefChain := some n } }
      | _, _ => none)
  | "max-depth" =>
    some (match o.flags.maxDepth, natural? value with
      | none, some n => some { o with flags := { o.flags with maxDepth := some n } }
      | _, _ => none)
  | _ => none

/-- Whether an option takes a value. -/
def takesValue (name : String) : Bool :=
  ["config", "engine", "max-ref-chain", "max-depth"].contains name

/-- The effect of a switch; nothing for a switch that does not exist here or is repeated. -/
def setSwitch (part : Part) (o : Options) (name : String) : Option Options :=
  match name with
  | "verbose" => some o
  | "verbose-any-of" =>
    if o.flags.verboseAnyOf then none
    else some { o with flags := { o.flags with verboseAnyOf := true } }
  | "json" => if part = .check && !o.asJson then some { o with asJson := true } else none
  | _ => none

/-- What a part of the line comes to. -/
inductive Parsed where
  /-- It makes no sense. -/
  | refused
  /-- It asks for the version. -/
  | version
  /-- It asks for help. -/
  | help
  /-- It ends with options and paths. -/
  | done (o : Options) (paths : List String)
  /-- A command follows the options. -/
  | command (o : Options) (part : Part) (rest : List String)

/-- Reads a group of one-letter switches. -/
def readLetters (part : Part) : List Char → Option Parsed
  | [] => none
  | 'v' :: rest => readLetters part rest
  | 'h' :: _ => some .help
  | 'V' :: _ => some (if part = .front then .version else .refused)
  | _ => some .refused

/-- Whether an argument is written like an option. -/
def looksLikeOption (arg : String) : Bool :=
  arg.toList.head? == some '-' && arg != "-"

/-- Reads a part of the line. -/
def readPart (part : Part) (o : Options) (paths : List String) : List String → Parsed
  | [] => .done o paths
  | "--" :: rest => if part = .front && !rest.isEmpty then .refused else .done o (paths ++ rest)
  | arg :: rest =>
    match arg.toList with
    | '-' :: '-' :: body =>
      -- A value is attached by an equals sign or is the next argument, which is no option then.
      let (name, attached) := Text.cutBefore '=' (String.ofList body)
      if takesValue name then
        if !attached.isEmpty then
          match setValue o name (String.ofList (attached.toList.drop 1)) with
          | some (some o) => readPart part o paths rest
          | _ => .refused
        else match rest with
          | [] => .refused
          | value :: rest =>
            if looksLikeOption value then .refused
            else match setValue o name value with
              | some (some o) => readPart part o paths rest
              | _ => .refused
      else if !attached.isEmpty then .refused
      else if name = "help" then .help
      else if name = "version" && part = .front then .version
      else match setSwitch part o name with
        | some o => readPart part o paths rest
        | none => .refused
    | '-' :: c :: letters =>
      match readLetters part (c :: letters) with
      | some parsed => parsed
      | none => readPart part o paths rest
    -- In front of the command the first plain argument is the command.
    | _ =>
      if part = .front then
        if arg = "check" then .command o .check rest
        else if arg = "batch" then .command o .batch rest
        else if arg = "help" then .help
        else .refused
      else readPart part o (paths ++ [arg]) rest

/-- The options of the line as a whole: what stands behind the command counts before what stands in
front of it. -/
def merge (front behind : Options) : Options :=
  { configFile := behind.configFile.or front.configFile
    flags :=
      { engine := behind.flags.engine.or front.flags.engine
        verboseAnyOf := behind.flags.verboseAnyOf || front.flags.verboseAnyOf
        maxRefChain := behind.flags.maxRefChain.or front.flags.maxRefChain
        maxDepth := behind.flags.maxDepth.or front.flags.maxDepth }
    asJson := behind.asJson }

/-- What a line asks for, or nothing when it makes no sense. -/
def parse (args : List String) : Option Request :=
  match readPart .front {} [] args with
  | .version => some .version
  | .help => some .help
  | .command front part rest =>
    match readPart part {} [] rest with
    | .help => some .help
    | .done behind paths =>
      let o := merge front behind
      if paths.any String.isEmpty then none
      else match part, paths with
        | .check, [schema, data] =>
          some (.command o.configFile o.flags (.check schema data o.asJson))
        | .batch, [manifest] => some (.command o.configFile o.flags (.batch manifest))
        | _, _ => none
    | _ => none
  | _ => none

/-- Runs a command. -/
def Command.run (files : FileTree) (config : Config) : Command → Except CommandError Outcome
  | check schema data asJson => runCheck files config schema data asJson
  | batch manifest => runBatch files config manifest

/-- The exit code and the standard output of a call. -/
def run (files : FileTree) (env : Environment) (args : List String) : Outcome :=
  match parse args with
  | none => ⟨2, ""⟩
  | some .version => ⟨0, versionText ++ "\n"⟩
  | some .help => ⟨0, ""⟩
  | some (.command configFile flags command) =>
    match Config.build files configFile env flags with
    | .error _ => ⟨2, ""⟩
    | .ok config =>
      match command.run files config with
      | .error _ => ⟨1, ""⟩
      | .ok outcome => outcome

end CommandLine

end LinkedSchema
