import LinkedSchema.Command.Line
import LinkedSchema.Command.Mention

/-!
# The program

The outer layer reads the environment and the files that a call mentions, directly or through other
files, hands them to `CommandLine.run`, and passes on its output and exit code.
-/

namespace LinkedSchema

/-- The variables that the program looks at. -/
def readEnvironment : IO Environment := do
  let names := ["BRAND_SCHEMA_ENGINE", "BRAND_SCHEMA_MAX_REF_CHAIN", "BRAND_SCHEMA_MAX_DEPTH",
    "BRAND_SCHEMA_VERBOSE_ANYOF", "BRAND_SCHEMA_SHARE_CACHE"]
  names.filterMapM fun name => do
    pure ((← IO.getEnv name).map fun value => (name, value))

/-- What stands at a path on disk: a file, a directory, or nothing that can be read. -/
def readEntry (path : String) : IO (Option Entry) := do
  match ← (IO.FS.readBinFile path).toBaseIO with
  | .ok content => pure (some (.file content))
  | .error _ =>
    match ← (IO.FS.realPath (path ++ "/.")).toBaseIO with
    | .ok real => pure (if real.toString = path ++ "/." then none else some .directory)
    | .error _ => pure none

/-- What is known of the disk. -/
structure Snapshot where
  /-- The entries found. -/
  files : FileTree
  /-- The paths that were looked at. -/
  seen : List String
  /-- The directories in which mentioned files may stand. -/
  directories : List String
  /-- The mentioned paths. -/
  mentions : List String

/-- Adds what stands at an absolute path and on the way to it. -/
def Snapshot.look (s : Snapshot) (path : String) : IO Snapshot := do
  let mut files := s.files
  let mut directories := s.directories
  let mut mentions := s.mentions
  for step in pathsOnTheWay path do
    let place := if step.isEmpty then "/" else step
    match ← readEntry place with
    | none => pure ()
    | some entry =>
      files := files.put (files.locate place) entry
      if let .file content := entry then
        let found := ((String.fromUTF8? content).map mentionsOfText).getD []
        mentions := mentions ++ found.filter (!mentions.contains ·)
        let directory := (files.locate place).parent.render
        if !directories.contains directory then directories := directory :: directories
  pure { files, directories, mentions, seen := path :: s.seen }

/-- Looks at mentioned paths until nothing new is mentioned. -/
partial def Snapshot.complete (s : Snapshot) : IO Snapshot := do
  let candidates := s.directories.flatMap fun d => s.mentions.map (joinPaths d)
  let fresh := (candidates.filter (!s.seen.contains ·)).eraseDups
  if fresh.isEmpty then pure s
  else
    let s ← fresh.foldlM Snapshot.look s
    s.complete

/-- Runs a call. -/
def runCall (args : List String) : IO UInt32 := do
  let directory := (← IO.currentDir).toString
  let start : Snapshot :=
    { files := .empty (Location.root.resolve directory)
      seen := []
      directories := [directory]
      mentions := mentionsOfCall args }
  let snapshot ← start.complete
  let outcome := CommandLine.run snapshot.files (← readEnvironment) args
  IO.print outcome.output
  pure (UInt32.ofNat outcome.code)

end LinkedSchema

/-- The entry of the program. -/
def main (args : List String) : IO UInt32 := LinkedSchema.runCall args
