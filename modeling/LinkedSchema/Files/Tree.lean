import LinkedSchema.Files.Location

/-!
# The file tree

A `FileTree` is a snapshot of the files and directories that a run can see, with the directory in
which the run takes place. Reading walks a path component by component as it is written, so that a
path through a missing directory fails even where a later `..` would leave it again, and a path
that ends in a slash must name a directory.
-/

namespace LinkedSchema

/-- What a place in the file tree holds. -/
inductive Entry where
  | directory
  | file (content : ByteArray)

/-- Why a path cannot be read. -/
inductive AccessFailure where
  | notFound
  | notADirectory
  | isADirectory
  | nameTooLong
  | containsNul
  | notText
deriving DecidableEq, Repr

/-- The wording of a failed access. -/
def AccessFailure.message : AccessFailure → String
  | notFound => "No such file or directory (os error 2)"
  | notADirectory => "Not a directory (os error 20)"
  | isADirectory => "Is a directory (os error 21)"
  | nameTooLong => "File name too long (os error 36)"
  | containsNul => "file name contained an unexpected NUL byte"
  | notText => "stream did not contain valid UTF-8"

/-- A snapshot of files and directories. The root and the working directory are always there. -/
structure FileTree where
  /-- The directory against which relative paths are read. There always is one: what becomes of a
  relative path where the system cannot tell the directory is left out. -/
  workingDirectory : Location
  /-- Everything else that exists, each place once. -/
  entries : List (Location × Entry)

namespace FileTree

/-- The tree in which the directories down to the working directory are all there is. -/
def empty (workingDirectory : Location) : FileTree := ⟨workingDirectory, []⟩

/-- What stands at a location. -/
def find? (files : FileTree) (l : Location) : Option Entry :=
  if l.names.isPrefixOf files.workingDirectory.names then some .directory
  else files.entries.lookup l

/-- The location that a path names, relative paths being read in the working directory. -/
def locate (files : FileTree) (path : String) : Location :=
  files.workingDirectory.resolve path

/-- The longest name of a file or directory, in bytes. -/
def maxNameBytes : Nat := 255

/-- The length in bytes from which on a path is too long. -/
def maxPathBytes : Nat := 4096

/-- Follows the components of a path from a location. -/
def walk (files : FileTree) : List String → Location → Except AccessFailure Location
  | [], place => .ok place
  | component :: rest, place =>
    match files.find? place with
    | none => .error .notFound
    | some (.file _) => .error .notADirectory
    | some .directory =>
      if component = "" ∨ component = "." then walk files rest place
      else if component = ".." then walk files rest place.parent
      else if maxNameBytes < component.utf8ByteSize then .error .nameTooLong
      else
        let next : Location := ⟨place.names ++ [component]⟩
        match files.find? next with
        | none => .error .notFound
        | some _ => walk files rest next

/-- What a path names. -/
def stat (files : FileTree) (path : String) : Except AccessFailure Entry := do
  if path.toList.any (· == '\x00') then throw .containsNul
  if path.isEmpty then throw .notFound
  if maxPathBytes ≤ path.utf8ByteSize then throw .nameTooLong
  let start := if isAbsolutePath path then Location.root else files.workingDirectory
  let place ← files.walk (pathComponents path) start
  match files.find? place with
  | none => throw .notFound
  | some entry => pure entry

/-- Whether a path names anything. -/
def pathExists (files : FileTree) (path : String) : Bool :=
  match files.stat path with
  | .ok _ => true
  | .error _ => false

/-- The text of the file that a path names. -/
def readText (files : FileTree) (path : String) : Except AccessFailure String := do
  match ← files.stat path with
  | .directory => throw .isADirectory
  | .file content =>
    match String.fromUTF8? content with
    | none => throw .notText
    | some text => pure text

/-- The tree with an entry at a location, in place of what stood there. -/
def put (files : FileTree) (l : Location) (entry : Entry) : FileTree :=
  { files with entries := (l, entry) :: files.entries.filter (·.1 ≠ l) }

/-- The tree with a directory at a location and all directories above it. -/
def makeDirectory (files : FileTree) (l : Location) : FileTree :=
  (inits l.names).foldl (fun files names =>
    match files.find? ⟨names⟩ with
    | some _ => files
    | none => files.put ⟨names⟩ .directory) files
where
  /-- The ways down to a location and to every directory above it, the shortest first. -/
  inits : List String → List (List String)
    | [] => [[]]
    | name :: rest => [] :: (inits rest).map (name :: ·)

/-- The tree with a file at a location and all directories above it. -/
def write (files : FileTree) (l : Location) (content : ByteArray) : FileTree :=
  (files.makeDirectory l.parent).put l (.file content)

/-- The tree without a location and all that lies below it. -/
def remove (files : FileTree) (l : Location) : FileTree :=
  { files with entries := files.entries.filter fun e => !l.names.isPrefixOf e.1.names }

end FileTree

end LinkedSchema
