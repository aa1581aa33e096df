import LinkedSchema.Text.Split

/-!
# Locations in the file tree

A `Location` is an absolute place, given by the names on the way down from the root; no name is
empty, `.` or `..`. A path as written is a string, and `Location.resolve` reads it against a
directory: empty and `.` components stand still, `..` goes up and stays at the root. Two spellings
of one place therefore resolve to one location, and a location is the identity of a document.
-/

namespace LinkedSchema

/-- An absolute place in the file tree: the names on the way down from the root. -/
structure Location where
  /-- The names, the topmost first. -/
  names : List String
deriving DecidableEq, Repr, Inhabited, Hashable

/-- True of paths that start at the root. -/
def isAbsolutePath (path : String) : Bool := path.toList.head? == some '/'

/-- The components of a path, as written between its slashes. -/
def pathComponents (path : String) : List String := Text.split '/' path

/-- A path read from inside a directory that is itself given by a path: an absolute path stands for
itself, any other is appended after a slash. -/
def joinPaths (directory path : String) : String :=
  if isAbsolutePath path then path
  else if directory.toList.isEmpty || directory.toList.getLast? == some '/' then directory ++ path
  else directory ++ "/" ++ path

namespace Location

/-- The root of the file tree. -/
def root : Location := ⟨[]⟩

/-- One component of a path taken from a directory. -/
def step (names : List String) (component : String) : List String :=
  if component = "" ∨ component = "." then names
  else if component = ".." then names.dropLast
  else names ++ [component]

/-- A path read against a directory. -/
def resolve (directory : Location) (path : String) : Location :=
  let start := if isAbsolutePath path then [] else directory.names
  ⟨(pathComponents path).foldl step start⟩

/-- The directory of a location; that of the root is the root. -/
def parent (l : Location) : Location := ⟨l.names.dropLast⟩

/-- The location with its slashes. -/
def render (l : Location) : String := "/" ++ String.intercalate "/" l.names

/-- The last name of a location, without its extension and the extension alone. The extension
follows the last dot, and a name that starts with its only dot has none. -/
def extension? (l : Location) : Option String := do
  let name ← l.names.getLast?
  let reversed := name.toList.reverse
  let stem := (reversed.dropWhile (· ≠ '.')).drop 1
  if stem.isEmpty then none
  else some (String.ofList (reversed.takeWhile (· ≠ '.')).reverse)

end Location

/-- The directory part of a path as written, nothing when the path has no directory part. Slashes
and `.` components around the last name belong to neither. -/
def directoryPath (path : String) : String :=
  let idle (component : String) : Bool := component = "" || component = "."
  let above := (((pathComponents path).reverse.dropWhile idle).drop 1).dropWhile idle
  let text := String.intercalate "/" above.reverse
  if isAbsolutePath path && text.isEmpty then "/" else text

end LinkedSchema
