import LinkedSchema.Json.Pointer

/-!
# Locators

A `Locator` names a place in an instance by the steps that lead to it, member names and item
indices. It is written from `$`, as in `$.sections[2].title`. `Locator.ofPointer` reads a pointer
along an instance: a number is an index only where the instance holds an array.
-/

namespace LinkedSchema

/-- One step down in an instance. -/
inductive Step where
  /-- To the member with a name. -/
  | name (name : String)
  /-- To the item at an index. -/
  | index (index : Nat)
deriving DecidableEq, Repr

/-- The written form of a step. -/
def Step.render : Step → String
  | name n => "." ++ n
  | index i => "[" ++ toString i ++ "]"

/-- A place in an instance. -/
structure Locator where
  /-- The steps from the root, the topmost first. -/
  steps : List Step
deriving DecidableEq, Repr, Inhabited

namespace Locator

/-- The root of an instance. -/
def root : Locator := ⟨[]⟩

/-- The place one step further down. -/
def push (l : Locator) (s : Step) : Locator := ⟨l.steps ++ [s]⟩

/-- The place of a member. -/
def property (l : Locator) (name : String) : Locator := l.push (.name name)

/-- The place of an item. -/
def index (l : Locator) (i : Nat) : Locator := l.push (.index i)

/-- The written form of a locator. -/
def render (l : Locator) : String := "$" ++ String.join (l.steps.map Step.render)

/-- The segment of a step. -/
def segment : Step → String
  | .name n => Pointer.escape n
  | .index i => toString i

/-- The pointer of a locator: each step as a slash and a segment. -/
def toPointer (l : Locator) : String := String.join (l.steps.map fun s => "/" ++ segment s)

/-- Reads names as steps along an instance; past a place that does not exist every name is a
member. -/
def stepsAlong : Option Json → List String → List Step
  | _, [] => []
  | current, name :: rest =>
    match current, natural? name with
    | some (.arr items), some i => .index i :: stepsAlong items[i]? rest
    | current, _ => .name name :: stepsAlong (current.bind (·.member? name)) rest

/-- The locator of a pointer into an instance. All slashes at the start of the pointer are
dropped. -/
def ofPointer (pointer : String) (instanceValue : Json) : Locator :=
  if pointer.isEmpty then root
  else
    let path := String.ofList (pointer.toList.dropWhile (· == '/'))
    ⟨stepsAlong (some instanceValue) (Pointer.names path)⟩

end Locator

end LinkedSchema
