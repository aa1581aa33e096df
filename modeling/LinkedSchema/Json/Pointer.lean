import LinkedSchema.Json.Basic
import LinkedSchema.Text.Split

/-!
# Pointers into a document

A pointer is a text of segments between slashes; in a segment `~1` stands for a slash and `~0` for
a tilde. `Pointer.normalize` drops one leading `#` and then one leading slash, which gives the
spelling that identities use, the whole document being the empty text. `Pointer.find` goes down
from a value, a segment being the name of a member or the index of an item.
-/

namespace LinkedSchema.Pointer

/-- A text without one leading character, if it starts with that character. -/
def dropLead (lead : Char) : List Char → List Char
  | [] => []
  | c :: rest => if c = lead then rest else c :: rest

/-- A pointer without one leading `#` and then one leading slash. -/
def normalize (pointer : String) : String :=
  String.ofList (dropLead '/' (dropLead '#' pointer.toList))

/-- A text in which every tilde followed by a mark is replaced, from left to right. -/
def replaceTilde (mark replacement : Char) : List Char → List Char
  | '~' :: c :: rest =>
    if c = mark then replacement :: replaceTilde mark replacement rest
    else '~' :: replaceTilde mark replacement (c :: rest)
  | c :: rest => c :: replaceTilde mark replacement rest
  | [] => []

/-- A segment as a name: `~1` is read before `~0`. -/
def unescape (segment : String) : String :=
  String.ofList (replaceTilde '0' '~' (replaceTilde '1' '/' segment.toList))

/-- A name as a segment. -/
def escape (name : String) : String :=
  String.ofList (name.toList.flatMap fun c =>
    if c = '~' then ['~', '0'] else if c = '/' then ['~', '1'] else [c])

/-- The names that the segments of a normalized pointer stand for. -/
def names (pointer : String) : List String := (Text.split '/' pointer).map unescape

/-- A normalized pointer with one more name. -/
def child (pointer name : String) : String :=
  if pointer.isEmpty then escape name else pointer ++ "/" ++ escape name

/-- One step down: a name selects a member of an object, and a number an item of an array. -/
def step? (v : Json) (name : String) : Option Json :=
  match v with
  | .obj members => members.lookup name
  | .arr items => (natural? name).bind (items[·]?)
  | _ => none

/-- Goes down by one name after the other; on failure the name that leads nowhere is returned. -/
def descend (v : Json) : List String → Except String Json
  | [] => .ok v
  | name :: rest =>
    match step? v name with
    | none => .error name
    | some next => descend next rest

/-- The value that a pointer names in a document, or the first name that leads nowhere. -/
def find (root : Json) (pointer : String) : Except String Json :=
  let path := normalize pointer
  if path.isEmpty then .ok root else descend root (names path)

end LinkedSchema.Pointer
