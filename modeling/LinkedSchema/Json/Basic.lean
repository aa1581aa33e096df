import LinkedSchema.Number.Literal

/-!
# JSON values

A value keeps the members of an object in the order of the document. Readers build objects with
`putMember`, so that every name occurs once: a repeated name keeps its first position and takes
its last value.
-/

namespace LinkedSchema

/-- A JSON value. -/
inductive Json where
  | null
  | bool (b : Bool)
  | num (n : Number)
  | str (s : String)
  | arr (items : List Json)
  | obj (members : List (String × Json))
deriving Repr, Inhabited

/-- The members of an object, in order. -/
abbrev Members := List (String × Json)

/-- The value of a member is replaced where it stands, a new member comes last. -/
def putMember {α : Type} (members : List (String × α)) (name : String) (value : α) :
    List (String × α) :=
  match members with
  | [] => [(name, value)]
  | (k, v) :: rest =>
    if k = name then (k, value) :: rest else (k, v) :: putMember rest name value

namespace Json

/-- The member of an object by its name; other values have none. -/
def member? : Json → String → Option Json
  | obj members, name => members.lookup name
  | _, _ => none

/-- The text of a string. -/
def text? : Json → Option String
  | str s => some s
  | _ => none

/-- The number of a numeric value. -/
def number? : Json → Option Number
  | num n => some n
  | _ => none

/-- The items of an array. -/
def items? : Json → Option (List Json)
  | arr items => some items
  | _ => none

/-- The members of an object. -/
def members? : Json → Option Members
  | obj members => some members
  | _ => none

/-- True of objects. -/
def isObject : Json → Bool
  | obj _ => true
  | _ => false

/-- An integer as a value. -/
def ofNat (n : Nat) : Json := num (.int n)

/-- The integer behind a value that is one. -/
def int? : Json → Option Int
  | num (.int n) => some n
  | _ => none

mutual

/-- How many values a value holds, itself included. -/
def size : Json → Nat
  | arr items => sizeItems items + 1
  | obj members => sizeMembers members + 1
  | _ => 1

/-- How many values the items of an array hold. -/
def sizeItems : List Json → Nat
  | [] => 0
  | v :: rest => v.size + sizeItems rest

/-- How many values the members of an object hold. -/
def sizeMembers : Members → Nat
  | [] => 0
  | (_, v) :: rest => v.size + sizeMembers rest

end

mutual

/-- How deep a value nests: a scalar has height zero. -/
def height : Json → Nat
  | arr items => heightItems items
  | obj members => heightMembers members
  | _ => 0

/-- One more than the greatest height among the items of an array; zero when there are none. -/
def heightItems : List Json → Nat
  | [] => 0
  | v :: rest => max (v.height + 1) (heightItems rest)

/-- One more than the greatest height among the members of an object; zero when there are
none. -/
def heightMembers : Members → Nat
  | [] => 0
  | (_, v) :: rest => max (v.height + 1) (heightMembers rest)

end

end Json

end LinkedSchema
