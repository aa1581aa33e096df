import LinkedSchema.Draft7.Registry
import LinkedSchema.Draft7.Rule

/-!
# Well-formed schemas

A schema is well formed when every node that can be reached from its root can be read, and every
reference there leads to a node. The walk visits what a reference leads to once, however often it
is reached, so that it ends on recursive schemas; every other step leads to a smaller value.
-/

namespace LinkedSchema.Draft7

/-- The addresses of the nodes that references led to so far. -/
abbrev Reached := List Address

/-- Visits nodes one after the other. -/
def visitAll (visit : Json → Reached → Option Reached) : List Json → Reached → Option Reached
  | [], reached => some reached
  | node :: rest, reached => (visit node reached).bind (visitAll visit rest)

/-- The walk below a node in the document with a given URI, with so many levels left. Nothing is
returned where the schema is not well formed. -/
def survey (registry : Registry) : (levels : Nat) → Uri → Json → Reached → Option Reached
  | 0, _, _, _ => none
  | levels + 1, base, node, reached =>
    match Node.read? node with
    | none => none
    | some .always => some reached
    | some .never => some reached
    | some (.reference text) =>
      match registry.follow? base text with
      | none => none
      | some target =>
        if target.address ∈ reached then some reached
        else
          survey registry levels target.address.document target.node (target.address :: reached)
    | some (.rules rules) =>
      visitAll (survey registry levels base) (rules.flatMap Rule.subschemas) reached

/-- How many values the documents of a registry hold together. -/
def Registry.size (registry : Registry) : Nat := (registry.documents.map (·.2.size)).foldr (· + ·) 0

/-- How many addresses references can lead to at most: a reference is a value and is read against
the URI of one of the documents. -/
def Registry.addressBound (registry : Registry) : Nat := registry.size * registry.documents.length

/-- How many levels the walk needs: at most one run of shrinking values for each address, and one
from the root. -/
def Registry.levels (registry : Registry) : Nat :=
  (registry.addressBound + 1) * (registry.size + 1) + 1

/-- Whether a schema is well formed. -/
def isWellFormed (registry : Registry) (u : Uri) (root : Json) : Bool :=
  (survey registry registry.levels u root [⟨u, []⟩]).isSome

end LinkedSchema.Draft7
