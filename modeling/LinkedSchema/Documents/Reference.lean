import LinkedSchema.Documents.Store

/-!
# References

A reference is `#` and a pointer into the current document, or the path of a file, which may be
followed by `#` and a pointer into that file. Paths are read against the directory of the document
in which the reference is written, and what is found in another file goes on in the context of that
file.

A `Chain` records the references followed one after the other at one place of an instance. It
refuses to come back to a node it holds, and to grow beyond its limit.
-/

namespace LinkedSchema

/-- Where references are read: the document that a bare pointer means, and the directory of its
file. -/
structure Context where
  /-- The directory against which file references are read. -/
  baseDirectory : Location
  /-- The current document. -/
  root : Document
deriving Repr

/-- The context of what is written in a document. -/
def Context.ofDocument (d : Document) : Context := ⟨d.location.parent, d⟩

/-- What a reference leads to. -/
structure Target where
  /-- The node, by document and pointer. -/
  identity : Identity
  /-- The context of references inside the node. -/
  context : Context
deriving Repr

/-- The node that a target names: its pointer, already normalized, is read again as any pointer
is. -/
def Target.node (t : Target) : Except SchemaError Json :=
  t.context.root.find t.identity.pointer

/-- Follows a reference from a context. The node is looked up, so that a pointer that leads nowhere
fails here. -/
def resolveReference (files : Texts) (reference : String) (context : Context) :
    Loading Target :=
  let (file, pointer) := Text.cutBefore '#' reference
  if reference.toList.head? = some '#' then do
    let _ ← ExceptT.mk (pure (context.root.find reference))
    pure ⟨.of context.root.location reference, context⟩
  else if file.isEmpty then throw (.invalidReference reference .emptyFile)
  else do
    let asker := reference ++ " in " ++ context.root.location.render
    let d ← loadDocument files (context.baseDirectory.resolve file) (some asker)
    let _ ← ExceptT.mk (pure (d.find pointer))
    pure ⟨.of d.location pointer, .ofDocument d⟩

/-- The text of a reference, which must be a string. -/
def referenceText (reference : Json) : Except SchemaError String :=
  match reference with
  | .str s => .ok s
  | other => .error (.invalidReference other.render .notAString)

/-- The references followed at one place of an instance. -/
structure Chain where
  /-- The nodes they led to, in order. -/
  visited : List Identity
  /-- How many there may be. -/
  limit : Nat
deriving Repr

namespace Chain

/-- The chain without references. -/
def start (limit : Nat) : Chain := ⟨[], limit⟩

/-- The chain of the next place of the instance: empty, with the same limit. -/
def fresh (c : Chain) : Chain := start c.limit

/-- The chain after one more reference. -/
def enter (c : Chain) (target : Identity) (reference : String) : Except SchemaError Chain :=
  if target ∈ c.visited then .error (.cyclicReference (c.visited ++ [target]))
  else if c.limit ≤ c.visited.length then .error (.referenceChainTooLong c.limit reference)
  else .ok { c with visited := c.visited ++ [target] }

/-- The chain without its last reference. A walk has no need of it: it goes on with the chain that
it had before the reference, which is the same (`leave_enter`). -/
def leave (c : Chain) : Chain := { c with visited := c.visited.dropLast }

/-- Leaving takes back what entering has added. -/
theorem leave_enter {c c' : Chain} {target : Identity} {reference : String}
    (h : c.enter target reference = .ok c') : c'.leave = c := by
  unfold enter at h
  split at h
  · cases h
  · split at h
    · cases h
    · cases h
      rw [leave, List.dropLast_concat]

end Chain

end LinkedSchema
