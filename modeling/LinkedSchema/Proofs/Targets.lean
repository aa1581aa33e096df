import LinkedSchema.Proofs.References

/-!
# The node behind a reference

A reference is looked up twice: by its own pointer when it is resolved, and by the pointer of its
target when the node is used. The pointer of the target is normalized already, and looking it up
normalizes it again. So the node that is used is the one that the pointer names after it has been
normalized twice (`node_of_resolved`). It is the node that was found first as long as the pointer,
normalized once, starts with neither hash nor slash. Behind a name that is empty or starts with a
hash, another node may be used, or none be found (`node_differs`).
-/

namespace LinkedSchema

open Loading

/-- A resolved reference has found a node by its own pointer, and uses the node that its normalized
pointer leads to, which is the same one if that pointer is plain. -/
theorem node_of_resolved (files : FileTree) (s : Store) (context : Context) (reference : String)
    (target : Target) (h : (resolveReference files reference context).outcome s = .ok target) :
    target.node = target.context.root.find (Pointer.normalize (pointerPart reference)) ∧
      ∃ node, target.context.root.find (pointerPart reference) = .ok node ∧
        (Pointer.Plain (Pointer.normalize (pointerPart reference)) → target.node = .ok node) := by
  obtain ⟨c, -, ⟨node, hnode⟩, rfl⟩ := resolveReference_eq_ok.mp h
  exact ⟨rfl, node, hnode, fun hplain => Document.find_normalize hplain hnode⟩

/-- A document in which a member without a name holds texts, and one beside it numbers. -/
def unnamedPart : Document where
  location := ⟨["s", "unnamed.json"]⟩
  root := .obj [("", .obj [("x", .obj [("type", .str "string")])]),
    ("x", .obj [("type", .str "number")])]

/-- The plain reference to the numbers is resolved to the node that its pointer names. -/
theorem node_of_numbers :
    (resolveReference (FileTree.empty .root) "#/x" (.ofDocument unnamedPart)).outcome .empty =
        .ok ⟨⟨unnamedPart.location, "x"⟩, .ofDocument unnamedPart⟩ ∧
      (⟨⟨unnamedPart.location, "x"⟩, .ofDocument unnamedPart⟩ : Target).node =
        .ok (.obj [("type", .str "number")]) := by
  have hresolved : (resolveReference (FileTree.empty .root) "#/x"
      (.ofDocument unnamedPart)).outcome .empty =
      .ok ⟨⟨unnamedPart.location, "x"⟩, .ofDocument unnamedPart⟩ := by rfl
  obtain ⟨-, node, hfound, hused⟩ := node_of_resolved _ _ _ _ _ hresolved
  have hnode : unnamedPart.find (pointerPart "#/x") = .ok (.obj [("type", .str "number")]) := by rfl
  rw [Except.ok.inj (hfound.symm.trans hnode)] at hused
  exact ⟨hresolved, hused ⟨by decide, by decide⟩⟩

/-- The reference to the texts behind the member without a name is resolved, and then the numbers
are used. -/
theorem node_differs :
    ¬∀ (files : FileTree) (s : Store) (context : Context) (reference : String) (target : Target),
      (resolveReference files reference context).outcome s = .ok target →
      ∃ node, target.context.root.find (pointerPart reference) = .ok node ∧
        target.node = .ok node := by
  intro h
  have hresolved : (resolveReference (FileTree.empty .root) "#//x"
      (.ofDocument unnamedPart)).outcome .empty =
      .ok ⟨⟨unnamedPart.location, "/x"⟩, .ofDocument unnamedPart⟩ := by rfl
  obtain ⟨node, hfound, hused⟩ := h _ _ _ _ _ hresolved
  have htexts : unnamedPart.find (pointerPart "#//x") = .ok (.obj [("type", .str "string")]) := by
    rfl
  have hnumbers : unnamedPart.find "/x" = .ok (.obj [("type", .str "number")]) := by rfl
  have hsame := (htexts.symm.trans hfound).trans (hused.symm.trans hnumbers)
  simp at hsame

end LinkedSchema
