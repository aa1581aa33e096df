import LinkedSchema.Proofs.InstancePointers

/-!
# Every part of a document has an address

The address of a part is the pointer made of the segments of the steps that lead to it, behind a
hash and a slash. Normalizing takes away just these two characters, and only those: a first name
that starts with a hash, or is empty and leaves a slash in front, is still there
(`Pointer.normalize_address`). Cut at its slashes the rest gives back the texts of the steps, and a
number among them is taken for an index or for a name according to what it is looked up in
(`Pointer.descend_texts`). So an address is looked up to the part itself, with one exception: the
address of a member of the whole document without a name is the pointer to the document
(`Document.find_address`).
-/

namespace LinkedSchema

open Locator (segment stepText)

namespace Pointer

/-- The address of the part to which steps lead. -/
def address (steps : List Step) : String := "#/" ++ String.intercalate "/" (steps.map segment)

/-- Normalizing an address takes away the hash and the slash in front. -/
theorem normalize_address (steps : List Step) :
    normalize (address steps) = String.intercalate "/" (steps.map segment) := by
  unfold normalize address
  rw [String.toList_append]
  exact String.ofList_toList

/-- Segments make up the empty text only if there are none, or just the empty one. -/
theorem intercalate_eq_empty {steps : List Step} (hne : steps ≠ []) :
    String.intercalate "/" (steps.map segment) = "" ↔ steps = [.name ""] := by
  obtain ⟨step, rest, rfl⟩ := List.exists_cons_of_ne_nil hne
  cases rest with
  | nil =>
    rw [List.map_singleton, String.intercalate_singleton, Locator.segment_eq_empty,
      List.singleton_inj]
  | cons next rest =>
    refine iff_of_false (fun h => ?_) (by simp)
    have hlist := congrArg String.toList h
    simp [String.intercalate_cons_cons, String.toList_append] at hlist

/-- A step to a part is a step by its text. -/
theorem step?_stepText {v w : Json} {step : Step} (h : v.part? step = some w)
    (hindex : ∀ i, step = .index i → i < wordLimit) : step? v (stepText step) = some w := by
  cases step with
  | name name =>
    cases v with
    | obj members => exact h
    | _ => cases h
  | index i =>
    cases v with
    | arr items =>
      have hread : natural? (stepText (.index i)) = some i :=
        Locator.natural?_toString (hindex i rfl)
      rw [step?, hread]
      exact h
    | _ => cases h

/-- Going down by the texts of steps leads where the steps lead. -/
theorem descend_texts {steps : List Step} {v w : Json} (h : v.at? steps = some w)
    (hindex : ∀ i, .index i ∈ steps → i < wordLimit) :
    descend v (steps.map stepText) = .ok w := by
  induction steps generalizing v with
  | nil =>
    cases h
    rfl
  | cons step rest ih =>
    rw [Json.at?] at h
    obtain ⟨u, hu, hrest⟩ := Option.bind_eq_some_iff.mp h
    have hstep : step? v (stepText step) = some u :=
      step?_stepText hu fun i hi => hindex i (hi ▸ List.mem_cons_self)
    rw [List.map_cons, descend, hstep]
    exact ih hrest fun i hi => hindex i (List.mem_cons_of_mem _ hi)

end Pointer

/-- A part is smaller than the whole. -/
theorem Json.size_lt_of_part? {v w : Json} {step : Step} (h : v.part? step = some w) :
    w.size < v.size := by
  cases v with
  | obj members =>
    cases step with
    | name name => exact size_lt_of_mem_members (mem_of_lookup h)
    | index i => cases h
  | arr items =>
    cases step with
    | name name => cases h
    | index i => exact size_lt_of_mem_items (List.mem_of_getElem? h)
  | _ => cases h

/-- Every part of a document is found by its address, whatever the names of the members on the way,
with indices that a machine word holds. The only exception is the member without a name of the
document itself, whose address names the document. -/
theorem Document.find_address (d : Document) (steps : List Step) (v : Json)
    (hat : d.root.at? steps = some v) (hne : steps ≠ [])
    (hindex : ∀ i, .index i ∈ steps → i < wordLimit) :
    (d.find (Pointer.address steps) = .ok v ↔ steps ≠ [.name ""]) ∧
      (steps = [.name ""] → d.find (Pointer.address steps) = .ok d.root) := by
  have hroot : steps = [.name ""] → d.find (Pointer.address steps) = .ok d.root := by
    rintro rfl
    rfl
  refine ⟨⟨?_, fun hnamed => ?_⟩, hroot⟩
  · -- What is found there is the document, which is larger than its member.
    rintro hfind rfl
    have hpart : d.root.part? (.name "") = some v := by simpa [Json.at?] using hat
    have hlt := Json.size_lt_of_part? hpart
    rw [Except.ok.inj ((hroot rfl).symm.trans hfind)] at hlt
    exact Nat.lt_irrefl _ hlt
  · have hjoined : ¬(String.intercalate "/" (steps.map segment)).isEmpty = true := by
      rw [String.isEmpty_iff, Pointer.intercalate_eq_empty hne]
      exact hnamed
    have hfind : Pointer.find d.root (Pointer.address steps) = .ok v := by
      unfold Pointer.find
      rw [Pointer.normalize_address]
      dsimp only
      rw [if_neg hjoined, Locator.names_intercalate hne]
      exact Pointer.descend_texts hat hindex
    unfold Document.find
    rw [hfind]

/-- A document with a text under names that are empty, numeric, or full of signs of pointers. -/
def signedNames : Document where
  location := ⟨["s", "names.json"]⟩
  root := .obj [("", .obj [("#~01/~", .arr [.null, .obj [("0", .str "deep")]])])]

/-- The text is found behind all of them. -/
theorem signedNames_found :
    Pointer.address [.name "", .name "#~01/~", .index 1, .name "0"] = "#//#~001~1~0/1/0" ∧
      signedNames.find "#//#~001~1~0/1/0" = .ok (.str "deep") := by
  have haddress : Pointer.address [.name "", .name "#~01/~", .index 1, .name "0"] =
      "#//#~001~1~0/1/0" := by decide +kernel
  have hindex : ∀ i, .index i ∈ [Step.name "", .name "#~01/~", .index 1, .name "0"] →
      i < wordLimit := by
    intro i hi
    have hone : i = 1 := by simpa using hi
    rw [hone]
    decide
  obtain ⟨hfind, -⟩ := signedNames.find_address [.name "", .name "#~01/~", .index 1, .name "0"]
    (.str "deep") (by rfl) (by simp) hindex
  exact ⟨haddress, haddress ▸ hfind.mpr (by simp)⟩

end LinkedSchema
