import LinkedSchema.Proofs.Comparison

/-!
# The verbose mode only adds branches

Validation in the verbose mode and in the compact one, side by side, load the same documents and
fail with the same errors. Their reports are related by `Compacts`: the compact one is the verbose
one without its branches, and both are empty or neither is. Taking branches out passes through
putting reports together. Where no alternative matches, both modes report this first, whatever the
reports of the alternatives are; what the verbose mode adds is marked as a branch, also where it was
found below other alternatives. So the two runs agree on which alternatives match, although they
build different reports on them.
-/

namespace LinkedSchema

open Loading

/-- The report without the branches of alternatives. -/
def Report.withoutBranches (r : Report) : Report := r.filter (·.kind != .anyOfBranch)

namespace Structural

variable {verbose compact : Report} {reports reports' : List Report} {place : Locator}

/-- A report is a verbose one without its branches, and empty only if that one is. -/
structure Compacts (verbose compact : Report) : Prop where
  /-- The branches are taken out. -/
  filtered : compact = verbose.withoutBranches
  /-- The verdict is the same. -/
  empty_iff : compact = [] ↔ verbose = []

/-- A report without branches stays as it is. -/
theorem Unbranched.withoutBranches {r : Report} (h : Unbranched r) : r.withoutBranches = r :=
  List.filter_eq_self.mpr fun violation hmem => bne_iff_ne.mpr (h violation hmem)

/-- Nothing is left of the branches that are reported. -/
theorem withoutBranches_branchReports (i : Nat) (reports : List Report) :
    (branchReports i reports).withoutBranches = [] := by
  refine List.filter_eq_nil_iff.mpr ?_
  induction reports generalizing i with
  | nil => exact fun _ hmem => nomatch hmem
  | cons report rest ih =>
    intro violation hmem
    rcases List.mem_append.mp hmem with hmem | hmem
    · obtain ⟨_, -, rfl⟩ := List.mem_map.mp hmem
      exact Bool.false_ne_true
    · exact ih (i + 1) violation hmem

/-- Taking branches out passes through putting reports together. -/
theorem compacts_congruence : Congruence Compacts where
  nil := ⟨rfl, Iff.rfl⟩
  append {r r' q q'} hr hq := by
    constructor
    · rw [hr.filtered, hq.filtered]
      exact (List.filter_append r q).symm
    · rw [List.append_eq_nil_iff, List.append_eq_nil_iff, hr.empty_iff, hq.empty_iff]
  isEmpty h := by rw [Bool.eq_iff_iff, List.isEmpty_iff, List.isEmpty_iff, h.empty_iff]

/-- Where no alternative matches, the compact report is the first violation of the verbose one. -/
theorem compacts_anyOfReport (place : Locator) {reports reports' : Option (List Report)}
    (h : Option.Rel (List.Forall₂ Compacts) reports reports') :
    Compacts (anyOfReport true place reports) (anyOfReport false place reports') := by
  cases h with
  | none => exact ⟨rfl, Iff.rfl⟩
  | some h =>
    cases h with
    | nil => exact ⟨rfl, Iff.rfl⟩
    | @cons r _ rest _ _ _ =>
      refine ⟨?_, iff_of_false (List.cons_ne_nil _ _) (List.cons_ne_nil _ _)⟩
      have hbranches := withoutBranches_branchReports 0 (r :: rest)
      exact (congrArg (List.cons _) hbranches).symm

/-- The verbose walk compares with the compact one. -/
theorem verbosity (files : Texts) (maxRefChain maxDepth : Nat) :
    Comparison files files ⟨maxRefChain, maxDepth, true⟩ ⟨maxRefChain, maxDepth, false⟩ Eq Eq Eq Eq
      Eq Compacts where
  toCongruence := compacts_congruence
  instances := Json.keepsShape_eq
  nodes := Json.keepsShape_eq
  equal hv hw := by rw [hv, hw]
  failure _ := rfl
  ceiling := rfl
  reference h := by
    rw [h]
    exact .refl (fun _ => rfl) _
  resolve {context _} text h := by
    subst h
    rintro s t rfl
    exact ⟨(Agree.refl (fun _ => rfl) _).mono fun target _ he => by rw [he]; exact ⟨rfl, rfl⟩, rfl⟩
  find pointer h := by
    rw [h]
    exact .refl (fun _ => rfl) _
  same h := ⟨h.withoutBranches.symm, Iff.rfl⟩
  enum place h := by
    rw [h]
    exact ⟨(unbranched_singleton (by decide) place _).withoutBranches.symm, Iff.rfl⟩
  anyOf place h := compacts_anyOfReport place h
  eachMember hm _ _ h := by
    cases hm
    exact eachMember_compares compacts_congruence
      (List.forall₂_same.mpr fun p _ => h p.1 p.2 p.2 rfl)

/-- Where the outcomes agree, the second one is compacted from the first one. -/
theorem compacts_of_agree {r r' : Except SchemaError Report} (h : Agree Eq Compacts r r') :
    r' = r.map Report.withoutBranches ∧ r'.map Report.isValid = r.map Report.isValid := by
  cases h with
  | error he => exact ⟨congrArg Except.error he.symm, congrArg Except.error he.symm⟩
  | ok h =>
    exact ⟨congrArg Except.ok h.filtered, congrArg Except.ok (compacts_congruence.isEmpty h)⟩

/-- Validation in the compact mode does what it does in the verbose one, errors and loaded documents
included, except that the branches of alternatives are taken out of the report. This empties no
report, so the verdict is the same. -/
theorem validateNode_compact (files : Texts) (s : Store) (maxRefChain maxDepth : Nat)
    (v node : Json) (context : Context) (place : Locator) :
    (validateNode files ⟨maxRefChain, maxDepth, false⟩ v node context place).runOn s =
        (((validateNode files ⟨maxRefChain, maxDepth, true⟩ v node context place).outcome s).map
            Report.withoutBranches,
          (validateNode files ⟨maxRefChain, maxDepth, true⟩ v node context place).after s) ∧
      ((validateNode files ⟨maxRefChain, maxDepth, false⟩ v node context place).outcome s).map
          Report.isValid =
        ((validateNode files ⟨maxRefChain, maxDepth, true⟩ v node context place).outcome s).map
          Report.isValid := by
  obtain ⟨hagree, hafter⟩ := (verbosity files maxRefChain maxDepth).walk_compares (maxDepth + 1)
    place (.start maxRefChain) (rfl : v = v) (rfl : node = node) (rfl : context = context)
    (rfl : s = s)
  obtain ⟨houtcome, hverdict⟩ := compacts_of_agree hagree
  exact ⟨Prod.ext houtcome hafter.symm, hverdict⟩

/-- What is found below an alternative of an alternative is marked twice. -/
example :
    (validateNode (FileTree.empty .root) ⟨1, 3, true⟩ .null
      (.obj [("anyOf", .arr [.obj [("anyOf", .arr [.obj [("type", .str "string")]])]])])
      (.ofDocument ⟨⟨["s", "text.json"]⟩, .null⟩) .root).outcome .empty =
    .ok [⟨.root, .anyOf, "does not match anyOf options"⟩,
      ⟨.root, .anyOfBranch, "anyOf[0]: does not match anyOf options"⟩,
      ⟨.root, .anyOfBranch, "anyOf[0]: anyOf[0]: expected type string"⟩] := by rfl

end Structural

end LinkedSchema
