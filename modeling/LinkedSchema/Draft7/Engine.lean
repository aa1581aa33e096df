import LinkedSchema.Draft7.Evaluation
import LinkedSchema.Draft7.WellFormed
import LinkedSchema.Validation.ReferenceGraph
import LinkedSchema.Validation.Report

/-!
# Validation by draft 7

`Draft7.validate` is the whole of validation by the draft-7 language of schemas. References are
checked first, as for structural validation, so that a cycle or an overlong chain is an error of
its own. Then the documents are gathered and the schema is checked as a whole; a schema that is not
well formed is an error, whatever the instance. The findings about the instance are sorted by their
wording, and those of equal wording stay in the order in which they were found.

`Draft7.validateBy` leaves open when two values are the same; `Draft7.validate` compares the members
of objects in order.
-/

namespace LinkedSchema.Draft7

/-- How many rounds of reading documents there may be. Each adds a document, so that no memory holds
what as many rounds read: references to ever new spellings of a location are followed without
end. -/
def maxRounds : Nat := 18446744073709551616

/-- How many levels an evaluation needs: at every place on the way down an instance no reference
leads to the same address twice, and between two references the schema shrinks. -/
def evaluationLevels (registry : Registry) (v : Json) : Nat := (v.height + 1) * registry.levels

/-- A finding as a violation of an instance. -/
def Finding.toViolation (instanceValue : Json) (f : Finding) : Violation :=
  ⟨.ofPointer f.place.toPointer instanceValue, .engine, f.message⟩

/-- The report of findings about an instance. -/
def reportOf (instanceValue : Json) (findings : List Finding) : Report :=
  (findings.mergeSort fun a b => a.message ≤ b.message).map (·.toViolation instanceValue)

/-- Validates an instance against the root of a document, given which values are the same. -/
def validateBy (same : Json → Json → Bool) (files : Texts) (maxRefChain : Nat) (schema : Document)
    (v : Json) : Loading Report := do
  ReferenceGraph.check files schema maxRefChain
  let fault := SchemaError.engineBuild schema.location
  match Uri.ofFile? schema.location.names with
  | none => throw fault
  | some u =>
    let registry ← Registry.ofSchema files maxRounds schema u fault
    if isWellFormed registry u schema.root then
      match evaluate same registry (evaluationLevels registry v) u schema.root v .root with
      | none => throw fault
      | some findings => pure (reportOf v findings)
    else throw fault

/-- Validates an instance against the root of a document; values are the same if they are equal with
their members in order. -/
def validate (files : Texts) (maxRefChain : Nat) (schema : Document) (v : Json) :
    Loading Report :=
  validateBy Json.equalInOrder files maxRefChain schema v

end LinkedSchema.Draft7
