import LinkedSchema.Json.Basic

/-!
# Equality of JSON values

`Json.equal` compares numbers by value, so that `1` and `1.0` are equal, arrays item by item, and
objects by their members whatever their order. Numbers of different kinds are compared as binary64.

`Json.equalInOrder` is finer: numbers are compared exactly, and the members of two equal objects
come in the same order.
-/

namespace LinkedSchema

/-- Numbers of equal value: equal as they are, or equal as binary64. -/
def Number.equal (x y : Number) : Bool :=
  x.same y || x.toBinary64.beq y.toBinary64

/-- Numbers that are equal as they are are equal as binary64 too, so only that counts. -/
theorem Number.equal_iff_units {x y : Number} :
    x.equal y = true ↔ x.toBinary64.units = y.toBinary64.units := by
  have hsame : x.same y = true → x.toBinary64.units = y.toBinary64.units := by
    intro h
    unfold Number.same at h
    split at h
    · rw [beq_iff_eq.mp h]
    · exact beq_iff_eq.mp h
    · cases h
  rw [Number.equal, Bool.or_eq_true, Binary64.beq, beq_iff_eq]
  exact ⟨fun h => h.elim hsame id, .inr⟩

namespace Json

mutual

/-- Values that are equal up to the order of members. -/
def equal : Json → Json → Bool
  | null, null => true
  | bool a, bool b => a == b
  | num x, num y => x.equal y
  | str s, str t => s == t
  | arr xs, arr ys => equalItems xs ys
  | obj xs, obj ys => xs.length == ys.length && equalMembers xs ys
  | _, _ => false

/-- Arrays with equal items in order. -/
def equalItems : List Json → List Json → Bool
  | [], [] => true
  | v :: rest, w :: others => equal v w && equalItems rest others
  | _, _ => false

/-- Every member of the first object has an equal one of its name in the second. -/
def equalMembers : Members → Members → Bool
  | [], _ => true
  | (name, v) :: rest, others =>
    (match others.lookup name with
      | some w => equal v w
      | none => false) && equalMembers rest others

end

mutual

/-- Values that are equal, members being in the same order. -/
def equalInOrder : Json → Json → Bool
  | null, null => true
  | bool a, bool b => a == b
  | num x, num y => x.units == y.units
  | str s, str t => s == t
  | arr xs, arr ys => equalItemsInOrder xs ys
  | obj xs, obj ys => equalMembersInOrder xs ys
  | _, _ => false

/-- Arrays with equal items in order. -/
def equalItemsInOrder : List Json → List Json → Bool
  | [], [] => true
  | v :: rest, w :: others => equalInOrder v w && equalItemsInOrder rest others
  | _, _ => false

/-- Objects with the same names and equal values in order. -/
def equalMembersInOrder : Members → Members → Bool
  | [], [] => true
  | (name, v) :: rest, (other, w) :: others =>
    name == other && equalInOrder v w && equalMembersInOrder rest others
  | _, _ => false

end

end Json

end LinkedSchema
