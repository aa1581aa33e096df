import LinkedSchema.Json.Equality
import Mathlib.Data.List.Forall2

/-!
# What is equal to a value

`Json.equal` looks at both values at once. Read from the left it says what the other value is: one
of the same kind, with equal parts (`equal_arr_iff`, `equal_obj_iff`).
-/

namespace LinkedSchema

/-- Lists are related in order when they are as long as each other and related place by place. -/
theorem forall₂_iff_getElem? {α β : Type} {R : α → β → Prop} {xs : List α} {ys : List β} :
    List.Forall₂ R xs ys ↔ xs.length = ys.length ∧
      ∀ (i : Nat) x y, xs[i]? = some x → ys[i]? = some y → R x y := by
  rw [List.forall₂_iff_get]
  refine and_congr_right fun _ => ⟨fun h i x y hx hy => ?_, fun h i hi hi' => ?_⟩
  · obtain ⟨hi, rfl⟩ := List.getElem?_eq_some_iff.mp hx
    obtain ⟨hi', rfl⟩ := List.getElem?_eq_some_iff.mp hy
    exact h i hi hi'
  · exact h i _ _ (List.getElem?_eq_getElem hi) (List.getElem?_eq_getElem hi')

namespace Json

/-- Items that have equal ones at their places. -/
theorem equalItems_iff {vs ws : List Json} :
    equalItems vs ws = true ↔ vs.length = ws.length ∧
      ∀ (i : Nat) v w, vs[i]? = some v → ws[i]? = some w → v.equal w = true := by
  rw [← forall₂_iff_getElem?]
  induction vs generalizing ws with
  | nil => cases ws <;> simp [equalItems]
  | cons v rest ih =>
    cases ws with
    | nil => simp [equalItems]
    | cons w others => rw [equalItems, Bool.and_eq_true, ih, List.forall₂_cons]

/-- Members that have equal ones by name. -/
theorem equalMembers_iff {vs ws : Members} :
    equalMembers vs ws = true ↔
      ∀ q ∈ vs, ∃ w, ws.lookup q.1 = some w ∧ q.2.equal w = true := by
  induction vs with
  | nil => simp [equalMembers]
  | cons q rest ih =>
    obtain ⟨name, v⟩ := q
    rw [equalMembers, Bool.and_eq_true, ih, List.forall_mem_cons]
    refine and_congr_left fun _ => ?_
    cases ws.lookup name with
    | none => simp
    | some w => simp

/-- Only `null` is equal to `null`. -/
theorem equal_null_iff {w : Json} : null.equal w = true ↔ null = w := by
  cases w <;> simp [equal]

/-- Only a truth value itself is equal to it. -/
theorem equal_bool_iff {b : Bool} {w : Json} : (bool b).equal w = true ↔ bool b = w := by
  cases w <;> simp [equal]

/-- Only a text itself is equal to it. -/
theorem equal_str_iff {text : String} {w : Json} : (str text).equal w = true ↔ str text = w := by
  cases w <;> simp [equal]

/-- What is equal to a number is a number that binary64 does not tell from it. -/
theorem equal_num_iff {x : Number} {w : Json} :
    (num x).equal w = true ↔ ∃ y, w = num y ∧ x.toBinary64.units = y.toBinary64.units := by
  cases w <;> simp [equal, Number.equal_iff_units]

/-- What is equal to an array is an array with equal items at the same places. -/
theorem equal_arr_iff {vs : List Json} {w : Json} :
    (arr vs).equal w = true ↔ ∃ ws, w = arr ws ∧ vs.length = ws.length ∧
      ∀ (i : Nat) v w, vs[i]? = some v → ws[i]? = some w → v.equal w = true := by
  cases w <;> simp [equal, equalItems_iff]

/-- What is equal to an object is an object with as many members, where every member has an equal
one of its name. -/
theorem equal_obj_iff {ms : Members} {w : Json} :
    (obj ms).equal w = true ↔ ∃ ns, w = obj ns ∧ ms.length = ns.length ∧
      ∀ p ∈ ms, ∃ w, ns.lookup p.1 = some w ∧ p.2.equal w = true := by
  cases w <;> simp [equal, equalMembers_iff]

end Json

end LinkedSchema
