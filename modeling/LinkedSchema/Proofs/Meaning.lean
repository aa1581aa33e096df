import LinkedSchema.Proofs.References
import LinkedSchema.Validation.Structural

/-!
# The meaning of the structural keywords

`Satisfies` says when an instance meets a node of a schema, without a walk: a node that is no object
asks nothing, and an object asks that the node behind its reference is met, that some alternative is
met, that its keywords hold of the value itself, and that items and members meet their schemas. It
is the least relation with this property, so a reference that only leads back to itself is met by
nothing. The files and a store fix the documents; which values count as equal is a parameter, since
it is what `enum` depends on.

`Satisfies` knows no chains, no limits, no places and no reports, and it does not say in which order
anything is looked at. With the walk it shares how a reference is resolved and the judgements on
single values: the names of types (`hasType`), the rounding of numbers to binary64
(`Number.toBinary64`), the search for a pattern (`Pattern.search?`), and, where the comparison is
taken to be the one of the walk, `Json.equal`.
-/

namespace LinkedSchema

namespace Structural

/-! ## Keywords that speak of the value itself -/

/-- The schemas that `properties` declares by name. -/
def declared (schema : Members) : Members :=
  ((schema.lookup "properties").bind Json.members?).getD []

/-- A schema that is declared stands in `properties`. -/
theorem lookup_declared {schema : Members} {name : String} {node : Json}
    (h : (declared schema).lookup name = some node) :
    ∃ ds, schema.lookup "properties" = some (.obj ds) ∧ ds.lookup name = some node := by
  unfold declared at h
  cases hp : schema.lookup "properties" with
  | none =>
    rw [hp] at h
    cases h
  | some x =>
    rw [hp] at h
    cases x with
    | obj ds => exact ⟨ds, rfl, h⟩
    | _ => cases h

/-- The value is of a type that `type` names, by itself or in a list. -/
def TypeHolds (schema : Members) (v : Json) : Prop :=
  match schema.lookup "type" with
  | some (.str name) => hasType v name = true
  | some (.arr names) => ∃ name, .str name ∈ names ∧ hasType v name = true
  | _ => True

/-- The value is equal to one that `enum` lists. -/
def EnumHolds (same : Json → Json → Bool) (schema : Members) (v : Json) : Prop :=
  ∀ allowed, schema.lookup "enum" = some (.arr allowed) → ∃ w ∈ allowed, same v w = true

/-- A numeric keyword, if it is there, is a limit with some property. -/
def LimitHolds (schema : Members) (keyword : String) (within : Binary64 → Prop) : Prop :=
  ∀ n, schema.lookup keyword = some (.num n) → within n.toBinary64

/-- A text is long enough, and the pattern, unless it is empty, is found in it. -/
structure TextHolds (schema : Members) (text : String) : Prop where
  /-- `minLength` -/
  long : LimitHolds schema "minLength" fun limit =>
    limit.units ≤ (Binary64.ofNat text.length).units
  /-- `pattern` -/
  found : ∀ pattern, schema.lookup "pattern" = some (.str pattern) →
    pattern = "" ∨ Pattern.search? pattern text = some true

/-- A number lies between the bounds. -/
structure NumberHolds (schema : Members) (n : Number) : Prop where
  /-- `minimum` -/
  above : LimitHolds schema "minimum" fun limit => limit.units ≤ n.toBinary64.units
  /-- `maximum` -/
  below : LimitHolds schema "maximum" fun limit => n.toBinary64.units ≤ limit.units

/-- An array has neither too few nor too many items. -/
structure SizeHolds (schema : Members) (items : List Json) : Prop where
  /-- `minItems` -/
  enough : LimitHolds schema "minItems" fun limit =>
    limit.units ≤ (Binary64.ofNat items.length).units
  /-- `maxItems` -/
  few : LimitHolds schema "maxItems" fun limit =>
    (Binary64.ofNat items.length).units ≤ limit.units

/-- An object has the members it needs, and no undeclared ones if it is closed. -/
structure NamesHold (schema members : Members) : Prop where
  /-- `required` -/
  present : ∀ names, schema.lookup "required" = some (.arr names) →
    ∀ name, .str name ∈ names → ∃ w, (name, w) ∈ members
  /-- `additionalProperties` -/
  known : schema.lookup "additionalProperties" = some (.bool false) →
    ∀ name w, (name, w) ∈ members → ∃ memberSchema, (declared schema).lookup name = some memberSchema

/-- The keywords for values of a kind hold. -/
def KindHolds (schema : Members) : Json → Prop
  | .str text => TextHolds schema text
  | .num n => NumberHolds schema n
  | .arr items => SizeHolds schema items
  | .obj members => NamesHold schema members
  | _ => True

/-- All keywords that speak of the value itself hold. -/
structure Holds (same : Json → Json → Bool) (schema : Members) (v : Json) : Prop where
  /-- `type` -/
  type : TypeHolds schema v
  /-- `enum` -/
  enum : EnumHolds same schema v
  /-- The keywords for values of its kind. -/
  kind : KindHolds schema v

/-! ## Satisfaction -/

mutual

/-- An instance meets a node in a context. -/
inductive Satisfies (files : Texts) (s : Store) (same : Json → Json → Bool) :
    Context → Json → Json → Prop
  /-- A node that is no object asks nothing. -/
  | plain {context : Context} {node v : Json} (h : node.isObject = false) :
    Satisfies files s same context node v
  /-- An object asks all that its keywords ask. -/
  | object {context : Context} {schema : Members} {v : Json}
    (reference : BehindReference files s same context schema v)
    (anyOf : SomeAlternative files s same context schema v)
    (own : Holds same schema v)
    (items : ∀ vs itemSchema, v = .arr vs → schema.lookup "items" = some (.obj itemSchema) →
      ∀ w ∈ vs, Satisfies files s same context (.obj itemSchema) w)
    (members : ∀ ms, v = .obj ms → ∀ name w memberSchema, (name, w) ∈ ms →
      (declared schema).lookup name = some memberSchema →
      Satisfies files s same context memberSchema w) :
    Satisfies files s same context (.obj schema) v

/-- An instance meets the node behind the reference of an object. -/
inductive BehindReference (files : Texts) (s : Store) (same : Json → Json → Bool) :
    Context → Members → Json → Prop
  /-- There is no reference. -/
  | absent {context : Context} {schema : Members} {v : Json} (h : schema.lookup "$ref" = none) :
    BehindReference files s same context schema v
  /-- The reference leads to a node that is met. -/
  | target {context : Context} {schema : Members} {v : Json} {reference : String}
    {target : Target} {node : Json} (h : schema.lookup "$ref" = some (.str reference))
    (leads : LeadsTo files s context reference target node)
    (met : Satisfies files s same target.context node v) :
    BehindReference files s same context schema v

/-- An instance meets an alternative of an object. -/
inductive SomeAlternative (files : Texts) (s : Store) (same : Json → Json → Bool) :
    Context → Members → Json → Prop
  /-- There is no list of alternatives. -/
  | absent {context : Context} {schema : Members} {v : Json}
    (h : ∀ alternatives, schema.lookup "anyOf" ≠ some (.arr alternatives)) :
    SomeAlternative files s same context schema v
  /-- The list of alternatives is empty. -/
  | empty {context : Context} {schema : Members} {v : Json}
    (h : schema.lookup "anyOf" = some (.arr [])) : SomeAlternative files s same context schema v
  /-- An alternative is met. -/
  | met {context : Context} {schema : Members} {v : Json} {alternatives : List Json} {node : Json}
    (h : schema.lookup "anyOf" = some (.arr alternatives)) (mem : node ∈ alternatives)
    (met : Satisfies files s same context node v) : SomeAlternative files s same context schema v

end

variable {files : Texts} {s : Store} {same : Json → Json → Bool} {context : Context}
  {schema : Members} {v : Json}

/-- Items meet the schema that `items` gives for all of them. -/
def ItemsSatisfy (files : Texts) (s : Store) (same : Json → Json → Bool) (context : Context)
    (schema : Members) (v : Json) : Prop :=
  ∀ vs itemSchema, v = .arr vs → schema.lookup "items" = some (.obj itemSchema) →
    ∀ w ∈ vs, Satisfies files s same context (.obj itemSchema) w

/-- Members meet the schemas declared for their names. -/
def MembersSatisfy (files : Texts) (s : Store) (same : Json → Json → Bool) (context : Context)
    (schema : Members) (v : Json) : Prop :=
  ∀ ms, v = .obj ms → ∀ name w memberSchema, (name, w) ∈ ms →
    (declared schema).lookup name = some memberSchema →
    Satisfies files s same context memberSchema w

/-- What an object asks, part by part. -/
theorem satisfies_object_iff :
    Satisfies files s same context (.obj schema) v ↔
      BehindReference files s same context schema v ∧
        SomeAlternative files s same context schema v ∧ Holds same schema v ∧
        ItemsSatisfy files s same context schema v ∧
        MembersSatisfy files s same context schema v := by
  constructor
  · intro h
    cases h with
    | plain h => cases h
    | object reference anyOf own items members =>
      exact ⟨reference, anyOf, own, items, members⟩
  · rintro ⟨reference, anyOf, own, items, members⟩
    exact .object reference anyOf own items members

/-- A reference asks that its target is met. -/
theorem behindReference_iff {reference : String} {target : Target} {node : Json}
    (h : schema.lookup "$ref" = some (.str reference))
    (leads : LeadsTo files s context reference target node) :
    BehindReference files s same context schema v ↔
      Satisfies files s same target.context node v := by
  constructor
  · intro hb
    cases hb with
    | absent h' => rw [h] at h'; cases h'
    | target h' leads' met =>
      rw [h] at h'
      cases h'
      obtain ⟨rfl, rfl⟩ := leads.unique leads'
      exact met
  · exact .target h leads

/-- A list of alternatives asks that one of them is met, unless it is empty. -/
theorem someAlternative_iff {alternatives : List Json}
    (h : schema.lookup "anyOf" = some (.arr alternatives)) :
    SomeAlternative files s same context schema v ↔
      alternatives = [] ∨ ∃ node ∈ alternatives, Satisfies files s same context node v := by
  constructor
  · intro ha
    cases ha with
    | absent h' => exact absurd h (h' alternatives)
    | empty h' => rw [h] at h'; cases h'; exact .inl rfl
    | met h' mem met => rw [h] at h'; cases h'; exact .inr ⟨_, mem, met⟩
  · rintro (rfl | ⟨node, mem, met⟩)
    · exact .empty h
    · exact .met h mem met

end Structural

end LinkedSchema
