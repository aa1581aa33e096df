import LinkedSchema.Draft7.Evaluation
import LinkedSchema.Proofs.Rules
import LinkedSchema.Proofs.Trails

/-!
# Schemas inside rules

A rule holds schemas that apply to the value of the rule (`Rule.inPlace`) and schemas that apply to
its items, members or names (`Rule.parts`). Where in a node they come from is said once, for all
keywords (`Rule.from_of_read?`): every one stands under a keyword, as its value, as an item or as a
member of it. They are smaller than the node (`Rule.From.beneath`), and among those that are objects
the schemas in place and those of parts are the ones that the reference graph tells apart
(`Applies.inPlace`, `Descends.part`).

A rule can be evaluated when its schemas can: those in place on the value itself, and those of parts
on lower values (`Rule.evaluate_isSome`).
-/

namespace LinkedSchema.Draft7

variable {siblings : Members} {keyword : String} {w v : Json} {rules : List Rule} {rule : Rule}

/-- The schemas inside a rule that apply to the same value. -/
def Rule.inPlace : Rule → List Json
  | not schema => [schema]
  | allOf schemas | anyOf schemas | oneOf schemas => schemas
  | dependencies entries => entries.filterMap fun (_, d) => match d with
    | .schema schema => some schema
    | .members _ => none
  | choice condition met unmet => condition :: (met.toList ++ unmet.toList)
  | _ => []

/-- The schemas inside a rule that apply to parts of the value: its items, members or names. -/
def Rule.parts : Rule → List Json
  | items schema | itemsFrom _ schema | contains schema | names schema => [schema]
  | tuple schemas => schemas
  | members declared => declared.map (·.2)
  | matching patterns => patterns.map (·.schema)
  | closed declared patterns => declared.map (·.2) ++ patterns.map (·.schema)
  | others declared patterns schema => declared.map (·.2) ++ patterns.map (·.schema) ++ [schema]
  | _ => []

/-- There are no other schemas inside a rule. -/
theorem Rule.mem_subschemas : v ∈ rule.subschemas ↔ v ∈ rule.inPlace ∨ v ∈ rule.parts := by
  cases rule with
  | dependencies entries => exact (or_iff_left List.not_mem_nil).symm
  | _ => simp [subschemas, inPlace, parts]

/-! ## Where schemas come from -/

/-- A schema stands where it applies to the same value as the node. -/
inductive Applies (siblings : Members) (v : Json) : Prop
  /-- It is the value of a keyword. -/
  | value {keyword : String} (h : keyword ∈ ["not", "if", "then", "else"])
    (hv : (keyword, v) ∈ siblings)
  /-- It is one of several that are combined. -/
  | item {keyword : String} {schemas : List Json} (h : keyword ∈ ["allOf", "anyOf", "oneOf"])
    (hv : (keyword, .arr schemas) ∈ siblings) (mem : v ∈ schemas)
  /-- Some name depends on it. -/
  | dependency {entries : Members} {name : String}
    (hv : ("dependencies", .obj entries) ∈ siblings) (mem : (name, v) ∈ entries)

/-- A schema stands where it applies to parts of the value. -/
inductive Descends (siblings : Members) (v : Json) : Prop
  /-- It is the value of a keyword. -/
  | value {keyword : String} (h : keyword ∈
      ["additionalProperties", "items", "additionalItems", "contains", "propertyNames"])
    (hv : (keyword, v) ∈ siblings)
  /-- It is the schema of the item at some position. -/
  | item {schemas : List Json} (hv : ("items", .arr schemas) ∈ siblings) (mem : v ∈ schemas)
  /-- It is the schema of the members with some names. -/
  | member {keyword : String} {declared : Members} {name : String}
    (h : keyword ∈ ["properties", "patternProperties"])
    (hv : (keyword, .obj declared) ∈ siblings) (mem : (name, v) ∈ declared)

/-- A rule is made of schemas of a node. -/
structure Rule.From (siblings : Members) (rule : Rule) : Prop where
  /-- The schemas for the same value. -/
  applies : ∀ v ∈ rule.inPlace, Applies siblings v
  /-- The schemas for parts of it. -/
  descends : ∀ v ∈ rule.parts, Descends siblings v

/-- What applies to the same value occurs in the value of a keyword. -/
theorem Applies.beneath (h : Applies siblings v) : ReferenceGraph.Beneath siblings v := by
  cases h with
  | value _ hv => exact ⟨_, v, hv, .here⟩
  | item _ hv mem => exact ⟨_, _, hv, .item .here mem⟩
  | dependency hv mem => exact ⟨_, _, hv, .member .here mem⟩

/-- What applies to parts of the value occurs in the value of a keyword. -/
theorem Descends.beneath (h : Descends siblings v) : ReferenceGraph.Beneath siblings v := by
  cases h with
  | value _ hv => exact ⟨_, v, hv, .here⟩
  | item hv mem => exact ⟨_, _, hv, .item .here mem⟩
  | member _ hv mem => exact ⟨_, _, hv, .member .here mem⟩

/-- The schemas of a rule occur in values of keywords. -/
theorem Rule.From.beneath (h : rule.From siblings) (hv : v ∈ rule.subschemas) :
    ReferenceGraph.Beneath siblings v :=
  (Rule.mem_subschemas.mp hv).elim (fun hv => (h.applies v hv).beneath)
    fun hv => (h.descends v hv).beneath

/-- An object that is the value of a keyword stands under it. -/
theorem under_of_mem (hdistinct : (siblings.map Prod.fst).Nodup) (hobject : v.isObject = true)
    (hv : (keyword, v) ∈ siblings) : ReferenceGraph.Under siblings keyword v := by
  refine .value (Json.lookup_of_mem hdistinct hv) ?_
  rintro schemas rfl
  cases hobject

/-- Objects that apply to the same value are steps in place of the reference graph. -/
theorem Applies.inPlace (h : Applies siblings v) (hdistinct : (siblings.map Prod.fst).Nodup)
    (hobject : v.isObject = true) : ReferenceGraph.InPlace siblings v := by
  cases h with
  | value hk hv =>
    have hsub : ["not", "if", "then", "else"] ⊆
        ["allOf", "anyOf", "oneOf", "not", "if", "then", "else"] := by decide
    exact .under (hsub hk) (under_of_mem hdistinct hobject hv)
  | item hk hv mem =>
    have hsub : ["allOf", "anyOf", "oneOf"] ⊆
        ["allOf", "anyOf", "oneOf", "not", "if", "then", "else"] := by decide
    exact .under (hsub hk) (.item (Json.lookup_of_mem hdistinct hv) mem)
  | dependency hv mem => exact .dependency ⟨Json.lookup_of_mem hdistinct hv, mem⟩ hobject

/-- Objects that apply to parts of the value are steps into parts of the reference graph. -/
theorem Descends.part (h : Descends siblings v) (hdistinct : (siblings.map Prod.fst).Nodup)
    (hobject : v.isObject = true) : ReferenceGraph.Part siblings v := by
  cases h with
  | value hk hv => exact .under hk (under_of_mem hdistinct hobject hv)
  | item hv mem => exact .under (by decide) (.item (Json.lookup_of_mem hdistinct hv) mem)
  | member hk hv mem => exact .member hk ⟨Json.lookup_of_mem hdistinct hv, mem⟩

/-! ## Reading rules -/

namespace Rule

/-- An assertion has no schemas. -/
theorem From.assertion {a : Assertion} : From siblings (.assertion a) := ⟨nofun, nofun⟩

/-- A rule may have schemas that are all for the same value. -/
theorem From.ofInPlace (hparts : rule.parts = []) (h : ∀ v ∈ rule.inPlace, Applies siblings v) :
    rule.From siblings where
  applies := h
  descends v hv := by
    rw [hparts] at hv
    cases hv

/-- A rule may have schemas that are all for parts of the value. -/
theorem From.ofParts (hinPlace : rule.inPlace = []) (h : ∀ v ∈ rule.parts, Descends siblings v) :
    rule.From siblings where
  applies v hv := by
    rw [hinPlace] at hv
    cases hv
  descends := h

/-- A rule may have one schema, for parts of the value. -/
theorem From.ofPart (hinPlace : rule.inPlace = []) (hparts : rule.parts = [w])
    (h : Descends siblings w) : rule.From siblings :=
  .ofParts hinPlace fun v hv => by
    rw [hparts, List.mem_singleton] at hv
    rwa [hv]

/-- The schemas of patterns are those of members. -/
theorem mem_of_patterns? {declared : Members} {patterns : List PatternSchema}
    (h : patterns? declared = some patterns) {p : PatternSchema} (hp : p ∈ patterns) :
    ∃ name, (name, p.schema) ∈ declared := by
  induction declared generalizing patterns with
  | nil =>
    cases h
    cases hp
  | cons entry rest ih =>
    obtain ⟨pattern, schema⟩ := entry
    rw [patterns?] at h
    obtain ⟨regex, -, h⟩ := Option.bind_eq_some_iff.mp h
    obtain ⟨others, hothers, h⟩ := Option.bind_eq_some_iff.mp h
    cases h
    rcases List.mem_cons.mp hp with rfl | hp
    · exact ⟨pattern, List.mem_cons_self ..⟩
    · obtain ⟨name, hname⟩ := ih hothers hp
      exact ⟨name, List.mem_cons_of_mem _ hname⟩

/-- The schemas on which names depend are those of members. -/
theorem mem_of_dependencies? {declared : Members} {entries : List (String × Dependency)}
    (h : dependencies? declared = some entries) {name : String} {schema : Json}
    (hp : (name, .schema schema) ∈ entries) : (name, schema) ∈ declared := by
  induction declared generalizing entries with
  | nil =>
    cases h
    cases hp
  | cons entry rest ih =>
    obtain ⟨key, x⟩ := entry
    unfold dependencies? at h
    dsimp only at h
    -- A list is no schema.
    split at h
    · obtain ⟨dependency, hdependency, h⟩ := Option.bind_eq_some_iff.mp h
      obtain ⟨others, hothers, h⟩ := Option.bind_eq_some_iff.mp h
      obtain ⟨names, -, rfl⟩ := Option.map_eq_some_iff.mp hdependency
      cases h
      rcases List.mem_cons.mp hp with he | hp
      · cases he
      · exact List.mem_cons_of_mem _ (ih hothers hp)
    · obtain ⟨dependency, hdependency, h⟩ := Option.bind_eq_some_iff.mp h
      obtain ⟨others, hothers, h⟩ := Option.bind_eq_some_iff.mp h
      cases hdependency
      cases h
      rcases List.mem_cons.mp hp with he | hp
      · cases he
        exact List.mem_cons_self ..
      · exact List.mem_cons_of_mem _ (ih hothers hp)

/-- The members of an object are those of the object. -/
theorem eq_obj_of_members? {declared : Members} (h : w.members? = some declared) :
    w = .obj declared := by
  cases w <;> cases h
  rfl

/-- The items of an array are those of the array. -/
theorem eq_arr_of_items? {schemas : List Json} (h : w.items? = some schemas) :
    w = .arr schemas := by
  cases w <;> cases h
  rfl

/-- The members of a keyword, if it is there, are members of its value. -/
theorem mem_of_getD {declared : Members} {p : String × Json}
    (h : ((siblings.lookup keyword).getD (.obj [])).members? = some declared) (hp : p ∈ declared) :
    (keyword, .obj declared) ∈ siblings := by
  cases hl : siblings.lookup keyword with
  | none =>
    rw [hl] at h
    cases h
    cases hp
  | some w =>
    rw [hl] at h
    cases eq_obj_of_members? h
    exact Json.mem_of_lookup hl

/-- The rule of `additionalProperties` is made of schemas for members. -/
theorem from_additionalProperties? (hw : ("additionalProperties", w) ∈ siblings)
    (h : additionalProperties? siblings w = some rules) (hrule : rule ∈ rules) :
    rule.From siblings := by
  unfold additionalProperties? at h
  obtain ⟨declared, hdeclared, h⟩ := Option.bind_eq_some_iff.mp h
  obtain ⟨patterns, hpatterns, h⟩ := Option.bind_eq_some_iff.mp h
  obtain ⟨named, hnamed, hpatterns⟩ := Option.bind_eq_some_iff.mp hpatterns
  have hfirst : ∀ v ∈ declared.map (·.2), Descends siblings v := by
    intro v hv
    obtain ⟨p, hp, rfl⟩ := List.mem_map.mp hv
    exact .member (by decide) (mem_of_getD hdeclared hp) hp
  have hsecond : ∀ v ∈ patterns.map (·.schema), Descends siblings v := by
    intro v hv
    obtain ⟨p, hp, rfl⟩ := List.mem_map.mp hv
    obtain ⟨name, hname⟩ := mem_of_patterns? hpatterns hp
    exact .member (by decide) (mem_of_getD hnamed hname) hname
  have hboth : ∀ v ∈ declared.map (·.2) ++ patterns.map (·.schema), Descends siblings v :=
    fun v hv => (List.mem_append.mp hv).elim (hfirst v) (hsecond v)
  split at h
  · cases h
    cases hrule
  · cases h
    cases List.mem_singleton.mp hrule
    split
    · exact .assertion
    · exact .ofParts rfl hboth
  · cases h
    cases List.mem_singleton.mp hrule
    refine .ofParts rfl fun v hv => (List.mem_append.mp hv).elim (hboth v) fun hv => ?_
    rw [List.mem_singleton.mp hv]
    exact .value (by decide) hw

/-- The rule of `if` is made of its value and those of `then` and `else`. -/
theorem from_choice? (hw : ("if", w) ∈ siblings) (hrule : rule ∈ choice? siblings w) :
    rule.From siblings := by
  unfold choice? at hrule
  split at hrule
  · cases hrule
  · cases List.mem_singleton.mp hrule
    refine .ofInPlace rfl fun v hv => ?_
    have hcase : v = w ∨ siblings.lookup "then" = some v ∨ siblings.lookup "else" = some v := by
      simpa [inPlace] using hv
    rcases hcase with rfl | hthen | helse
    · exact .value (by decide) hw
    · exact .value (by decide) (Json.mem_of_lookup hthen)
    · exact .value (by decide) (Json.mem_of_lookup helse)

/-- The rule of `propertyNames` is made of its value. -/
theorem from_propertyNames? (hw : ("propertyNames", w) ∈ siblings)
    (hrule : rule ∈ propertyNames? w) : rule.From siblings := by
  unfold propertyNames? at hrule
  split at hrule
  · cases List.mem_singleton.mp hrule
    exact .ofPart rfl rfl (.value (by decide) hw)
  · cases List.mem_singleton.mp hrule
    exact .assertion
  · cases hrule

/-- The rule of `items` is made of its value, or of the items of it. -/
theorem from_items? (hw : ("items", w) ∈ siblings) (hrule : rule ∈ items? w) :
    rule.From siblings := by
  unfold items? at hrule
  split at hrule
  · cases List.mem_singleton.mp hrule
    exact .ofParts rfl fun v hv => .item hw hv
  · cases List.mem_singleton.mp hrule
    exact .ofPart rfl rfl (.value (by decide) hw)
  · cases List.mem_singleton.mp hrule
    exact .ofPart rfl rfl (.value (by decide) hw)
  · cases hrule

/-- The rule of `additionalItems` is made of its value. -/
theorem from_additionalItems? (hw : ("additionalItems", w) ∈ siblings)
    (h : additionalItems? siblings w = some rules) (hrule : rule ∈ rules) :
    rule.From siblings := by
  unfold additionalItems? at h
  split at h
  · cases h
    cases hrule
  · cases h
    cases hrule
  · cases h
    cases hrule
  · split at h
    · cases h
      cases List.mem_singleton.mp hrule
      exact .assertion
    · cases h
      cases List.mem_singleton.mp hrule
      exact .ofPart rfl rfl (.value (by decide) hw)
    · cases h
      cases hrule
  · cases h

/-- The rule of `properties` is made of the schemas of members. -/
theorem from_properties? (hw : ("properties", w) ∈ siblings)
    (h : properties? siblings w = some rules) (hrule : rule ∈ rules) : rule.From siblings := by
  unfold properties? at h
  split at h
  · cases h
    cases hrule
  · obtain ⟨declared, hdeclared, rfl⟩ := Option.map_eq_some_iff.mp h
    cases eq_obj_of_members? hdeclared
    cases List.mem_singleton.mp hrule
    refine .ofParts rfl fun v hv => ?_
    obtain ⟨p, hp, rfl⟩ := List.mem_map.mp hv
    exact .member (by decide) hw hp

/-- The rule of `patternProperties` is made of the schemas of patterns. -/
theorem from_patternProperties? (hw : ("patternProperties", w) ∈ siblings)
    (h : patternProperties? siblings w = some rules) (hrule : rule ∈ rules) :
    rule.From siblings := by
  unfold patternProperties? at h
  split at h
  · cases h
    cases hrule
  · obtain ⟨patterns, hpatterns, rfl⟩ := Option.map_eq_some_iff.mp h
    obtain ⟨declared, hdeclared, hpatterns⟩ := Option.bind_eq_some_iff.mp hpatterns
    cases eq_obj_of_members? hdeclared
    cases List.mem_singleton.mp hrule
    refine .ofParts rfl fun v hv => ?_
    obtain ⟨p, hp, rfl⟩ := List.mem_map.mp hv
    obtain ⟨name, hname⟩ := mem_of_patterns? hpatterns hp
    exact .member (by decide) hw hname

/-- The rule of `dependencies` is made of schemas on which names depend. -/
theorem from_dependencies? {entries : List (String × Dependency)}
    (hw : ("dependencies", w) ∈ siblings) (h : w.members?.bind dependencies? = some entries) :
    (dependencies entries).From siblings := by
  obtain ⟨declared, hdeclared, h⟩ := Option.bind_eq_some_iff.mp h
  cases eq_obj_of_members? hdeclared
  refine .ofInPlace rfl fun v hv => ?_
  obtain ⟨⟨name, dependency⟩, hmem, hsome⟩ := List.mem_filterMap.mp hv
  cases dependency with
  | members names => cases hsome
  | schema schema =>
    cases hsome
    exact .dependency hw (mem_of_dependencies? h hmem)

/-- The rules of a keyword are made of the schemas of the node. -/
theorem from_read? (hw : (keyword, w) ∈ siblings) (h : read? siblings keyword w = some rules)
    (hrule : rule ∈ rules) : rule.From siblings := by
  have hassertion : ∀ {α : Type} {x : Option α} {f : α → Assertion},
      x.map (fun a => [assertion (f a)]) = some rules → rule.From siblings := by
    intro α x f hx
    obtain ⟨a, -, rfl⟩ := Option.map_eq_some_iff.mp hx
    cases List.mem_singleton.mp hrule
    exact .assertion
  -- What combines schemas has them as its items.
  have hcombined : ∀ {f : List Json → Rule}, keyword ∈ ["allOf", "anyOf", "oneOf"] →
      w.items?.map (fun schemas => [f schemas]) = some rules →
      (∀ schemas, (f schemas).inPlace = schemas ∧ (f schemas).parts = []) →
      rule.From siblings := by
    intro f hk hx hf
    obtain ⟨schemas, hs, rfl⟩ := Option.map_eq_some_iff.mp hx
    cases List.mem_singleton.mp hrule
    cases eq_arr_of_items? hs
    exact .ofInPlace (hf schemas).2 fun v hv => .item hk hw ((hf schemas).1 ▸ hv)
  unfold read? at h
  split at h
  case h_1 | h_2 | h_14 | h_17 => exact hassertion h
  case h_4 | h_5 | h_6 | h_7 | h_8 | h_9 => exact hassertion h
  case h_10 | h_11 | h_12 | h_13 => exact hassertion h
  case h_3 => exact hassertion (x := some w) h
  case h_15 =>
    obtain ⟨text, -, h⟩ := Option.bind_eq_some_iff.mp h
    obtain ⟨regex, -, h⟩ := Option.bind_eq_some_iff.mp h
    cases h
    cases List.mem_singleton.mp hrule
    exact .assertion
  case h_16 =>
    split at h
    · cases h
      cases List.mem_singleton.mp hrule
      exact .assertion
    · cases h
      cases hrule
  case h_18 =>
    cases h
    exact from_items? hw hrule
  case h_19 => exact from_additionalItems? hw h hrule
  case h_20 =>
    cases h
    cases List.mem_singleton.mp hrule
    exact .ofPart rfl rfl (.value (by decide) hw)
  case h_21 => exact from_properties? hw h hrule
  case h_22 => exact from_patternProperties? hw h hrule
  case h_23 => exact from_additionalProperties? hw h hrule
  case h_24 =>
    cases h
    exact from_propertyNames? hw hrule
  case h_25 =>
    obtain ⟨entries, hentries, rfl⟩ := Option.map_eq_some_iff.mp h
    cases List.mem_singleton.mp hrule
    exact from_dependencies? hw hentries
  case h_26 => exact hcombined (by decide) h fun _ => ⟨rfl, rfl⟩
  case h_27 => exact hcombined (by decide) h fun _ => ⟨rfl, rfl⟩
  case h_28 => exact hcombined (by decide) h fun _ => ⟨rfl, rfl⟩
  case h_29 =>
    cases h
    cases List.mem_singleton.mp hrule
    refine .ofInPlace rfl fun v hv => ?_
    rw [List.mem_singleton.mp hv]
    exact .value (by decide) hw
  case h_30 =>
    cases h
    exact from_choice? hw hrule
  case h_31 =>
    cases h
    cases hrule

/-- The rules of a node are made of its schemas. -/
theorem from_of_read? (h : Node.read? (.obj siblings) = some (.rules rules))
    (hrule : rule ∈ rules) : rule.From siblings := by
  unfold Node.read? at h
  dsimp only at h
  split at h
  · obtain ⟨text, -, he⟩ := Option.map_eq_some_iff.mp h
    cases he
  · obtain ⟨found, hfound, he⟩ := Option.map_eq_some_iff.mp h
    cases he
    obtain ⟨p, hp, rs, hread, hmem⟩ := ((mem_of_gather? hfound).2 rule).mp hrule
    exact from_read? hp hread hmem

end Rule

/-! ## Evaluating rules -/

/-- What exists on all elements of a list can be gathered. -/
theorem gather?_isSome {α β : Type} {f : α → Option (List β)} {xs : List α}
    (h : ∀ x ∈ xs, (f x).isSome) : (gather? f xs).isSome := by
  induction xs with
  | nil => rfl
  | cons x rest ih =>
    obtain ⟨hx, hrest⟩ := List.forall_mem_cons.mp h
    obtain ⟨found, hfound⟩ := Option.isSome_iff_exists.mp hx
    obtain ⟨others, hothers⟩ := Option.isSome_iff_exists.mp (ih hrest)
    rw [gather?, hfound, hothers]
    rfl

/-- A function with results on all elements of a list has a list of results. -/
theorem mapM_isSome {α β : Type} {f : α → Option β} {xs : List α} (h : ∀ x ∈ xs, (f x).isSome) :
    (xs.mapM f).isSome := by
  induction xs with
  | nil => rfl
  | cons x rest ih =>
    obtain ⟨hx, hrest⟩ := List.forall_mem_cons.mp h
    obtain ⟨y, hy⟩ := Option.isSome_iff_exists.mp hx
    obtain ⟨ys, hys⟩ := Option.isSome_iff_exists.mp (ih hrest)
    rw [List.mapM_cons, hy, hys]
    rfl

namespace Rule

variable {same : Json → Json → Bool} {check : Check} {place : Locator}

/-- What speaks of a member is declared by name or by pattern. -/
theorem mem_of_mem_schemasOf {declared : Members} {patterns : List PatternSchema} {name : String}
    (h : v ∈ schemasOf declared patterns name) :
    v ∈ declared.map (·.2) ++ patterns.map (·.schema) := by
  unfold schemasOf at h
  rcases List.mem_append.mp h with h | h
  · have hmem := Json.mem_of_lookup (Option.mem_toList.mp h)
    exact List.mem_append_left _ (List.mem_map.mpr ⟨_, hmem, rfl⟩)
  · obtain ⟨p, hp, rfl⟩ := List.mem_map.mp h
    exact List.mem_append_right _ (List.mem_map.mpr ⟨p, (List.mem_filter.mp hp).1, rfl⟩)

/-- What follows a result is a result. -/
theorem isSome_bind_pure {α β : Type} {x : Option α} {f : α → β} (h : x.isSome) :
    (x >>= fun a => pure (f a)).isSome := by
  obtain ⟨a, rfl⟩ := Option.isSome_iff_exists.mp h
  rfl

/-- The verdicts of schemas on a value. -/
theorem verdicts_isSome {schemas : List Json}
    (h : ∀ schema ∈ schemas, ∀ place, (check schema v place).isSome) :
    (verdicts check v place schemas).isSome :=
  mapM_isSome fun schema hs => by
    rw [Option.isSome_map]
    exact h schema hs place

/-- A rule can be evaluated when the schemas in place can be checked on the value, and the others on
all lower values. A rule for values of another kind finds nothing. -/
theorem evaluate_isSome (hinPlace : ∀ schema ∈ rule.inPlace, ∀ place, (check schema v place).isSome)
    (hparts : ∀ schema ∈ rule.parts, ∀ w place, w.height < v.height →
      (check schema w place).isSome) : (rule.evaluate same check v place).isSome := by
  have hitem : ∀ {vs}, v = .arr vs → ∀ schema ∈ rule.parts, ∀ p ∈ placedItems place 0 vs,
      (check schema p.1 p.2).isSome := by
    rintro vs rfl schema hs p hp
    exact hparts schema hs p.1 p.2 (Json.height_lt_of_mem_items (mem_of_mem_placedItems hp))
  have hmember : ∀ {ms}, v = .obj ms → ∀ schema ∈ rule.parts, ∀ p ∈ ms, ∀ place,
      (check schema p.2 place).isSome := by
    rintro ms rfl schema hs p hp place
    exact hparts schema hs p.2 place (Json.height_lt_of_mem_members hp)
  cases rule with
  | assertion a => rfl
  | items schema =>
    cases v with
    | arr vs => exact gather?_isSome fun p hp => hitem rfl schema (List.mem_singleton_self _) p hp
    | _ => rfl
  | tuple schemas =>
    cases v with
    | arr vs =>
      exact gather?_isSome fun p hp =>
        hitem rfl p.1 (List.of_mem_zip hp).1 p.2 (List.of_mem_zip hp).2
    | _ => rfl
  | itemsFrom start schema =>
    cases v with
    | arr vs =>
      exact gather?_isSome fun p hp =>
        hitem rfl schema (List.mem_singleton_self _) p (List.mem_of_mem_drop hp)
    | _ => rfl
  | contains schema =>
    cases v with
    | arr vs =>
      refine isSome_bind_pure (mapM_isSome fun item hmem => ?_)
      rw [Option.isSome_map]
      exact hparts schema (List.mem_singleton_self _) item _ (Json.height_lt_of_mem_items hmem)
    | _ => rfl
  | members declared =>
    cases v with
    | obj ms =>
      refine gather?_isSome fun p hp => ?_
      dsimp only
      split
      · rfl
      · next w hw =>
        exact hmember rfl p.2 (List.mem_map.mpr ⟨p, hp, rfl⟩) _ (Json.mem_of_lookup hw) _
    | _ => rfl
  | matching patterns =>
    cases v with
    | obj ms =>
      refine gather?_isSome fun p hp => gather?_isSome fun q hq => ?_
      exact hmember rfl p.schema (List.mem_map.mpr ⟨p, hp, rfl⟩) q (List.mem_filter.mp hq).1 _
    | _ => rfl
  | closed declared patterns =>
    cases v with
    | obj ms =>
      refine isSome_bind_pure (gather?_isSome fun p hp => gather?_isSome fun schema hs => ?_)
      exact hmember rfl schema (mem_of_mem_schemasOf hs) p hp _
    | _ => rfl
  | others declared patterns schema =>
    cases v with
    | obj ms =>
      refine gather?_isSome fun p hp => gather?_isSome fun other ho => hmember rfl other ?_ p hp _
      -- What is not spoken of has to meet the schema for all others.
      split at ho
      · rw [List.mem_singleton.mp ho]
        exact List.mem_append_right _ (List.mem_singleton_self _)
      · exact List.mem_append_left _ (mem_of_mem_schemasOf ho)
    | _ => rfl
  | names schema =>
    cases v with
    | obj ms =>
      refine gather?_isSome fun p hp => hparts schema (List.mem_singleton_self _) _ _ ?_
      exact Nat.lt_of_le_of_lt (Nat.zero_le _) (Json.height_lt_of_mem_members hp)
    | _ => rfl
  | dependencies entries =>
    cases v with
    | obj ms =>
      refine gather?_isSome fun p hp => ?_
      obtain ⟨name, dependency⟩ := p
      dsimp only
      split
      · rfl
      · cases dependency with
        | members needed => rfl
        | schema schema => exact hinPlace schema (List.mem_filterMap.mpr ⟨_, hp, rfl⟩) place
    | _ => rfl
  | allOf schemas => exact gather?_isSome fun schema hs => hinPlace schema hs place
  | anyOf schemas => exact isSome_bind_pure (verdicts_isSome hinPlace)
  | oneOf schemas => exact isSome_bind_pure (verdicts_isSome hinPlace)
  | not schema => exact isSome_bind_pure (hinPlace schema (List.mem_singleton_self _) place)
  | choice condition met unmet =>
    have hcondition := hinPlace condition (List.mem_cons_self ..) place
    obtain ⟨found, hfound⟩ := Option.isSome_iff_exists.mp hcondition
    rw [evaluate, hfound, Option.bind_eq_bind, Option.bind_some]
    split
    · rfl
    · next schema hs =>
      refine hinPlace schema (List.mem_cons_of_mem _ ?_) place
      split at hs
      · exact List.mem_append_left _ (Option.mem_toList.mpr hs)
      · exact List.mem_append_right _ (Option.mem_toList.mpr hs)

end Rule

end LinkedSchema.Draft7
