import LinkedSchema.Proofs.Rules

/-!
# Nodes of the common subset

The keywords that go on below a node gather the findings of a check of subschemas, and find nothing
when all of it does. `properties` and `additionalProperties` are treated together, since a closed
object takes over the members that are declared. A node without reference then finds nothing exactly
when the value satisfies it, as soon as the check below decides satisfaction (`Unreferenced.finds`).
-/

namespace LinkedSchema.Draft7

open Structural

variable {same : Json → Json → Bool} {check : Check} {schema : Members} {v : Json}
  {place : Locator} {keyword : String}

/-! ## Keywords that go on below -/

variable {files : Texts} {s : Store} {context : Context}

/-- Findings, if they can be told, are none exactly when a proposition holds. -/
def Finds (x : Option (List Finding)) (P : Prop) : Prop :=
  ∀ found, x = some found → (found = [] ↔ P)

/-- A check below a node finds what satisfaction says of a subschema and a value. -/
def ChecksSatisfy (files : Texts) (s : Store) (same : Json → Json → Bool) (check : Check)
    (context : Context) (node w : Json) : Prop :=
  ∀ place, Finds (check node w place) (Satisfies files s same context node w)

/-- A keyword that is read as one rule. -/
theorem answers_rule {x : Json} {rule : Rule} {P : Prop}
    (hread : Rule.read? schema keyword x = some [rule])
    (h : Finds (Rule.evaluate same check v place rule) P) :
    Answers same check schema v place keyword x P := by
  refine ⟨_, hread, fun hsome => ?_⟩
  obtain ⟨found, hfound⟩ := hsome rule (List.mem_cons_self ..)
  rw [← h found hfound]
  unfold Passes
  simp [hfound]

/-- Nothing is gathered when all that is asked holds. -/
theorem gather?_finds {α : Type} {f : α → Option (List Finding)} {xs : List α} {P : α → Prop}
    (h : ∀ x ∈ xs, Finds (f x) (P x)) : Finds (gather? f xs) (∀ x ∈ xs, P x) := by
  intro found hfound
  rw [gather?_eq_nil hfound]
  refine forall₂_congr fun x hx => ?_
  obtain ⟨zs, hz⟩ := (mem_of_gather? hfound).1 x hx
  rw [← h x hx zs hz, hz, Option.some.injEq]

/-- The keyword `items`. -/
theorem answers_items {x : Json} (hx : schema.lookup "items" = some x) (ha : Allowed "items" x)
    (hcheck : ∀ vs, v = .arr vs → ∀ w ∈ vs, ChecksSatisfy files s same check context x w) :
    Answers same check schema v place "items" x (ItemsSatisfy files s same context schema v) := by
  obtain ⟨itemSchema, rfl⟩ := ha
  refine answers_rule rfl ?_
  unfold ItemsSatisfy
  cases v with
  | arr vs =>
    have hitems : Finds (Rule.checkItems check (.obj itemSchema) (placedItems place 0 vs))
        (∀ p ∈ placedItems place 0 vs, Satisfies files s same context (.obj itemSchema) p.1) := by
      refine gather?_finds fun p hp => ?_
      exact hcheck vs rfl p.1 (mem_of_mem_placedItems hp) p.2
    intro found hfound
    rw [hitems found hfound, ← List.forall_mem_map (f := Prod.fst), map_fst_placedItems]
    simp [hx]
  | _ =>
    intro found hfound
    cases hfound
    simp

/-- The keyword `anyOf`. -/
theorem answers_anyOf {x : Json} (hx : schema.lookup "anyOf" = some x) (ha : Allowed "anyOf" x)
    (hcheck : ∀ alternatives, x = .arr alternatives → ∀ node ∈ alternatives,
      ChecksSatisfy files s same check context node v) :
    Answers same check schema v place "anyOf" x
      (SomeAlternative files s same context schema v) := by
  obtain ⟨alternatives, rfl, hne⟩ := ha
  refine answers_rule rfl ?_
  rw [someAlternative_iff hx, or_iff_right hne]
  intro found hfound
  obtain ⟨met, hmet, hfound⟩ := Option.bind_eq_some_iff.mp hfound
  cases hfound
  obtain ⟨hall, hmem⟩ := mem_of_mapM_eq_some hmet
  -- Some result is `true` exactly when some alternative was found to be in order.
  have hcontains : met.contains true = true ↔
      ∃ node ∈ alternatives, Satisfies files s same context node v := by
    rw [List.contains_iff_mem]
    constructor
    · intro htrue
      obtain ⟨node, hnode, hc⟩ := hmem true htrue
      obtain ⟨zs, hz, hempty⟩ := Option.map_eq_some_iff.mp hc
      exact ⟨node, hnode, (hcheck _ rfl node hnode place zs hz).mp (List.isEmpty_iff.mp hempty)⟩
    · rintro ⟨node, hnode, hs⟩
      obtain ⟨b, hb, hc⟩ := hall node hnode
      obtain ⟨zs, hz, hempty⟩ := Option.map_eq_some_iff.mp hc
      have hnil := (hcheck _ rfl node hnode place zs hz).mpr hs
      rw [hnil] at hempty
      rw [← hempty] at hb
      exact hb
  rw [← hcontains]
  unfold findingUnless findingsAt
  rw [List.map_eq_nil_iff, demand_eq_nil]

/-! ## Members and their schemas -/

/-- A closed object has declared members only. -/
def OnlyDeclared (schema : Members) (v : Json) : Prop :=
  ∀ ms, v = .obj ms → schema.lookup "additionalProperties" = some (.bool false) →
    ∀ name w, (name, w) ∈ ms → ∃ memberSchema, (declared schema).lookup name = some memberSchema

/-- Below an object, members are checked against the schemas that are declared for them. -/
def ChecksMembers (files : Texts) (s : Store) (same : Json → Json → Bool) (check : Check)
    (context : Context) (schema : Members) (v : Json) : Prop :=
  ∀ ms, v = .obj ms → ∀ name w memberSchema, (name, w) ∈ ms →
    (declared schema).lookup name = some memberSchema →
    ChecksSatisfy files s same check context memberSchema w

/-- Schemas that are declared are found. -/
theorem declared_eq {x : Json} {ds : Members} (hx : schema.lookup "properties" = some x)
    (hd : x = .obj ds) : declared schema = ds := by
  rw [declared, hx, hd]
  rfl

/-- The keyword `properties` of an object that is not closed. -/
theorem answers_properties {x : Json} (hx : schema.lookup "properties" = some x)
    (ha : Allowed "properties" x) (hopen : Rule.takesOver schema = false)
    (hdistinct : Json.Distinct (.obj schema)) (hv : v.Distinct)
    (hcheck : ChecksMembers files s same check context schema v) :
    Answers same check schema v place "properties" x
      (MembersSatisfy files s same context schema v) := by
  obtain ⟨ds, rfl⟩ := ha
  have hdeclared := declared_eq hx rfl
  -- Nothing takes over the declared members, so `properties` has a rule of its own.
  have hread : Rule.read? schema "properties" (.obj ds) = some [.members ds] := by
    have hif : Rule.read? schema "properties" (.obj ds) =
        if Rule.takesOver schema then some [] else some [.members ds] := rfl
    rw [hif, hopen, if_neg Bool.false_ne_true]
  refine answers_rule hread ?_
  unfold MembersSatisfy
  cases v with
  | obj ms =>
    have hds : (ds.map Prod.fst).Nodup :=
      hdistinct ds (Json.Inside.here.member (Json.mem_of_lookup hx))
    have hms : (ms.map Prod.fst).Nodup := hv ms .here
    -- The rule goes through the declared names, and satisfaction through the members.
    have heach : Finds (Rule.checkDeclared check ds ms place)
        (∀ p ∈ ds, ∀ w, ms.lookup p.1 = some w → Satisfies files s same context p.2 w) := by
      refine gather?_finds fun p hp found hfound => ?_
      cases hl : ms.lookup p.1 with
      | none =>
        simp only [hl] at hfound
        cases hfound
        simp
      | some w =>
        simp only [hl] at hfound
        have hlookup : (declared schema).lookup p.1 = some p.2 := by
          rw [hdeclared]
          exact Json.lookup_of_mem hds hp
        have hfinds := hcheck ms rfl p.1 w p.2 (Json.mem_of_lookup hl) hlookup _ found hfound
        simpa using hfinds
    intro found hfound
    rw [heach found hfound, hdeclared]
    constructor
    · rintro hall ms' hms' name w memberSchema hw hl
      cases hms'
      exact hall (name, memberSchema) (Json.mem_of_lookup hl) w (Json.lookup_of_mem hms hw)
    · intro hall p hp w hw
      exact hall ms rfl p.1 w p.2 (Json.mem_of_lookup hw) (Json.lookup_of_mem hds hp)
  | _ =>
    intro found hfound
    cases hfound
    simp

/-- Without patterns the schemas that speak of a member are the one declared for it. -/
theorem mem_schemasOf {ds : Members} {name : String} {node : Json} :
    node ∈ Rule.schemasOf ds [] name ↔ ds.lookup name = some node := by
  simp [Rule.schemasOf]

/-- The check of a closed object finds nothing when all members are declared and meet their
schemas. -/
theorem finds_checkClosed {ds ms : Members} {P : Json → Json → Prop}
    (hcheck : ∀ p ∈ ms, ∀ node, ds.lookup p.1 = some node →
      ∀ place, Finds (check node p.2 place) (P node p.2)) :
    Finds (Rule.checkClosed check ds [] ms place)
      ((∀ p ∈ ms, ∀ node, ds.lookup p.1 = some node → P node p.2) ∧
        ∀ p ∈ ms, ∃ node, ds.lookup p.1 = some node) := by
  have heach : Finds (gather? (fun p => Rule.checkMember check (Rule.schemasOf ds [] p.1) p.1 p.2
      place) ms) (∀ p ∈ ms, ∀ node ∈ Rule.schemasOf ds [] p.1, P node p.2) := by
    refine gather?_finds fun p hp => gather?_finds fun node hnode => ?_
    exact hcheck p hp node (mem_schemasOf.mp hnode) _
  intro found hfound
  unfold Rule.checkClosed at hfound
  obtain ⟨first, hfirst, hfound⟩ := Option.bind_eq_some_iff.mp hfound
  cases hfound
  have hstrangers : ((ms.filter fun p => (Rule.schemasOf ds [] p.1).isEmpty).isEmpty = true) ↔
      ∀ p ∈ ms, ∃ node, ds.lookup p.1 = some node := by
    rw [List.isEmpty_iff, List.filter_eq_nil_iff]
    refine forall₂_congr fun p _ => ?_
    rw [List.isEmpty_iff, List.eq_nil_iff_forall_not_mem]
    simp only [not_forall, not_not, mem_schemasOf]
  rw [List.append_eq_nil_iff, heach first hfirst]
  unfold findingUnless findingsAt
  rw [List.map_eq_nil_iff, demand_eq_nil]
  simp only [mem_schemasOf]
  exact and_congr_right fun _ => hstrangers

/-- The value of `properties`, if it is there, holds the schemas that are declared. -/
theorem members?_properties
    (hprops : ∀ x, schema.lookup "properties" = some x → ∃ ds, x = .obj ds) :
    ((schema.lookup "properties").getD (.obj [])).members? = some (declared schema) := by
  cases hp : schema.lookup "properties" with
  | none =>
    rw [declared, hp]
    rfl
  | some x =>
    obtain ⟨ds, rfl⟩ := hprops x hp
    rw [declared_eq hp rfl]
    rfl

/-- Members are in order in a closed object when each is declared and meets its schema. -/
theorem onlyDeclared_and_membersSatisfy_iff
    (hx : schema.lookup "additionalProperties" = some (.bool false)) :
    (OnlyDeclared schema v ∧ MembersSatisfy files s same context schema v) ↔
      ∀ ms, v = .obj ms →
        (∀ p ∈ ms, ∀ node, (declared schema).lookup p.1 = some node →
          Satisfies files s same context node p.2) ∧
        ∀ p ∈ ms, ∃ node, (declared schema).lookup p.1 = some node := by
  constructor
  · rintro ⟨honly, hall⟩ ms hms
    exact ⟨fun p hp node hn => hall ms hms p.1 p.2 node hp hn,
      fun p hp => honly ms hms hx p.1 p.2 hp⟩
  · intro h
    exact ⟨fun ms hms _ name w hw => (h ms hms).2 (name, w) hw,
      fun ms hms name w node hw hn => (h ms hms).1 (name, w) hw node hn⟩

/-- The keyword `additionalProperties` that closes an object asks for declared members only, and
speaks for `properties`. -/
theorem answers_closed (hprops : ∀ x, schema.lookup "properties" = some x → ∃ ds, x = .obj ds)
    (hpatterns : schema.lookup "patternProperties" = none)
    (hx : schema.lookup "additionalProperties" = some (.bool false))
    (hcheck : ChecksMembers files s same check context schema v) :
    Answers same check schema v place "additionalProperties" (.bool false)
      (OnlyDeclared schema v ∧ MembersSatisfy files s same context schema v) := by
  have hread : Rule.read? schema "additionalProperties" (.bool false) =
      some [if (schema.lookup "properties").isNone then .assertion .noMembers
        else .closed (declared schema) []] := by
    have hopen : Rule.read? schema "additionalProperties" (.bool false) =
        Rule.additionalProperties? schema (.bool false) := rfl
    rw [hopen, Rule.additionalProperties?, members?_properties hprops, hpatterns]
    simp only [Option.isNone_none, Bool.and_true]
    rfl
  rw [onlyDeclared_and_membersSatisfy_iff hx]
  refine answers_rule hread ?_
  cases v with
  | obj ms =>
    simp only [Json.obj.injEq, forall_eq']
    split
    · next hnone =>
      -- Without `properties` nothing is declared, and no member is accepted.
      have hnil : declared schema = [] := by
        rw [declared, Option.isNone_iff_eq_none.mp hnone]
        rfl
      intro found hfound
      cases hfound
      rw [hnil]
      cases ms with
      | nil => simp [findingsAt, Assertion.messages]
      | cons p rest =>
        obtain ⟨name, w⟩ := p
        constructor
        · intro h
          cases h
        · rintro ⟨-, h⟩
          obtain ⟨node, hnode⟩ := h (name, w) (List.mem_cons_self ..)
          cases hnode
    · exact finds_checkClosed fun p hp node hn => hcheck ms rfl p.1 p.2 node hp hn
  | _ =>
    intro found hfound
    have hempty : some [] = some found := by
      rw [← hfound]
      split <;> rfl
    cases hempty
    simp

/-! ## A whole node -/

/-- The rules of a keyword, where it is present, find nothing. -/
def KeywordPasses (same : Json → Json → Bool) (check : Check) (schema : Members) (v : Json)
    (place : Locator) (keyword : String) : Prop :=
  ∀ x, schema.lookup keyword = some x →
    ∀ rules, Rule.read? schema keyword x = some rules → Passes same check v place rules

/-- The rules of a node can be evaluated. -/
def Evaluates (same : Json → Json → Bool) (check : Check) (schema : Members) (v : Json)
    (place : Locator) : Prop :=
  ∀ keyword x rules, schema.lookup keyword = some x → Rule.read? schema keyword x = some rules →
    ∀ rule ∈ rules, ∃ found, Rule.evaluate same check v place rule = some found

/-- A keyword passes when it is absent or its answer holds. -/
theorem Evaluates.keywordPasses_iff (h : Evaluates same check schema v place) {P : Prop}
    (hpresent : ∀ x, schema.lookup keyword = some x → Answers same check schema v place keyword x P)
    (habsent : schema.lookup keyword = none → P) :
    KeywordPasses same check schema v place keyword ↔ P := by
  unfold KeywordPasses
  cases hx : schema.lookup keyword with
  | none => simpa using habsent hx
  | some x =>
    obtain ⟨rules, hread, hiff⟩ := hpresent x hx
    simp [hread, hiff (h keyword x rules hx hread)]

/-- A node without reference is found to be in order exactly when all its keywords pass. -/
theorem finds_rules {rules : List Rule}
    (hread : gather? (fun p : String × Json => Rule.read? schema p.1 p.2) schema = some rules)
    (hnames : (schema.map Prod.fst).Nodup) {found : List Finding}
    (h : gather? (Rule.evaluate same check v place) rules = some found) :
    Evaluates same check schema v place ∧
      (found = [] ↔ ∀ keyword, KeywordPasses same check schema v place keyword) := by
  obtain ⟨-, hmem⟩ := mem_of_gather? hread
  obtain ⟨hall, -⟩ := mem_of_gather? h
  have hrule : ∀ rule, rule ∈ rules ↔ ∃ keyword x rs, schema.lookup keyword = some x ∧
      Rule.read? schema keyword x = some rs ∧ rule ∈ rs := by
    intro rule
    rw [hmem]
    constructor
    · rintro ⟨⟨keyword, x⟩, hp, rs, hrs, hr⟩
      exact ⟨keyword, x, rs, Json.lookup_of_mem hnames hp, hrs, hr⟩
    · rintro ⟨keyword, x, rs, hp, hrs, hr⟩
      exact ⟨(keyword, x), Json.mem_of_lookup hp, rs, hrs, hr⟩
  constructor
  · intro keyword x rs hx hrs rule hr
    exact hall rule ((hrule rule).mpr ⟨keyword, x, rs, hx, hrs, hr⟩)
  · rw [gather?_eq_nil h]
    constructor
    · intro hnone keyword x hx rs hrs rule hr
      exact hnone rule ((hrule rule).mpr ⟨keyword, x, rs, hx, hrs, hr⟩)
    · intro hpass rule hr
      obtain ⟨keyword, x, rs, hx, hrs, hr⟩ := (hrule rule).mp hr
      exact hpass keyword x hx rs hrs rule hr

/-- A node whose own keywords are the ones that stand beside each other. -/
structure Unreferenced (schema : Members) : Prop where
  /-- The node is common. -/
  common : CommonNode schema
  /-- It has no reference. -/
  reference : schema.lookup "$ref" = none
  /-- The names inside are distinct. -/
  distinct : Json.Distinct (.obj schema)

namespace Unreferenced

variable (h : Unreferenced schema)

include h

/-- Every keyword of the node has a value that the common subset allows. -/
theorem allowed {x : Json} (hx : schema.lookup keyword = some x) : Allowed keyword x :=
  h.common.allowed keyword x (Json.mem_of_lookup hx)

/-- The keywords of the node are distinct. -/
theorem names : (schema.map Prod.fst).Nodup := h.distinct schema .here

/-- A keyword outside the common subset is absent. -/
theorem absent (hk : ∀ x, ¬Allowed keyword x) : schema.lookup keyword = none := by
  cases hx : schema.lookup keyword with
  | none => rfl
  | some x => exact absurd (h.allowed hx) (hk x)

/-- Only the keywords that stand beside each other can fail. -/
theorem forall_keywordPasses_iff :
    (∀ keyword, KeywordPasses same check schema v place keyword) ↔
      ∀ keyword ∈ siblingKeywords, KeywordPasses same check schema v place keyword := by
  refine ⟨fun hall keyword _ => hall keyword, fun hall keyword x hx => ?_⟩
  rcases (h.allowed hx).cases with rfl | rfl | hmem
  · rw [h.reference] at hx
    cases hx
  · intro rules hread rule hrule
    have hnone : Rule.read? schema "definitions" x = some [] := rfl
    rw [hnone] at hread
    cases hread
    cases hrule
  · exact hall keyword hmem x hx

/-- The keywords for values of a kind, one by one. -/
theorem kindHolds_iff : KindHolds schema v ↔
    LimitsSize schema v .length .low "minLength" ∧ LimitsNumber schema v .low "minimum" ∧
      LimitsNumber schema v .high "maximum" ∧ LimitsSize schema v .items .low "minItems" ∧
      LimitsSize schema v .items .high "maxItems" ∧ HasMembers schema v ∧
      OnlyDeclared schema v := by
  have hpattern : schema.lookup "pattern" = none := h.absent fun x hx => hx
  unfold LimitsSize LimitsNumber HasMembers OnlyDeclared
  cases v with
  | str text =>
    simp only [Measure.of?, Option.some.injEq, forall_eq', reduceCtorEq, false_implies,
      implies_true, and_true, KindHolds]
    exact ⟨fun hk => hk.long, fun hk => ⟨hk, by simp [hpattern]⟩⟩
  | num n =>
    simp only [Measure.of?, Json.num.injEq, forall_eq', reduceCtorEq, false_implies, implies_true,
      and_true, true_and, KindHolds]
    exact ⟨fun hk => ⟨hk.above, hk.below⟩, fun hk => ⟨hk.1, hk.2⟩⟩
  | arr items =>
    simp only [Measure.of?, Option.some.injEq, forall_eq', reduceCtorEq, false_implies,
      implies_true, and_true, true_and, KindHolds]
    exact ⟨fun hk => ⟨hk.enough, hk.few⟩, fun hk => ⟨hk.1, hk.2⟩⟩
  | obj ms =>
    simp only [Measure.of?, Json.obj.injEq, forall_eq', reduceCtorEq, false_implies, implies_true,
      true_and, KindHolds]
    exact ⟨fun hk => ⟨hk.present, hk.known⟩, fun hk => ⟨hk.1, hk.2⟩⟩
  | null => simp [Measure.of?, KindHolds]
  | bool b => simp [Measure.of?, KindHolds]

/-- In a closed object `properties` passes by itself. -/
theorem closedMembers_iff (hev : Evaluates same check schema v place)
    (hclosed : schema.lookup "additionalProperties" = some (.bool false))
    {files : Texts} {s : Store} {context : Context}
    (hcheck : ChecksMembers files s same check context schema v) :
    (KeywordPasses same check schema v place "properties" ∧
        KeywordPasses same check schema v place "additionalProperties") ↔
      OnlyDeclared schema v ∧ MembersSatisfy files s same context schema v := by
  have hpatterns : schema.lookup "patternProperties" = none := h.absent fun x hx => hx
  -- `additionalProperties` takes over the declared members, so `properties` is read as no rule.
  have hover : Rule.takesOver schema = true := by
    rw [Rule.takesOver, hclosed]
  have hprops : KeywordPasses same check schema v place "properties" := by
    intro x _ rules hread rule hrule
    have hif : Rule.read? schema "properties" x =
        if Rule.takesOver schema then some [] else x.members?.map fun ds => [.members ds] := rfl
    rw [hif, if_pos hover] at hread
    cases hread
    cases hrule
  refine (and_iff_right hprops).trans (hev.keywordPasses_iff (fun x hx => ?_) fun hnone => ?_)
  · rw [hclosed] at hx
    cases hx
    exact answers_closed (fun x hx => h.allowed hx) hpatterns hclosed hcheck
  · rw [hclosed] at hnone
    cases hnone

/-- In an object that is not closed `additionalProperties` passes by itself. -/
theorem openMembers_iff (hev : Evaluates same check schema v place) (hv : v.Distinct)
    (hopen : schema.lookup "additionalProperties" ≠ some (.bool false))
    {files : Texts} {s : Store} {context : Context}
    (hcheck : ChecksMembers files s same check context schema v) :
    (KeywordPasses same check schema v place "properties" ∧
        KeywordPasses same check schema v place "additionalProperties") ↔
      OnlyDeclared schema v ∧ MembersSatisfy files s same context schema v := by
  have hover : Rule.takesOver schema = false := by
    unfold Rule.takesOver
    split
    · next hx => exact absurd hx hopen
    · next hx =>
      obtain ⟨b, hb⟩ := h.allowed hx
      cases hb
    · rfl
  have honly : OnlyDeclared schema v := fun ms _ hx => absurd hx hopen
  -- What is left of `additionalProperties` is `true`, which is read as no rule.
  have hother : KeywordPasses same check schema v place "additionalProperties" := by
    intro x hx rules hread rule hrule
    obtain ⟨b, rfl⟩ := h.allowed hx
    cases b with
    | false => exact absurd hx hopen
    | true =>
      have hif : Rule.read? schema "additionalProperties" (.bool true) =
          Rule.additionalProperties? schema (.bool true) := rfl
      rw [hif, Rule.additionalProperties?] at hread
      obtain ⟨ds, -, hread⟩ := Option.bind_eq_some_iff.mp hread
      obtain ⟨patterns, -, hread⟩ := Option.bind_eq_some_iff.mp hread
      cases hread
      cases hrule
  have hprops : KeywordPasses same check schema v place "properties" ↔
      MembersSatisfy files s same context schema v := by
    refine hev.keywordPasses_iff (fun x hx => ?_) fun hnone => ?_
    · exact answers_properties hx (h.allowed hx) hover h.distinct hv hcheck
    · intro ms _ name w memberSchema _ hl
      rw [declared, hnone] at hl
      cases hl
  rw [hprops]
  exact ⟨fun hall => ⟨honly, hall.1⟩, fun hall => ⟨hall.2, hother⟩⟩

/-- The two keywords that speak of declared members, together. -/
theorem members_iff (hev : Evaluates same check schema v place) (hv : v.Distinct)
    {files : Texts} {s : Store} {context : Context}
    (hcheck : ChecksMembers files s same check context schema v) :
    (KeywordPasses same check schema v place "properties" ∧
        KeywordPasses same check schema v place "additionalProperties") ↔
      OnlyDeclared schema v ∧ MembersSatisfy files s same context schema v := by
  by_cases hclosed : schema.lookup "additionalProperties" = some (.bool false)
  · exact h.closedMembers_iff hev hclosed hcheck
  · exact h.openMembers_iff hev hv hclosed hcheck

/-- A keyword that limits the size of a value passes when the size is within the limit. -/
theorem limitsSize_iff (hev : Evaluates same check schema v place) {measure : Measure} {side : Side}
    (hread : ∀ x, Rule.read? schema keyword x = Rule.size? measure side x)
    (ha : ∀ x, Allowed keyword x → ∃ n, x = .num n ∧ n.isIntegral = true ∧ 0 ≤ n.units)
    (hcount : ∀ k, measure.of? v = some k → Countable k) :
    KeywordPasses same check schema v place keyword ↔ LimitsSize schema v measure side keyword :=
  hev.keywordPasses_iff
    (fun x hx => answers_size (hread x) hx h.common.exact (ha x (h.allowed hx)) hcount)
    fun hnone => by simp [LimitsSize, LimitHolds, hnone]

/-- A keyword that bounds a number passes when the number is within the bound. -/
theorem limitsNumber_iff (hev : Evaluates same check schema v place) (hv : v.Exact) {side : Side}
    (hread : ∀ x, Rule.read? schema keyword x = Rule.bound? side false x)
    (ha : ∀ x, Allowed keyword x → ∃ n, x = .num n) :
    KeywordPasses same check schema v place keyword ↔ LimitsNumber schema v side keyword :=
  hev.keywordPasses_iff
    (fun x hx => answers_bound (hread x) hx h.common.exact (ha x (h.allowed hx)) hv)
    fun hnone => by simp [LimitsNumber, LimitHolds, hnone]

end Unreferenced

variable {files : Texts} {s : Store} {context : Context}

/-- A check decides satisfaction of what lies below a node. -/
structure ChecksBelow (files : Texts) (s : Store) (same : Json → Json → Bool) (check : Check)
    (context : Context) (schema : Members) (v : Json) : Prop where
  /-- The alternatives, for the same value. -/
  alternatives : ∀ nodes, schema.lookup "anyOf" = some (.arr nodes) →
    ∀ node ∈ nodes, ChecksSatisfy files s same check context node v
  /-- The schema of items, for every item. -/
  items : ∀ node, schema.lookup "items" = some node → ∀ vs, v = .arr vs →
    ∀ w ∈ vs, ChecksSatisfy files s same check context node w
  /-- The schemas of members, for every member. -/
  members : ChecksMembers files s same check context schema v

/-- The rules of a node without reference find nothing exactly when the value satisfies the node,
both by one comparison of values. -/
theorem Unreferenced.finds (h : Unreferenced schema) (hv : Ordinary v)
    (hbelow : ChecksBelow files s same check context schema v) {rules : List Rule}
    (hread : gather? (fun p : String × Json => Rule.read? schema p.1 p.2) schema = some rules) :
    Finds (gather? (Rule.evaluate same check v place) rules)
      (Satisfies files s same context (.obj schema) v) := by
  intro found hfound
  obtain ⟨hev, hiff⟩ := finds_rules hread h.names hfound
  -- What is measured of the value can be counted.
  have hlength : ∀ k, Measure.length.of? v = some k → Countable k := by
    intro k hk
    cases v with
    | str text => cases hk; exact hv.texts text .here
    | _ => cases hk
  have hcount : ∀ k, Measure.items.of? v = some k → Countable k := by
    intro k hk
    cases v with
    | arr items => cases hk; exact hv.arrays items .here
    | _ => cases hk
  -- The keywords one by one: those for the value itself, and those that go on below it.
  have hanyOf : KeywordPasses same check schema v place "anyOf" ↔
      SomeAlternative files s same context schema v := by
    refine hev.keywordPasses_iff (fun x hx => ?_) fun hnone => .absent fun nodes hn => ?_
    · exact answers_anyOf hx (h.allowed hx) fun nodes hn => hbelow.alternatives nodes (hn ▸ hx)
    · rw [hnone] at hn
      cases hn
  have htype : KeywordPasses same check schema v place "type" ↔ TypeHolds schema v := by
    refine hev.keywordPasses_iff (fun x hx => answers_type hx (h.allowed hx)) fun hnone => ?_
    rw [TypeHolds, hnone]
    trivial
  have henum : KeywordPasses same check schema v place "enum" ↔ EnumHolds same schema v :=
    hev.keywordPasses_iff (fun x hx => answers_enum hx (h.allowed hx))
      fun hnone => by simp [EnumHolds, hnone]
  have hlong : KeywordPasses same check schema v place "minLength" ↔
      LimitsSize schema v .length .low "minLength" :=
    h.limitsSize_iff hev (fun _ => rfl) (fun _ ha => ha) hlength
  have habove : KeywordPasses same check schema v place "minimum" ↔
      LimitsNumber schema v .low "minimum" :=
    h.limitsNumber_iff hev hv.exact (fun _ => rfl) fun _ ha => ha
  have hbound : KeywordPasses same check schema v place "maximum" ↔
      LimitsNumber schema v .high "maximum" :=
    h.limitsNumber_iff hev hv.exact (fun _ => rfl) fun _ ha => ha
  have henough : KeywordPasses same check schema v place "minItems" ↔
      LimitsSize schema v .items .low "minItems" :=
    h.limitsSize_iff hev (fun _ => rfl) (fun _ ha => ha) hcount
  have hfew : KeywordPasses same check schema v place "maxItems" ↔
      LimitsSize schema v .items .high "maxItems" :=
    h.limitsSize_iff hev (fun _ => rfl) (fun _ ha => ha) hcount
  have hitems : KeywordPasses same check schema v place "items" ↔
      ItemsSatisfy files s same context schema v := by
    refine hev.keywordPasses_iff (fun x hx => ?_) fun hnone => ?_
    · exact answers_items hx (h.allowed hx) (hbelow.items x hx)
    · intro vs itemSchema _ hi
      rw [hnone] at hi
      cases hi
  have hrequired : KeywordPasses same check schema v place "required" ↔ HasMembers schema v :=
    hev.keywordPasses_iff (fun x hx => answers_required hx (h.allowed hx))
      fun hnone => by simp [HasMembers, hnone]
  have hmembers := h.members_iff hev hv.distinct hbelow.members
  have hbehind : BehindReference files s same context schema v := .absent h.reference
  have hholds : Holds same schema v ↔
      TypeHolds schema v ∧ EnumHolds same schema v ∧ KindHolds schema v :=
    ⟨fun ho => ⟨ho.type, ho.enum, ho.kind⟩, fun ho => ⟨ho.1, ho.2.1, ho.2.2⟩⟩
  -- Both sides are the same conjunction, in another order.
  rw [hiff, h.forall_keywordPasses_iff, satisfies_object_iff, hholds, h.kindHolds_iff]
  simp only [siblingKeywords, List.forall_mem_cons, List.not_mem_nil, false_implies, implies_true,
    and_true, hmembers, hanyOf, htype, henum, hlong, habove, hbound, henough, hfew, hitems,
    hrequired]
  constructor
  · rintro ⟨ha, ht, he, hl, hab, hbo, hen, hfe, hi, hr, ho, hm⟩
    exact ⟨hbehind, ha, ⟨ht, he, hl, hab, hbo, hen, hfe, hr, ho⟩, hi, hm⟩
  · rintro ⟨-, ha, ⟨ht, he, hl, hab, hbo, hen, hfe, hr, ho⟩, hi, hm⟩
    exact ⟨ha, ht, he, hl, hab, hbo, hen, hfe, hi, hr, ho, hm⟩

end LinkedSchema.Draft7
