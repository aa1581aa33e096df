import LinkedSchema.Proofs.Tracking
import Mathlib.Data.List.Forall2

/-!
# Comparing two walks

Two structural walks may differ in what they return as well as in where they start: in the instance,
in the schema, in the documents, in the mode. Two results `Agree` when both are successes with
related values or both are failures with related errors, and two computations compare when they
agree on all related stores and leave related ones (`Compares`). This passes through sequences, and
through the loops over alternatives, items and members.

`Comparison` states what a comparison of two walks needs: relations on instances and on schema nodes
that keep the shape of values, a relation on contexts that survives references, and one on reports
that survives putting reports together. What single keywords find is then compared once for all such
relations, and `Comparison.walk_compares` compares whole walks, by induction on the levels.
-/

namespace LinkedSchema

open Loading

variable {α β γ δ : Type} {R : Store → Store → Prop} {E : SchemaError → SchemaError → Prop}
  {P : α → β → Prop} {Q : γ → δ → Prop}

/-! ## Results that agree -/

/-- Both results are successes with related values, or failures with related errors. -/
inductive Agree (E : SchemaError → SchemaError → Prop) (P : α → β → Prop) :
    Except SchemaError α → Except SchemaError β → Prop
  /-- Both are successes. -/
  | ok {a b} (h : P a b) : Agree E P (.ok a) (.ok b)
  /-- Both are failures. -/
  | error {e e'} (h : E e e') : Agree E P (.error e) (.error e')

/-- Every result agrees with itself where related values and errors may be the same. -/
theorem Agree.refl (hE : ∀ e, E e e) (r : Except SchemaError α) : Agree E Eq r r := by
  cases r with
  | error e => exact .error (hE e)
  | ok a => exact .ok rfl

/-- More values may be related. -/
theorem Agree.mono {P' : α → β → Prop} {r : Except SchemaError α} {r' : Except SchemaError β}
    (h : Agree E P r r') (hP : ∀ a b, P a b → P' a b) : Agree E P' r r' := by
  cases h with
  | ok hab => exact .ok (hP _ _ hab)
  | error he => exact .error he

/-- Sequences agree when their parts do. -/
theorem Agree.bind {r : Except SchemaError α} {r' : Except SchemaError β}
    {f : α → Except SchemaError γ} {g : β → Except SchemaError δ} (h : Agree E P r r')
    (h' : ∀ a b, P a b → Agree E Q (f a) (g b)) : Agree E Q (r >>= f) (r' >>= g) := by
  cases h with
  | ok hab => exact h' _ _ hab
  | error he => exact .error he

/-- Two computations agree on related stores, and leave related stores. -/
def Compares (R : Store → Store → Prop) (E : SchemaError → SchemaError → Prop) (P : α → β → Prop)
    (x : Loading α) (y : Loading β) : Prop :=
  ∀ ⦃s t⦄, R s t → Agree E P (x.outcome s) (y.outcome t) ∧ R (x.after s) (y.after t)

/-- Related values that need no computation compare. -/
theorem Compares.pure {a : α} {b : β} (h : P a b) :
    Compares R E P (Pure.pure a) (Pure.pure b) :=
  fun _ _ hst => ⟨.ok h, hst⟩

/-- Results that agree and do not depend on the store compare. -/
theorem Compares.lift {r : Except SchemaError α} {r' : Except SchemaError β}
    (h : Agree E P r r') :
    Compares R E P (ExceptT.mk (Pure.pure r)) (ExceptT.mk (Pure.pure r')) :=
  fun _ _ hst => ⟨h, hst⟩

/-- Sequences compare when their parts do. -/
theorem Compares.bind {x : Loading α} {y : Loading β} {f : α → Loading γ} {g : β → Loading δ}
    (h : Compares R E P x y) (h' : ∀ a b, P a b → Compares R E Q (f a) (g b)) :
    Compares R E Q (x >>= f) (y >>= g) := by
  intro s t hst
  obtain ⟨hagree, hafter⟩ := h hst
  generalize hx : x.outcome s = r at hagree
  generalize hy : y.outcome t = r' at hagree
  cases hagree with
  | error he =>
    rw [outcome_bind_error hx, outcome_bind_error hy, after_bind_error hx, after_bind_error hy]
    exact ⟨.error he, hafter⟩
  | ok hab =>
    rw [outcome_bind_ok hx, outcome_bind_ok hy, after_bind_ok hx, after_bind_ok hy]
    exact h' _ _ hab hafter

/-! ## Relations that keep the shape of values -/

namespace Json

variable {N : Json → Json → Prop}

/-- Members have related values under every name. -/
def LooksAlike (N : Json → Json → Prop) (ms ns : Members) : Prop :=
  ∀ name, Option.Rel N (ms.lookup name) (ns.lookup name)

/-- Related values are the same apart from their parts, which are related. -/
structure KeepsShape (N : Json → Json → Prop) : Prop where
  /-- Arrays have related items. -/
  items : ∀ {vs w}, N (.arr vs) w → ∃ ws, w = .arr ws ∧ List.Forall₂ N vs ws
  /-- Objects have related members. -/
  members : ∀ {ms w}, N (.obj ms) w → ∃ ns, w = .obj ns ∧ LooksAlike N ms ns
  /-- Other values are the same. -/
  scalar : ∀ {v w}, v.IsScalar → N v w → w = v

/-- Being the same keeps the shape. -/
theorem keepsShape_eq : KeepsShape Eq where
  items h := ⟨_, h.symm, List.forall₂_same.mpr fun _ _ => rfl⟩
  members {ms _} h := ⟨ms, h.symm, fun name => by
    cases ms.lookup name with
    | none => exact .none
    | some v => exact .some rfl⟩
  scalar _ h := h.symm

/-- The three ways in which values can be related. -/
theorem KeepsShape.cases (hN : KeepsShape N) {v w : Json} (h : N v w) :
    (v.IsScalar ∧ w = v) ∨ (∃ vs ws, v = .arr vs ∧ w = .arr ws ∧ List.Forall₂ N vs ws) ∨
      ∃ ms ns, v = .obj ms ∧ w = .obj ns ∧ LooksAlike N ms ns := by
  cases v with
  | arr vs =>
    obtain ⟨ws, rfl, hitems⟩ := hN.items h
    exact .inr (.inl ⟨vs, ws, rfl, rfl, hitems⟩)
  | obj ms =>
    obtain ⟨ns, rfl, hmembers⟩ := hN.members h
    exact .inr (.inr ⟨ms, ns, rfl, rfl, hmembers⟩)
  | _ => exact .inl ⟨trivial, hN.scalar trivial h⟩

/-- Related values have the same text. -/
theorem KeepsShape.text (hN : KeepsShape N) {v w : Json} (h : N v w) : w.text? = v.text? := by
  rcases hN.cases h with ⟨-, rfl⟩ | ⟨_, _, rfl, rfl, -⟩ | ⟨_, _, rfl, rfl, -⟩ <;> rfl

/-- The texts among related items are the same. -/
theorem KeepsShape.texts (hN : KeepsShape N) {vs ws : List Json} (h : List.Forall₂ N vs ws) :
    ws.filterMap Json.text? = vs.filterMap Json.text? := by
  induction h with
  | nil => rfl
  | cons hvw _ ih => rw [List.filterMap_cons, List.filterMap_cons, hN.text hvw, ih]

end Json

namespace Structural

variable {V N : Json → Json → Prop} {C : Context → Context → Prop} {P : Report → Report → Prop}
  {files files' : Texts} {settings settings' : Settings} {visit visit' : Visit} {v v' : Json}
  {schema schema' : Members} {context context' : Context} {place : Locator} {chain : Chain}

/-! ## Loops -/

/-- A relation on reports holds of reports put together, and related reports are empty alike. -/
structure Congruence (P : Report → Report → Prop) : Prop where
  /-- Empty reports are related. -/
  nil : P [] []
  /-- Related reports may be put one behind the other. -/
  append : ∀ {r r' q q'}, P r r' → P q q' → P (r ++ q) (r' ++ q')
  /-- The empty report is related only to itself. -/
  isEmpty : ∀ {r r'}, P r r' → r'.isEmpty = r.isEmpty

/-- Searches for an alternative compare when the checks of alternatives do. -/
theorem failures_compares (hP : Congruence P) {check check' : Json → Loading Report}
    {nodes nodes' : List Json}
    (h : List.Forall₂ (fun a b => Compares R E P (check a) (check' b)) nodes nodes') :
    Compares R E (Option.Rel (List.Forall₂ P)) (failures check nodes) (failures check' nodes') := by
  induction h with
  | nil => exact .pure (.some .nil)
  | cons hab _ ih =>
    refine hab.bind fun report report' hreport => ?_
    rw [hP.isEmpty hreport]
    by_cases hempty : report.isEmpty
    · rw [if_pos hempty, if_pos hempty]
      exact .pure .none
    · rw [if_neg hempty, if_neg hempty]
      refine ih.bind fun others others' hothers => .pure ?_
      cases hothers with
      | none => exact .none
      | some hrest => exact .some (.cons hreport hrest)

/-- Going through items compares when the checks of items do. -/
theorem eachItem_compares (hP : Congruence P) {check check' : Nat → Json → Loading Report}
    {items items' : List Json} (hitems : List.Forall₂ V items items')
    (h : ∀ i v v', V v v' → Compares R E P (check i v) (check' i v')) (i : Nat) :
    Compares R E P (eachItem check i items) (eachItem check' i items') := by
  induction hitems generalizing i with
  | nil => exact .pure hP.nil
  | cons hv _ ih =>
    exact (h i _ _ hv).bind fun _ _ hreport =>
      (ih (i + 1)).bind fun _ _ hothers => .pure (hP.append hreport hothers)

/-- Going through members compares when the checks of members do. -/
theorem eachMember_compares (hP : Congruence P) {check check' : String → Json → Loading Report}
    {members members' : Members}
    (h : List.Forall₂ (fun p q => Compares R E P (check p.1 p.2) (check' q.1 q.2)) members
      members') :
    Compares R E P (eachMember check members) (eachMember check' members') := by
  induction h with
  | nil => exact .pure hP.nil
  | cons hpq _ ih =>
    exact hpq.bind fun _ _ hreport => ih.bind fun _ _ hothers => .pure (hP.append hreport hothers)

/-! ## Keywords that speak of the value itself -/

section Keywords

variable (hV : Json.KeepsShape V) (hN : Json.KeepsShape N)
  (hschema : Json.LooksAlike N schema schema')
include hN hschema

/-- Numeric keywords are the same. -/
theorem bound_eq (keyword : String) : bound? schema' keyword = bound? schema keyword := by
  have h := hschema keyword
  unfold bound?
  generalize schema.lookup keyword = a, schema'.lookup keyword = b at h
  cases h with
  | none => rfl
  | some hvw =>
    rcases hN.cases hvw with ⟨-, rfl⟩ | ⟨_, _, rfl, rfl, -⟩ | ⟨_, _, rfl, rfl, -⟩ <;> rfl

/-- Numeric keywords find the same. -/
theorem boundViolation_eq (keyword : String) (place : Locator) (kind : ViolationKind)
    (broken : Binary64 → Bool) (message : String → String) :
    boundViolation schema' keyword place kind broken message =
      boundViolation schema keyword place kind broken message := by
  unfold boundViolation
  rw [bound_eq hN hschema]

/-- The keywords for strings find the same. -/
theorem checkString_eq (text : String) (place : Locator) :
    checkString text schema' place = checkString text schema place := by
  have h := hschema "pattern"
  unfold checkString
  simp only [boundViolation_eq hN hschema]
  generalize schema.lookup "pattern" = a, schema'.lookup "pattern" = b at h
  cases h with
  | none => rfl
  | some hvw =>
    rcases hN.cases hvw with ⟨-, rfl⟩ | ⟨_, _, rfl, rfl, -⟩ | ⟨_, _, rfl, rfl, -⟩ <;> rfl

/-- The keywords for numbers find the same. -/
theorem checkNumber_eq (n : Number) (place : Locator) :
    checkNumber n schema' place = checkNumber n schema place := by
  unfold checkNumber
  simp only [boundViolation_eq hN hschema]

/-- The keywords for the size of an array find the same in arrays of one size. -/
theorem checkSize_eq {items items' : List Json} (h : items'.length = items.length)
    (place : Locator) : checkSize items' schema' place = checkSize items schema place := by
  unfold checkSize
  simp only [boundViolation_eq hN hschema, h]

/-- The keyword `required` finds the same in objects with the same names. -/
theorem checkRequired_eq {members members' : Members} (h : Json.LooksAlike V members members')
    (place : Locator) :
    checkRequired members' schema' place = checkRequired members schema place := by
  have hrequired := hschema "required"
  calc checkRequired members' schema' place
      = checkRequired members schema' place := by
        unfold checkRequired
        split
        · refine List.filterMap_congr fun name _ => ?_
          have hname := h name
          generalize members.lookup name = a, members'.lookup name = b at hname
          cases hname <;> rfl
        · rfl
    _ = checkRequired members schema place := by
        unfold checkRequired
        generalize schema.lookup "required" = a, schema'.lookup "required" = b at hrequired
        cases hrequired with
        | none => rfl
        | some hvw =>
          rcases hN.cases hvw with ⟨-, rfl⟩ | ⟨_, _, rfl, rfl, hnames⟩ | ⟨_, _, rfl, rfl, -⟩
          · rfl
          · dsimp only
            rw [hN.texts hnames]
          · rfl

omit hN hschema in
include hV in
/-- Related instances have the same types. -/
theorem hasType_eq (hv : V v v') : hasType v' = hasType v := by
  rcases hV.cases hv with ⟨-, rfl⟩ | ⟨_, _, rfl, rfl, -⟩ | ⟨_, _, rfl, rfl, -⟩ <;> rfl

include hV in
/-- The keyword `type` finds the same. -/
theorem typeMismatch_eq (hv : V v v') :
    (schema'.lookup "type").bind (typeMismatch? v') =
      (schema.lookup "type").bind (typeMismatch? v) := by
  have h := hschema "type"
  have htype := hasType_eq hV hv
  generalize schema.lookup "type" = a, schema'.lookup "type" = b at h
  cases h with
  | none => rfl
  | some hvw =>
    unfold typeMismatch?
    rcases hN.cases hvw with ⟨-, rfl⟩ | ⟨_, _, rfl, rfl, hnames⟩ | ⟨_, _, rfl, rfl, -⟩
    · simp only [htype]
    · simp only [Option.bind_some, htype, hN.texts hnames]
    · rfl

end Keywords

/-! ## What keywords find is no branch of an alternative -/

/-- No violation of a report is the branch of an alternative. -/
def Unbranched (r : Report) : Prop := ∀ violation ∈ r, violation.kind ≠ .anyOfBranch

/-- Reports put together have no branches if neither of them has. -/
theorem Unbranched.append {r q : Report} (hr : Unbranched r) (hq : Unbranched q) :
    Unbranched (r ++ q) :=
  fun violation hmem => (List.mem_append.mp hmem).elim (hr violation) (hq violation)

/-- A single violation of another kind has no branches. -/
theorem unbranched_singleton {kind : ViolationKind} (h : kind ≠ .anyOfBranch) (place : Locator)
    (message : String) : Unbranched [⟨place, kind, message⟩] := by
  intro violation hmem
  cases List.mem_singleton.mp hmem
  exact h

/-- Numeric keywords find what is of their kind. -/
theorem unbranched_boundViolation (schema : Members) (keyword : String) (place : Locator)
    {kind : ViolationKind} (hkind : kind ≠ .anyOfBranch) (broken : Binary64 → Bool)
    (message : String → String) :
    Unbranched (boundViolation schema keyword place kind broken message) := by
  unfold boundViolation
  split
  · split
    · exact unbranched_singleton hkind place _
    · exact fun _ hmem => nomatch hmem
  · exact fun _ hmem => nomatch hmem

/-- The keywords for numbers find no branches. -/
theorem unbranched_checkNumber (n : Number) (schema : Members) (place : Locator) :
    Unbranched (checkNumber n schema place) :=
  (unbranched_boundViolation schema _ place (by decide) _ _).append
    (unbranched_boundViolation schema _ place (by decide) _ _)

/-- The keywords for the size of an array find no branches. -/
theorem unbranched_checkSize (items : List Json) (schema : Members) (place : Locator) :
    Unbranched (checkSize items schema place) :=
  (unbranched_boundViolation schema _ place (by decide) _ _).append
    (unbranched_boundViolation schema _ place (by decide) _ _)

/-- The keywords for strings find no branches. -/
theorem unbranched_checkString {text : String} {report : Report}
    (h : checkString text schema place = .ok report) : Unbranched report := by
  have hkind : ViolationKind.minLength ≠ .anyOfBranch := by decide
  have hshort := unbranched_boundViolation schema "minLength" place hkind
    ((Binary64.ofNat text.length).lt ·) (fun limit => "string length < " ++ limit)
  unfold checkString at h
  dsimp only at h
  split at h
  · split at h
    · cases h
      exact hshort
    · split at h
      · cases h
      · cases h
        exact hshort
      · cases h
        exact hshort.append (unbranched_singleton (by decide) place _)
  · cases h
    exact hshort

/-- The keyword `required` finds no branches. -/
theorem unbranched_checkRequired (members schema : Members) (place : Locator) :
    Unbranched (checkRequired members schema place) := by
  unfold checkRequired
  split
  · intro violation hmem
    obtain ⟨name, -, hname⟩ := List.mem_filterMap.mp hmem
    split at hname
    · cases hname
    · cases hname
      exact nofun
  · exact fun _ hmem => nomatch hmem

/-! ## Whole nodes -/

/-- What a comparison of two walks needs: relations on instances, nodes, contexts and reports, such
that what is looked up, resolved and collected on both sides is related again. -/
structure Comparison (files files' : Texts) (settings settings' : Settings)
    (R : Store → Store → Prop) (E : SchemaError → SchemaError → Prop) (V N : Json → Json → Prop)
    (C : Context → Context → Prop) (P : Report → Report → Prop) : Prop extends Congruence P where
  /-- Instances keep their shape. -/
  instances : Json.KeepsShape V
  /-- Schema nodes keep their shape. -/
  nodes : Json.KeepsShape N
  /-- The same values of `enum` are equal to the instance. -/
  equal : ∀ {v v' w w'}, V v v' → N w w' → v'.equal w' = v.equal w
  /-- Failures may be the same. -/
  failure : ∀ e, E e e
  /-- The ceiling on the depth is the same. -/
  ceiling : settings'.maxDepth = settings.maxDepth
  /-- References have the same text. -/
  reference : ∀ {w w'}, N w w' → Agree E Eq (referenceText w) (referenceText w')
  /-- References lead to the same place. -/
  resolve : ∀ {context context'} text, C context context' →
    Compares R E (fun target target' => target'.identity = target.identity ∧
        C target.context target'.context)
      (resolveReference files text context) (resolveReference files' text context')
  /-- Pointers name related nodes. -/
  find : ∀ {context context'} pointer, C context context' →
    Agree E N (context.root.find pointer) (context'.root.find pointer)
  /-- Reports without branches may be the same. -/
  same : ∀ {r}, Unbranched r → P r r
  /-- Violations of `enum` may quote related instances. -/
  enum : ∀ {v v'} place, V v v' → P [⟨place, .enum, "value " ++ v.render ++ " not in enum"⟩]
    [⟨place, .enum, "value " ++ v'.render ++ " not in enum"⟩]
  /-- The reports on alternatives are related when those of the alternatives are. -/
  anyOf : ∀ {reports reports'} place, Option.Rel (List.Forall₂ P) reports reports' →
    P (anyOfReport settings.verboseAnyOf place reports)
      (anyOfReport settings'.verboseAnyOf place reports')
  /-- The reports on members are related when those of related members are. -/
  eachMember : ∀ {members members'} {check check' : String → Json → Loading Report},
    V (.obj members) (.obj members') → (∀ name w, Steady files (check name w)) →
    (∀ name w, Steady files' (check' name w)) →
    (∀ name w w', V w w' → Compares R E P (check name w) (check' name w')) →
    Compares R E P (Structural.eachMember check members) (Structural.eachMember check' members')

/-- How two walks go on compares. -/
def VisitCompares (R : Store → Store → Prop) (E : SchemaError → SchemaError → Prop)
    (V N : Json → Json → Prop) (C : Context → Context → Prop) (P : Report → Report → Prop)
    (visit visit' : Visit) : Prop :=
  ∀ ⦃v v' node node' context context'⦄ place chain, V v v' → N node node' → C context context' →
    Compares R E P (visit v node context place chain) (visit' v' node' context' place chain)

namespace Comparison

variable (K : Comparison files files' settings settings' R E V N C P)
include K

/-- Going on behind a reference compares. -/
theorem reference_compares (h : VisitCompares R E V N C P visit visit') (hv : V v v')
    (hschema : Json.LooksAlike N schema schema') (hcontext : C context context') :
    Compares R E P (checkReference files visit v schema context place chain)
      (checkReference files' visit' v' schema' context' place chain) := by
  have href := hschema "$ref"
  unfold checkReference
  generalize schema.lookup "$ref" = a, schema'.lookup "$ref" = b at href
  cases href with
  | none => exact .pure K.nil
  | some hreference =>
    refine (Compares.lift (K.reference hreference)).bind fun text _ he => ?_
    subst he
    refine (K.resolve text hcontext).bind fun target target' htarget => ?_
    obtain ⟨hidentity, hbehind⟩ := htarget
    have hnode : Agree E N target.node target'.node := by
      unfold Target.node
      rw [hidentity]
      exact K.find target.identity.pointer hbehind
    rw [hidentity]
    refine (Compares.lift (.refl K.failure (chain.enter target.identity text))).bind
      fun next _ he => ?_
    subst he
    exact (Compares.lift hnode).bind fun node node' hn => h place next hv hn hbehind

/-- Going through alternatives compares. -/
theorem anyOf_compares (h : VisitCompares R E V N C P visit visit') (hv : V v v')
    (hschema : Json.LooksAlike N schema schema') (hcontext : C context context') :
    Compares R E P (checkAnyOf settings visit v schema context place chain)
      (checkAnyOf settings' visit' v' schema' context' place chain) := by
  have hanyOf := hschema "anyOf"
  unfold checkAnyOf
  generalize schema.lookup "anyOf" = a, schema'.lookup "anyOf" = b at hanyOf
  cases hanyOf with
  | none => exact .pure K.nil
  | @some _ w hvw =>
    rcases K.nodes.cases hvw with ⟨hw, rfl⟩ | ⟨_, _, rfl, rfl, hnodes⟩ | ⟨_, _, rfl, rfl, -⟩
    · cases w with
      | arr => exact hw.elim
      | _ => exact .pure K.nil
    · refine (failures_compares K.toCongruence (hnodes.imp fun _ _ hn => ?_)).bind
        fun _ _ hreports => .pure (K.anyOf place hreports)
      exact h place chain hv hn hcontext
    · exact .pure K.nil

/-- The keyword `enum` finds related violations. -/
theorem enum_compares (hv : V v v') (hschema : Json.LooksAlike N schema schema')
    (place : Locator) : P (checkEnum v schema place) (checkEnum v' schema' place) := by
  have hany : ∀ {ws ws'}, List.Forall₂ N ws ws' → ws'.any (v'.equal ·) = ws.any (v.equal ·) := by
    intro ws ws' hws
    induction hws with
    | nil => rfl
    | cons hw _ ih => rw [List.any_cons, List.any_cons, K.equal hv hw, ih]
  have henum := hschema "enum"
  unfold checkEnum
  generalize schema.lookup "enum" = a, schema'.lookup "enum" = b at henum
  cases henum with
  | none => exact K.nil
  | @some _ w hvw =>
    rcases K.nodes.cases hvw with ⟨hw, rfl⟩ | ⟨_, _, rfl, rfl, hnodes⟩ | ⟨_, _, rfl, rfl, -⟩
    · cases w with
      | arr => exact hw.elim
      | _ => exact K.nil
    · dsimp only
      rw [hany hnodes]
      split
      · exact K.nil
      · exact K.enum place hv
    · exact K.nil

/-- The keywords for arrays compare. -/
theorem array_compares (h : VisitCompares R E V N C P visit visit') {items items' : List Json}
    (hitems : List.Forall₂ V items items') (hschema : Json.LooksAlike N schema schema')
    (hcontext : C context context') :
    Compares R E P (checkArray visit items schema context place chain)
      (checkArray visit' items' schema' context' place chain) := by
  have hsizes := checkSize_eq K.nodes hschema hitems.length_eq.symm place
  have hown := K.same (unbranched_checkSize items schema place)
  have hkeyword := hschema "items"
  unfold checkArray
  rw [hsizes]
  generalize schema.lookup "items" = a, schema'.lookup "items" = b at hkeyword
  cases hkeyword with
  | none => exact .pure hown
  | @some _ w hvw =>
    rcases K.nodes.cases hvw with ⟨hw, rfl⟩ | ⟨_, _, rfl, rfl, -⟩ | ⟨_, _, rfl, rfl, -⟩
    · cases w with
      | obj => exact hw.elim
      | _ => exact .pure hown
    · exact .pure hown
    · exact (eachItem_compares K.toCongruence hitems
        (fun i _ _ hv => h (place.index i) chain.fresh hv hvw hcontext) 0).bind
        fun _ _ hreports => .pure (K.append hown hreports)

/-- Related schemas declare related schemas for members. -/
theorem declared_looksAlike (hschema : Json.LooksAlike N schema schema') :
    Json.LooksAlike N (declared schema) (declared schema') := by
  have hproperties := hschema "properties"
  unfold declared
  generalize schema.lookup "properties" = a, schema'.lookup "properties" = b at hproperties
  cases hproperties with
  | none => exact fun _ => .none
  | @some _ w hvw =>
    rcases K.nodes.cases hvw with ⟨hw, rfl⟩ | ⟨_, _, rfl, rfl, -⟩ | ⟨_, _, rfl, rfl, hmembers⟩
    · cases w with
      | obj => exact hw.elim
      | _ => exact fun _ => .none
    · exact fun _ => .none
    · exact hmembers

/-- The check of a member compares. -/
theorem member_compares (h : VisitCompares R E V N C P visit visit')
    (hschema : Json.LooksAlike N schema schema') (hcontext : C context context') {w w' : Json}
    (name : String) (hw : V w w') :
    Compares R E P (checkMember visit schema context place chain name w)
      (checkMember visit' schema' context' place chain name w') := by
  have hdeclared := K.declared_looksAlike hschema name
  have hclosed := hschema "additionalProperties"
  unfold checkMember
  generalize (declared schema).lookup name = a, (declared schema').lookup name = b at hdeclared
  cases hdeclared with
  | some hn => exact h (place.property name) chain.fresh hw hn hcontext
  | none =>
    generalize schema.lookup "additionalProperties" = a,
      schema'.lookup "additionalProperties" = b at hclosed
    cases hclosed with
    | none => exact .pure K.nil
    | some hvw =>
      rcases K.nodes.cases hvw with ⟨-, rfl⟩ | ⟨_, _, rfl, rfl, -⟩ | ⟨_, _, rfl, rfl, -⟩
      · refine .pure (K.same ?_)
        split
        · exact unbranched_singleton (by decide) place _
        · exact fun _ hmem => nomatch hmem
      · exact .pure K.nil
      · exact .pure K.nil

/-- The keywords for objects compare. -/
theorem object_compares (hsteady : SteadyVisit files visit) (hsteady' : SteadyVisit files' visit')
    (h : VisitCompares R E V N C P visit visit') {members members' : Members}
    (hv : V (.obj members) (.obj members')) (hmembers : Json.LooksAlike V members members')
    (hschema : Json.LooksAlike N schema schema') (hcontext : C context context') :
    Compares R E P (checkObject visit members schema context place chain)
      (checkObject visit' members' schema' context' place chain) := by
  have hrequired := checkRequired_eq K.nodes hschema hmembers place
  have hown := K.same (unbranched_checkRequired members schema place)
  have hmember : ∀ name w w', V w w' →
      Compares R E P (checkMember visit schema context place chain name w)
        (checkMember visit' schema' context' place chain name w') :=
    fun name _ _ hw => K.member_compares h hschema hcontext name hw
  have heach := K.eachMember hv (checkMember_steady hsteady) (checkMember_steady hsteady') hmember
  unfold checkObject
  rw [hrequired]
  exact heach.bind fun _ _ hreports => .pure (K.append hown hreports)

/-- The keywords that depend on the kind of value compare. -/
theorem byKind_compares (hsteady : SteadyVisit files visit) (hsteady' : SteadyVisit files' visit')
    (h : VisitCompares R E V N C P visit visit') (hv : V v v')
    (hschema : Json.LooksAlike N schema schema') (hcontext : C context context') :
    Compares R E P (checkByKind visit v schema context place chain)
      (checkByKind visit' v' schema' context' place chain) := by
  rcases K.instances.cases hv with ⟨hscalar, rfl⟩ | ⟨_, _, rfl, rfl, hitems⟩ | ⟨_, _, rfl, rfl, hm⟩
  · cases v' with
    | str text =>
      refine Compares.lift ?_
      rw [checkString_eq K.nodes hschema]
      cases hr : checkString text schema place with
      | error e => exact .error (K.failure e)
      | ok report => exact .ok (K.same (unbranched_checkString hr))
    | num n =>
      refine Compares.pure ?_
      rw [checkNumber_eq K.nodes hschema]
      exact K.same (unbranched_checkNumber n schema place)
    | arr => exact hscalar.elim
    | obj => exact hscalar.elim
    | _ => exact .pure K.nil
  · exact K.array_compares h hitems hschema hcontext
  · exact K.object_compares hsteady hsteady' h hv hm hschema hcontext

/-- One node compares when going on does. -/
theorem node_compares (hsteady : SteadyVisit files visit) (hsteady' : SteadyVisit files' visit')
    (h : VisitCompares R E V N C P visit visit') (hv : V v v')
    (hschema : Json.LooksAlike N schema schema') (hcontext : C context context') :
    Compares R E P (checkNode files settings visit v schema context place chain)
      (checkNode files' settings' visit' v' schema' context' place chain) := by
  have htype := typeMismatch_eq K.instances K.nodes hschema hv
  refine (K.reference_compares h hv hschema hcontext).bind fun _ _ hbehind => ?_
  refine (K.anyOf_compares h hv hschema hcontext).bind fun _ _ halternatives => ?_
  have hbefore := K.append hbehind halternatives
  rw [htype]
  cases (schema.lookup "type").bind (typeMismatch? v) with
  | some message =>
    exact .pure (K.append hbefore (K.same (unbranched_singleton (by decide) place message)))
  | none =>
    exact (K.byKind_compares hsteady hsteady' h hv hschema hcontext).bind fun _ _ hrest =>
      .pure (K.append (K.append hbefore (K.enum_compares hv hschema place)) hrest)

/-- Walks compare. -/
theorem walk_compares : ∀ levels, VisitCompares R E V N C P (walk files settings levels)
    (walk files' settings' levels)
  | 0 => fun v v' node node' context context' place chain _ _ _ => by
    unfold walk
    rw [K.ceiling]
    exact .lift (.error (K.failure _))
  | levels + 1 => fun v v' node node' context context' place chain hv hn hcontext => by
    unfold walk
    rcases K.nodes.cases hn with ⟨hscalar, rfl⟩ | ⟨_, _, rfl, rfl, -⟩ | ⟨_, _, rfl, rfl, hschema⟩
    · cases node' with
      | obj => exact hscalar.elim
      | _ => exact .pure K.nil
    · exact .pure K.nil
    · exact K.node_compares (walk_steady files settings levels)
        (walk_steady files' settings' levels) (walk_compares levels) hv hschema hcontext

end Comparison

end Structural

end LinkedSchema
