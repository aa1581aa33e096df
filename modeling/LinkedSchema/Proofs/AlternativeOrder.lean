import LinkedSchema.Proofs.Verdict

/-!
# The order of alternatives

The search for an alternative stops at the first one that is met, and fails at the first one that
fails. So the order of alternatives can matter in one way only: one of them is met and another one
fails, and the order says which of the two is seen. Without such a pair the search fails in all
orders or in none (`failures_ok_iff`), and whether its report is empty never depends on the order.

The checks of a node are looked at on one store, where reference, alternatives and the other
keywords have outcomes of their own (`outcome_checkNode`). Another order changes only that of the
alternatives.
-/

namespace LinkedSchema.Structural

open Loading

variable {files : Texts} {s : Store} {settings : Settings} {visit : Visit} {v : Json}
  {schema : Members} {context : Context} {place : Locator} {chain : Chain} {as bs : List Json}

/-! ## The search for an alternative -/

section Search

variable {check : Json → Loading Report}

/-- An alternative is met, and another one fails. -/
structure Mixed (s : Store) (check : Json → Loading Report) (alternatives : List Json) : Prop where
  /-- One is met. -/
  met : ∃ a ∈ alternatives, (check a).outcome s = .ok []
  /-- One fails. -/
  fails : ∃ a ∈ alternatives, ∃ e, (check a).outcome s = .error e

/-- The order does not matter for a pair to be there. -/
theorem Mixed.perm (hperm : as.Perm bs) (h : Mixed s check as) : Mixed s check bs where
  met := h.met.imp fun _ ha => ⟨hperm.subset ha.1, ha.2⟩
  fails := h.fails.imp fun _ ha => ⟨hperm.subset ha.1, ha.2⟩

/-- A search fails with its first alternative. -/
theorem failures_head {a : Json} {e : SchemaError} (h : (check a).outcome s = .error e)
    (rest : List Json) : (failures check (a :: rest)).outcome s = .error e := by
  rw [failures]
  exact outcome_bind_error h

/-- A search among alternatives of which none fails does not fail. -/
theorem failures_ok (hsteady : ∀ a, Steady files (check a))
    (h : ∀ a ∈ as, ∃ report, (check a).outcome s = .ok report) :
    ∃ found, (failures check as).outcome s = .ok found := by
  induction as with
  | nil => exact ⟨_, rfl⟩
  | cons a rest ih =>
    obtain ⟨⟨report, hreport⟩, hrest⟩ := List.forall_mem_cons.mp h
    obtain ⟨others, hothers⟩ := ih hrest
    rw [failures, outcome_bind_ok hreport]
    split
    · exact ⟨_, rfl⟩
    · have hstays := (failures_steady hsteady rest).stays ((hsteady a).grows s)
      exact ⟨_, outcome_bind_ok (hstays.trans hothers)⟩

/-- A search that comes to the end has seen every alternative. -/
theorem ok_of_failures (hsteady : ∀ a, Steady files (check a)) {reports : List Report}
    (h : (failures check as).outcome s = .ok (some reports)) :
    ∀ a ∈ as, ∃ report, (check a).outcome s = .ok report := by
  induction as generalizing reports with
  | nil => exact fun a ha => absurd ha List.not_mem_nil
  | cons a rest ih =>
    rw [failures] at h
    cases hreport : (check a).outcome s with
    | error e =>
      rw [outcome_bind_error hreport] at h
      cases h
    | ok report =>
      rw [outcome_bind_ok hreport] at h
      split at h
      · cases h
      · have hstays := (failures_steady hsteady rest).stays ((hsteady a).grows s)
        cases hothers : (failures check rest).outcome s with
        | error e =>
          rw [outcome_bind_error (hstays.trans hothers)] at h
          cases h
        | ok others =>
          rw [outcome_bind_ok (hstays.trans hothers)] at h
          cases others with
          | none => cases h
          | some others => exact List.forall_mem_cons.mpr ⟨⟨report, hreport⟩, ih hothers⟩

/-- Unless one alternative is met and another one fails, a search fails exactly when an alternative
does. -/
theorem failures_ok_iff (hsteady : ∀ a, Steady files (check a)) (h : ¬Mixed s check as) :
    (∃ found, (failures check as).outcome s = .ok found) ↔
      ∀ a ∈ as, ∃ report, (check a).outcome s = .ok report := by
  refine ⟨fun ⟨found, hfound⟩ => ?_, failures_ok hsteady⟩
  cases found with
  | some reports => exact ok_of_failures hsteady hfound
  | none =>
    -- One alternative is met, so that none may fail.
    have hmet := (failures_eq_ok hsteady (P := fun a => (check a).outcome s = .ok [])
      (fun a report ha => by rw [ha, Except.ok.injEq]) hfound).1.mp rfl
    intro a ha
    cases hoa : (check a).outcome s with
    | ok report => exact ⟨report, rfl⟩
    | error e => exact absurd ⟨hmet, a, ha, e, hoa⟩ h

end Search

/-! ## Standings -/

/-- What an outcome comes to: a report, which may be empty, or a failure. -/
def standing (x : Except SchemaError Report) : Option Bool := x.toOption.map List.isEmpty

/-- Two outcomes come to the same if they are reports together, and then empty together. -/
theorem standing_eq {x y : Except SchemaError Report}
    (hok : (∃ r, x = .ok r) ↔ ∃ r, y = .ok r)
    (hempty : ∀ r r', x = .ok r → y = .ok r' → (r = [] ↔ r' = [])) : standing x = standing y := by
  cases x with
  | error e =>
    cases y with
    | error e' => rfl
    | ok r' => obtain ⟨r, hr⟩ := hok.mpr ⟨r', rfl⟩; cases hr
  | ok r =>
    cases y with
    | error e' => obtain ⟨r', hr'⟩ := hok.mp ⟨r, rfl⟩; cases hr'
    | ok r' =>
      have hiff := hempty r r' rfl rfl
      simp only [standing, Except.toOption, Option.map_some, Option.some.injEq]
      rw [Bool.eq_iff_iff, List.isEmpty_iff, List.isEmpty_iff, hiff]

/-! ## Nodes with other alternatives -/

/-- The members of a node with other alternatives in the place of its own. -/
def withAlternatives (schema : Members) (alternatives : List Json) : Members :=
  schema.map fun m => if m.1 = "anyOf" then (m.1, .arr alternatives) else m

/-- Nothing but the alternatives has changed. -/
theorem lookup_withAlternatives (schema : Members) (alternatives : List Json) (keyword : String) :
    (withAlternatives schema alternatives).lookup keyword =
      if keyword = "anyOf" then (schema.lookup keyword).map fun _ => .arr alternatives
      else schema.lookup keyword := by
  induction schema with
  | nil => simp [withAlternatives]
  | cons m rest ih =>
    obtain ⟨name, w⟩ := m
    unfold withAlternatives at ih ⊢
    rw [List.map_cons, List.lookup_cons]
    by_cases hname : keyword = name
    · subst hname
      by_cases hany : keyword = "anyOf" <;> simp [hany]
    · have hne : (keyword == name) = false := by simpa using hname
      have hkept :
          (if name = "anyOf" then (name, Json.arr alternatives) else (name, w)).1 = name := by
        split <;> rfl
      rw [List.lookup_cons, hkept, hne]
      exact ih

/-- The members of a node without its alternatives. -/
def SameOwn (schema schema' : Members) : Prop :=
  ∀ keyword, keyword ≠ "anyOf" → schema'.lookup keyword = schema.lookup keyword

/-- Putting other alternatives in a node leaves its other keywords as they are. -/
theorem sameOwn_withAlternatives (schema : Members) (alternatives : List Json) :
    SameOwn schema (withAlternatives schema alternatives) := by
  intro keyword hne
  rw [lookup_withAlternatives, if_neg hne]

/-- Alternatives have no part in the check of the other keywords. -/
theorem checkOwn_congr {schema' : Members} (h : SameOwn schema schema') (before : Report) :
    checkOwn visit v schema' context place chain before =
      checkOwn visit v schema context place chain before := by
  simp only [checkOwn, checkByKind, checkString, checkNumber, checkArray, checkObject, checkSize,
    checkRequired, checkEnum, boundViolation, bound?, h "type" (by decide), h "enum" (by decide),
    h "minLength" (by decide), h "pattern" (by decide), h "minimum" (by decide),
    h "maximum" (by decide), h "minItems" (by decide), h "maxItems" (by decide),
    h "items" (by decide), h "required" (by decide), h "properties" (by decide),
    h "additionalProperties" (by decide)]

/-- What is reported before the other keywords stands in front. -/
theorem outcome_checkOwn (hsteady : SteadyVisit files visit) (before : Report) :
    (checkOwn visit v schema context place chain before).outcome s =
      ((checkOwn visit v schema context place chain []).outcome s).map (before ++ ·) := by
  unfold checkOwn
  split
  · rfl
  · rw [outcome_bind (checkByKind_steady hsteady) fun _ => Steady.pure _,
      outcome_bind (checkByKind_steady hsteady) fun _ => Steady.pure _]
    cases (checkByKind visit v schema context place chain).outcome s with
    | error e => rfl
    | ok rest => simp [bind, Except.bind, Except.map]

/-- The outcome of a node is made of those behind its reference, of its alternatives and of its
other keywords. -/
theorem outcome_checkNode (hsteady : SteadyVisit files visit) :
    (checkNode files settings visit v schema context place chain).outcome s = (do
      let behind ← (checkReference files visit v schema context place chain).outcome s
      let alternatives ← (checkAnyOf settings visit v schema context place chain).outcome s
      let own ← (checkOwn visit v schema context place chain []).outcome s
      .ok (behind ++ alternatives ++ own)) := by
  rw [checkNode_eq, outcome_bind (checkReference_steady hsteady) fun _ =>
    (checkAnyOf_steady hsteady).bind fun _ => checkOwn_steady hsteady _]
  refine bind_congr fun behind => ?_
  rw [outcome_bind (checkAnyOf_steady hsteady) fun _ => checkOwn_steady hsteady _]
  refine bind_congr fun alternatives => ?_
  rw [outcome_checkOwn hsteady]
  cases (checkOwn visit v schema context place chain []).outcome s <;> rfl

/-- A node has a report exactly when its parts have. -/
theorem checkNode_eq_ok (hsteady : SteadyVisit files visit) {report : Report} :
    (checkNode files settings visit v schema context place chain).outcome s = .ok report ↔
      ∃ behind alternatives own,
        (checkReference files visit v schema context place chain).outcome s = .ok behind ∧
        (checkAnyOf settings visit v schema context place chain).outcome s = .ok alternatives ∧
        (checkOwn visit v schema context place chain []).outcome s = .ok own ∧
        report = behind ++ alternatives ++ own := by
  rw [outcome_checkNode hsteady]
  simp only [bind_eq_ok, Except.ok.injEq]
  constructor
  · rintro ⟨behind, hb, alternatives, ha, own, ho, rfl⟩
    exact ⟨behind, alternatives, own, hb, ha, ho, rfl⟩
  · rintro ⟨behind, alternatives, own, hb, ha, ho, rfl⟩
    exact ⟨behind, hb, alternatives, ha, own, ho, rfl⟩

/-! ## Nodes in which the order is another one -/

/-- Alternatives have a report exactly when the search among them ends. -/
theorem checkAnyOf_ok_iff (hany : schema.lookup "anyOf" = some (.arr as))
    (hsteady : SteadyVisit files visit) :
    (∃ report, (checkAnyOf settings visit v schema context place chain).outcome s = .ok report) ↔
      ∃ found, (failures (fun a => visit v a context place chain) as).outcome s = .ok found := by
  have hsearch : ∀ a, Steady files (visit v a context place chain) := fun _ => hsteady _ _ _ _ _
  rw [checkAnyOf, hany]
  simp only [outcome_bind_eq_ok (failures_steady hsearch as) fun _ => Steady.pure _]
  constructor
  · rintro ⟨report, found, hfound, -⟩
    exact ⟨found, hfound⟩
  · rintro ⟨found, hfound⟩
    exact ⟨_, found, hfound, rfl⟩

variable {schema' : Members}

/-- A node with its alternatives in another order, and all else as it was. -/
structure OtherOrder (schema schema' : Members) (as bs : List Json) : Prop where
  /-- The alternatives in one order. -/
  here : schema.lookup "anyOf" = some (.arr as)
  /-- The alternatives in the other order. -/
  there : schema'.lookup "anyOf" = some (.arr bs)
  /-- They are the same alternatives. -/
  perm : as.Perm bs
  /-- The other keywords are the same. -/
  own : SameOwn schema schema'

/-- Each of two orders is another one to the other. -/
theorem OtherOrder.symm (h : OtherOrder schema schema' as bs) :
    OtherOrder schema' schema bs as where
  here := h.there
  there := h.here
  perm := h.perm.symm
  own keyword hne := (h.own keyword hne).symm

/-- A node whose alternatives are put into another order. -/
theorem otherOrder_withAlternatives (hany : schema.lookup "anyOf" = some (.arr as))
    (hperm : as.Perm bs) : OtherOrder schema (withAlternatives schema bs) as bs where
  here := hany
  there := by rw [lookup_withAlternatives, if_pos rfl, hany, Option.map_some]
  perm := hperm
  own := sameOwn_withAlternatives schema bs

/-- The reports of both orders are empty together. -/
theorem OtherOrder.empty_iff (h : OtherOrder schema schema' as bs)
    (hsteady : SteadyVisit files visit) {r r' : Report}
    (hr : (checkNode files settings visit v schema context place chain).outcome s = .ok r)
    (hr' : (checkNode files settings visit v schema' context place chain).outcome s = .ok r') :
    r = [] ↔ r' = [] := by
  obtain ⟨behind, alternatives, own, hb, ha, ho, rfl⟩ := (checkNode_eq_ok hsteady).mp hr
  obtain ⟨behind', alternatives', own', hb', ha', ho', rfl⟩ := (checkNode_eq_ok hsteady).mp hr'
  rw [checkReference, h.own "$ref" (by decide)] at hb'
  have hbehind : behind = behind' := Except.ok.inj (hb.symm.trans hb')
  rw [checkOwn_congr h.own] at ho'
  have hown : own = own' := Except.ok.inj (ho.symm.trans ho')
  -- A report on alternatives is empty when there are none or one is met, whatever the order.
  have hmet : ∀ a, Decides (visit v a context place chain) s
      ((visit v a context place chain).outcome s = .ok []) :=
    fun a report ha => by rw [ha, Except.ok.injEq]
  have halternatives := checkAnyOf_report h.here hsteady hmet alternatives ha
  have halternatives' := checkAnyOf_report h.there hsteady hmet alternatives' ha'
  have hsame : alternatives = [] ↔ alternatives' = [] := by
    rw [halternatives, halternatives']
    refine or_congr ?_ (exists_congr fun a => and_congr_left fun _ => h.perm.mem_iff)
    rw [← List.length_eq_zero_iff, ← List.length_eq_zero_iff, h.perm.length_eq]
  rw [List.append_eq_nil_iff, List.append_eq_nil_iff, List.append_eq_nil_iff,
    List.append_eq_nil_iff, hbehind, hown, hsame]

/-- If the search ends in the other order, the node has a report there as well. -/
theorem OtherOrder.ok (h : OtherOrder schema schema' as bs) (hsteady : SteadyVisit files visit)
    {r : Report}
    (hr : (checkNode files settings visit v schema context place chain).outcome s = .ok r)
    (hsearch : ∃ found,
      (failures (fun a => visit v a context place chain) bs).outcome s = .ok found) :
    ∃ r', (checkNode files settings visit v schema' context place chain).outcome s = .ok r' := by
  obtain ⟨behind, -, own, hb, -, ho, -⟩ := (checkNode_eq_ok hsteady).mp hr
  obtain ⟨alternatives, ha⟩ :
      ∃ report, (checkAnyOf settings visit v schema' context place chain).outcome s = .ok report :=
    (checkAnyOf_ok_iff h.there hsteady).mpr hsearch
  refine ⟨_, (checkNode_eq_ok hsteady).mpr ⟨behind, alternatives, own, ?_, ha, ?_, rfl⟩⟩
  · rw [← hb, checkReference, checkReference, h.own "$ref" (by decide)]
  · rw [← ho, checkOwn_congr h.own]

/-- If a node has a report, the search among its alternatives has ended. -/
theorem failures_of_checkNode (hany : schema.lookup "anyOf" = some (.arr as))
    (hsteady : SteadyVisit files visit) {r : Report}
    (hr : (checkNode files settings visit v schema context place chain).outcome s = .ok r) :
    ∃ found, (failures (fun a => visit v a context place chain) as).outcome s = .ok found := by
  obtain ⟨-, alternatives, -, -, ha, -, -⟩ := (checkNode_eq_ok hsteady).mp hr
  exact (checkAnyOf_ok_iff hany hsteady).mp ⟨alternatives, ha⟩

/-- Unless one alternative is met and another one fails, both orders come to the same. -/
theorem OtherOrder.standing_eq (h : OtherOrder schema schema' as bs)
    (hsteady : SteadyVisit files visit)
    (hmixed : ¬Mixed s (fun a => visit v a context place chain) as) :
    standing ((checkNode files settings visit v schema' context place chain).outcome s) =
      standing ((checkNode files settings visit v schema context place chain).outcome s) := by
  have hsearch : ∀ a, Steady files (visit v a context place chain) := fun _ => hsteady _ _ _ _ _
  have hmixed' : ¬Mixed s (fun a => visit v a context place chain) bs :=
    fun hb => hmixed (hb.perm h.perm.symm)
  have hfound :
      (∃ found, (failures (fun a => visit v a context place chain) as).outcome s = .ok found) ↔
      ∃ found, (failures (fun a => visit v a context place chain) bs).outcome s = .ok found := by
    rw [failures_ok_iff hsearch hmixed, failures_ok_iff hsearch hmixed']
    exact forall_congr' fun a => by rw [h.perm.mem_iff]
  refine Structural.standing_eq ⟨?_, ?_⟩ fun r r' hr hr' => (h.empty_iff hsteady hr' hr).symm
  · rintro ⟨r, hr⟩
    exact h.symm.ok hsteady hr (hfound.mpr (failures_of_checkNode h.there hsteady hr))
  · rintro ⟨r, hr⟩
    exact h.ok hsteady hr (hfound.mp (failures_of_checkNode h.here hsteady hr))

/-- When one order has a report, all orders have one exactly if no alternative fails on its own. -/
theorem ok_in_all_orders_iff (hany : schema.lookup "anyOf" = some (.arr as))
    (hsteady : SteadyVisit files visit) {r : Report}
    (hr : (checkNode files settings visit v schema context place chain).outcome s = .ok r) :
    (∀ bs, as.Perm bs → ∃ r', (checkNode files settings visit v (withAlternatives schema bs) context
        place chain).outcome s = .ok r') ↔
      ∀ a ∈ as, ∃ r', (visit v a context place chain).outcome s = .ok r' := by
  have hsearch : ∀ a, Steady files (visit v a context place chain) := fun _ => hsteady _ _ _ _ _
  constructor
  · intro hall a ha
    cases hout : (visit v a context place chain).outcome s with
    | ok r' => exact ⟨r', rfl⟩
    | error e =>
      -- The order that starts with the alternative that fails has no report.
      obtain ⟨before, after, has⟩ := List.append_of_mem ha
      have hperm : as.Perm (a :: (before ++ after)) := by
        rw [has]
        exact List.perm_middle
      obtain ⟨r', hr'⟩ := hall _ hperm
      obtain ⟨found, hfound⟩ :=
        failures_of_checkNode (otherOrder_withAlternatives hany hperm).there hsteady hr'
      rw [failures_head hout] at hfound
      cases hfound
  · intro hok bs hperm
    refine (otherOrder_withAlternatives hany hperm).ok hsteady hr (failures_ok hsearch ?_)
    exact fun b hb => hok b (hperm.mem_iff.mpr hb)

/-- Validation against a node with alternatives comes to the same in every order of them, unless one
alternative is met and another one fails. Reports in two orders are always empty together. And where
one order has a report, every order has one exactly when no alternative fails on its own. Here the
alternatives are visited as the node visits them: with one level less, at the place of the node and
with its chain of references. -/
theorem validateNode_alternatives_perm (files : FileTree) (s : Store) (settings : Settings)
    (v : Json) (schema : Members) (context : Context) (place : Locator) {as bs : List Json}
    (hany : schema.lookup "anyOf" = some (.arr as)) (hperm : as.Perm bs) :
    let check a :=
      walk files settings settings.maxDepth v a context place (.start settings.maxRefChain)
    let inOrder alternatives := (validateNode files settings v
      (.obj (withAlternatives schema alternatives)) context place).outcome s
    let asWritten := (validateNode files settings v (.obj schema) context place).outcome s
    (¬Mixed s check as → standing (inOrder bs) = standing asWritten) ∧
      (∀ r r', asWritten = .ok r → inOrder bs = .ok r' → (r = [] ↔ r' = [])) ∧
      ∀ r, asWritten = .ok r → ((∀ cs, as.Perm cs → ∃ r', inOrder cs = .ok r') ↔
        ∀ a ∈ as, ∃ r', (check a).outcome s = .ok r') := by
  intro check inOrder asWritten
  have hsteady : SteadyVisit files (walk files settings settings.maxDepth) := walk_steady _ _ _
  have horder := otherOrder_withAlternatives hany hperm
  exact ⟨fun hmixed => horder.standing_eq hsteady hmixed,
    fun r r' hr hr' => horder.empty_iff hsteady hr hr',
    fun r hr => ok_in_all_orders_iff hany hsteady hr⟩

/-- An alternative for strings. -/
def stringAlternative : Json := .obj [("type", .str "string")]

/-- An alternative for null. -/
def nullAlternative : Json := .obj [("type", .str "null")]

/-- An alternative that refers to nothing. -/
def brokenAlternative : Json := .obj [("$ref", .str "#/nope")]

/-- A document that holds nothing to refer to. -/
def emptySchema : Document := ⟨⟨["s", "t.json"]⟩, .obj []⟩

/-- A text is accepted as a string or as null in both orders of these alternatives. -/
theorem stringOrNull_both_orders :
    standing ((validateNode (.empty .root) ⟨4, 20, false⟩ (.str "x")
        (.obj (withAlternatives [("anyOf", .arr [stringAlternative, nullAlternative])]
          [nullAlternative, stringAlternative])) (.ofDocument emptySchema) .root).outcome .empty) =
      some true := by
  have hperm : [stringAlternative, nullAlternative].Perm [nullAlternative, stringAlternative] :=
    List.Perm.swap _ _ _
  have hperms := validateNode_alternatives_perm (.empty .root) .empty ⟨4, 20, false⟩ (.str "x")
    [("anyOf", .arr [stringAlternative, nullAlternative])] (.ofDocument emptySchema) .root rfl hperm
  refine (hperms.1 ?_).trans (by decide +kernel)
  rintro ⟨-, a, ha, e, he⟩
  rcases List.mem_pair.mp ha with rfl | rfl <;> cases he

/-- A text is accepted as a string or as what a broken reference leads to, if the alternative for
strings comes first. In the other order the validation fails. -/
theorem stringOrBroken_depends_on_order :
    [stringAlternative, brokenAlternative].Perm [brokenAlternative, stringAlternative] ∧
      standing ((validateNode (.empty .root) ⟨4, 20, false⟩ (.str "x")
        (.obj [("anyOf", .arr [stringAlternative, brokenAlternative])])
        (.ofDocument emptySchema) .root).outcome .empty) = some true ∧
      (validateNode (.empty .root) ⟨4, 20, false⟩ (.str "x")
        (.obj (withAlternatives [("anyOf", .arr [stringAlternative, brokenAlternative])]
          [brokenAlternative, stringAlternative])) (.ofDocument emptySchema) .root).outcome .empty =
        .error (.unresolvedPointer ⟨["s", "t.json"]⟩ "#/nope" "nope") :=
  ⟨List.Perm.swap _ _ _, by decide +kernel, by decide +kernel⟩

end LinkedSchema.Structural
