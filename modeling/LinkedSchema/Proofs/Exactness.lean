import LinkedSchema.Proofs.Bound

/-!
# The check is exact

The check of the reference graph succeeds exactly on followable schemas, and an error that it
returns is true of some trail (`check_ok_iff_followable`). That success is enough is what the walk
covers. For the converse, the walk is followed to the place where it fails: it stands at the end of
a trail from a location, and its chain holds the hops of this trail. As its levels suffice, the
error is that of the reference there.
-/

namespace LinkedSchema.ReferenceGraph

open Loading

variable {files : Texts} {s : Store} {start : Document} {limit : Nat} {schema : Members}
  {context : Context} {pointer : String} {chain : Chain} {expanded : Expanded} {visit : Visit}
  {e : SchemaError}

/-- A fault is a reason for a schema not to be followable. -/
theorem FaultOf.not_followable (h : FaultOf files s limit start e) :
    ¬Followable files s limit start := by
  obtain ⟨hops, c, schema, ⟨c', n', hreached, trail⟩, -, -, hfault⟩ := h
  intro hfollow
  have hsound := hfollow hops c (.obj schema) ⟨c', n', hreached, trail⟩
  cases hfault with
  | malformed href hno =>
    obtain ⟨text, -, he, -⟩ := hsound.resolves _ _ rfl href
    exact hno text he
  | unresolved href he =>
    obtain ⟨text, target, ht, hok⟩ := hsound.resolves _ _ rfl href
    cases ht
    rw [he] at hok
    cases hok
  | cycle href leads again =>
    have hnext := hfollow _ _ _ ⟨c', n', hreached, trail.hop href leads⟩
    exact (List.nodup_append.mp hnext.distinct).2.2 _ again _ (List.mem_singleton_self _) rfl
  | tooLong href leads full =>
    have hnext := (hfollow _ _ _ ⟨c', n', hreached, trail.hop href leads⟩).short
    rw [List.length_append, List.length_singleton] at hnext
    omega

/-- An error is true of a trail, or the levels did not suffice. -/
def Explained (files : Texts) (s : Store) (limit : Nat) (start : Document) (e : SchemaError) :
    Prop :=
  FaultOf files s limit start e ∨ ∃ n place, e = .depthExceeded n place

/-- Whenever the walk goes on at the end of a trail and fails, the error is explained. -/
def VisitExplains (files : Texts) (s : Store) (limit : Nat) (start : Document) (visit : Visit) :
    Prop :=
  ∀ ⦃node context pointer chain expanded e⦄, Stands files s context pointer node →
    chain.Fair limit → OnTrail files s start chain.visited context node →
    (visit node context pointer chain expanded).outcome s = .error e →
    Explained files s limit start e

/-- The error of a reference is explained. -/
theorem followReference_explains (hplain : PlainReferences files s)
    (hsteady : SteadyVisit files visit) (hvisit : VisitExplains files s limit start visit)
    (hstands : Stands files s context pointer (.obj schema)) (hfair : chain.Fair limit)
    (htrail : OnTrail files s start chain.visited context (.obj schema))
    (h : (followReference files visit schema context chain expanded).outcome s = .error e) :
    Explained files s limit start e := by
  have hfault : ∀ {e}, Fault files s limit chain.visited context schema e →
      Explained files s limit start e := fun hf =>
    .inl ⟨chain.visited, context, schema, htrail, hfair.distinct, hfair.short, hf⟩
  cases followReference_eq_error hsteady h with
  | @text reference href he =>
    cases reference with
    | str text => cases he
    | _ =>
      cases he
      exact hfault (.malformed href (by simp))
  | resolve href he => exact hfault (.unresolved href he)
  | enter href htarget he =>
    -- The chain holds the hops of the trail and is as long as its limit lets it be.
    obtain ⟨next, leads⟩ := hstands.leadsTo hplain href htarget
    unfold Chain.enter at he
    split at he
    · next again =>
      cases he
      exact hfault (.cycle href leads again)
    · split at he
      · next hfull =>
        cases he
        rw [hfair.ceiling] at hfull ⊢
        exact hfault (.tooLong href leads (Nat.le_antisymm hfair.short hfull))
      · cases he
  | node href htarget he =>
    -- A reference is only resolved when there is a node.
    obtain ⟨next, leads⟩ := hstands.leadsTo hplain href htarget
    rw [leads.found] at he
    cases he
  | below follows he =>
    have hnext := hstands.target hplain follows.reference follows.leads
    refine hvisit hnext (hfair.enter follows.entered) ?_ he
    obtain ⟨-, -, rfl⟩ := Chain.enter_eq_ok.mp follows.entered
    obtain ⟨c', n', hreached, trail⟩ := htrail
    exact ⟨c', n', hreached, trail.hop follows.reference follows.leads⟩

/-- When visiting subschemas fails, the visit of one of them does. -/
theorem each_error {visit : String → Json → Expanded → Loading Expanded}
    (hsteady : ∀ q v expanded, Steady files (visit q v expanded)) :
    ∀ {subschemas : List (String × Json)} {expanded : Expanded},
      (each visit subschemas expanded).outcome s = .error e →
      ∃ q v expanded', (q, v) ∈ subschemas ∧ (visit q v expanded').outcome s = .error e
  | [], _, h => by cases h
  | (q, v) :: rest, expanded, h => by
    rcases (outcome_bind_eq_error (hsteady q v expanded) fun _ =>
      each_steady hsteady rest _).mp h with h | ⟨expanded', -, h⟩
    · exact ⟨q, v, expanded, List.mem_cons_self, h⟩
    · obtain ⟨q', v', expanded'', hmem, h⟩ := each_error hsteady h
      exact ⟨q', v', expanded'', List.mem_cons_of_mem _ hmem, h⟩

/-- The error of an expansion is explained. -/
theorem expand_explains {node : Json} (hvisit : VisitExplains files s limit start visit)
    (hstands : Stands files s context pointer node)
    (hreached : Reached files s (.ofDocument start) start.root context node)
    (h : (expand visit node context pointer limit expanded).outcome s = .error e) :
    Explained files s limit start e := by
  unfold expand at h
  dsimp only at h
  split at h
  · cases h
  · exact hvisit hstands (.start limit) ⟨context, node, hreached, .here⟩ h

/-- The error at an object is explained. -/
theorem visitNode_explains (hs : s.WellFormed) (hplain : PlainReferences files s)
    (hsteady : SteadyVisit files visit) (hvisit : VisitExplains files s limit start visit)
    (hstands : Stands files s context pointer (.obj schema)) (hfair : chain.Fair limit)
    (htrail : OnTrail files s start chain.visited context (.obj schema))
    (h : (visitNode files visit schema context pointer chain expanded).outcome s = .error e) :
    Explained files s limit start e := by
  have hinPlace := eachInPlace_steady hsteady context chain
  have hparts := eachPart_steady hsteady context chain.limit
  obtain ⟨c', n', hreached, trail⟩ := htrail
  unfold visitNode at h
  rcases (outcome_bind_eq_error (followReference_steady hsteady) fun _ =>
    (hinPlace _ _).bind fun _ => hparts _ _).mp h with h | ⟨first, -, h⟩
  · exact followReference_explains hplain hsteady hvisit hstands hfair
      ⟨c', n', hreached, trail⟩ h
  rcases (outcome_bind_eq_error (hinPlace _ _) fun _ => hparts _ _).mp h with h | ⟨second, -, h⟩
  · obtain ⟨q, v, _, hmem, h⟩ := each_error (fun _ _ _ => hsteady ..) h
    have hstep := (inPlace_iff pointer).mpr ⟨q, hmem⟩
    exact hvisit (hstands.inPlace hs hmem) hfair ⟨c', n', hreached, trail.apply hstep⟩ h
  · rw [hfair.ceiling] at h
    obtain ⟨q, v, _, hmem, h⟩ := each_error (fun _ _ _ => expand_steady hsteady) h
    have hpart := (part_iff pointer).mpr ⟨q, hmem⟩
    exact expand_explains hvisit (hstands.part hs hmem) (hreached.part trail hpart) h

/-- The errors of the walk are explained, with any number of levels. -/
theorem walk_explains (hs : s.WellFormed) (hplain : PlainReferences files s) :
    ∀ levels, VisitExplains files s limit start (walk files levels)
  | 0 => fun _ _ _ _ _ _ _ _ _ h => by
    cases h
    exact .inr ⟨_, _, rfl⟩
  | levels + 1 => fun node context pointer chain expanded e hstands hfair htrail h => by
    have ih : VisitExplains files s limit start (walk files levels) :=
      walk_explains hs hplain levels
    unfold walk at h
    split at h
    · exact visitNode_explains hs hplain (walk_steady files levels) ih hstands hfair htrail h
    · cases h

/-- The check succeeds exactly on followable schemas, and otherwise its error is true of a trail. -/
theorem check_ok_iff_followable (files : FileTree) (s : Store) (schema : Document) (limit : Nat)
    (hs : s.WellFormed) (hplain : PlainReferences files s)
    (hschema : s.find? schema.location = some schema) :
    ((check files schema limit).outcome s = .ok () ↔ Followable files s limit schema) ∧
      ∀ e, (check files schema limit).outcome s = .error e → FaultOf files s limit schema e := by
  have herror : ∀ e, (check files schema limit).outcome s = .error e →
      FaultOf files s limit schema e := by
    intro e h
    have hlevels := check_ne_depthExceeded files.listed s (hs.normal _ (Store.mem_of_find? hschema)) limit
    have hexplained : Explained files s limit schema e := by
      have hr := h
      unfold outcome at hr
      rw [check_runOn] at hr
      rcases (outcome_bind_eq_error (expand_steady (walk_steady files _)) fun _ =>
        Steady.pure ()).mp hr with hr | ⟨_, -, hr⟩
      · exact expand_explains (walk_explains hs hplain _) (.root hschema) .start hr
      · cases hr
    rcases hexplained with hfault | ⟨n, place, rfl⟩
    · exact hfault
    · exact absurd h (hlevels n place)
  -- A check that fails returns an error, and an error is a reason not to be followable.
  refine ⟨⟨followable_of_check hs hplain hschema, fun hfollow => ?_⟩, herror⟩
  · cases h : (check files schema limit).outcome s with
    | ok => rfl
    | error e => exact absurd hfollow (herror e h).not_followable

/-- A schema of trees, each of which may have a child. -/
def treeSchema : Document where
  location := ⟨["s", "tree.json"]⟩
  root := .obj [("properties", .obj [("child", .obj [("$ref", .str "#")])])]

/-- A store with the schema of trees is well-formed. -/
theorem wellFormed_treeSchema : (Store.mk [treeSchema]).WellFormed := by
  refine Store.wellFormed_singleton (fun members hin => ?_) (by decide)
  have hmem := mem_places_of_inside hin
  simp [treeSchema, places, memberPlaces] at hmem
  rcases hmem with rfl | rfl | rfl <;> simp

/-- The only reference of the schema of trees is a single hash. -/
theorem plainReferences_treeSchema :
    PlainReferences (.empty .root) ⟨[treeSchema]⟩ := by
  refine plainReferences_empty fun d hd reference ⟨schema, hin, href⟩ => ?_
  rw [List.mem_singleton.mp hd] at hin
  have hmem := mem_places_of_inside hin
  simp [treeSchema, places, memberPlaces] at hmem
  rcases hmem with rfl | rfl | rfl
  · cases href
  · cases href
  · cases href
    exact ⟨by decide, by decide⟩

set_option maxRecDepth 10000 in
/-- The schema of trees can be followed with one reference at every place, and not with none. -/
theorem treeSchema_followable :
    Followable (.empty .root) ⟨[treeSchema]⟩ 1 treeSchema ∧
      ¬Followable (.empty .root) ⟨[treeSchema]⟩ 0 treeSchema ∧
      FaultOf (.empty .root) ⟨[treeSchema]⟩ 0 treeSchema (.referenceChainTooLong 0 "#") := by
  have hone : (check (.empty .root) treeSchema 1).outcome ⟨[treeSchema]⟩ = .ok () := by rfl
  have hnone : (check (.empty .root) treeSchema 0).outcome ⟨[treeSchema]⟩ =
      .error (.referenceChainTooLong 0 "#") := by rfl
  have h := fun limit => check_ok_iff_followable (.empty .root) ⟨[treeSchema]⟩ treeSchema limit
    wellFormed_treeSchema plainReferences_treeSchema (by rfl)
  refine ⟨(h 1).1.mp hone, fun hf => ?_, (h 0).2 _ hnone⟩
  have hok := (h 0).1.mpr hf
  rw [hnone] at hok
  cases hok

end LinkedSchema.ReferenceGraph
