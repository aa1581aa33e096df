import LinkedSchema.Proofs.Following
import LinkedSchema.Proofs.Trails

/-!
# The walk covers all trails

When the walk through the reference graph succeeds, all trails from the node it visits are sound,
the documents that they lead to are in the store that is left, and the parts of the nodes on them
are among the expanded locations: the node is `Covered`. A location is `Done` when the nodes that
stand there are covered with a fresh chain.

A location is expanded before the walk below it is finished, so at an intermediate point not all
expanded locations are done. What one step of the walk preserves is that every location which it
adds is done once it returns (`Goes`). As nothing is expanded at first, all locations are done in
the end, and this set of locations is closed under steps into parts.
-/

namespace LinkedSchema

open Loading

namespace Loading

/-- The store that a sequence leaves, when its first part is known to succeed on a smaller store. -/
theorem after_bind_steady {α β : Type} {files : Texts} {s t : Store} {x : Loading α}
    {f : α → Loading β} {a : α} (hx : Steady files x) (ht : Store.Extends files s t)
    (h : x.outcome s = .ok a) : after (x >>= f) t = (f a).after (x.after t) :=
  after_bind_ok ((hx.stays ht).trans h)

end Loading

/-- A chain with a given limit repeats no identity and is not too long. -/
structure Chain.Fair (limit : Nat) (chain : Chain) : Prop where
  /-- The limit. -/
  ceiling : chain.limit = limit
  /-- No identity comes twice. -/
  distinct : chain.visited.Nodup
  /-- There are not too many references. -/
  short : chain.visited.length ≤ limit

/-- The chain without references is fair. -/
theorem Chain.Fair.start (limit : Nat) : (Chain.start limit).Fair limit :=
  ⟨rfl, List.nodup_nil, Nat.zero_le _⟩

/-- A fair chain that is entered is fair. -/
theorem Chain.Fair.enter {limit : Nat} {chain chain' : Chain} (h : chain.Fair limit) {i : Identity}
    {reference : String} (he : chain.enter i reference = .ok chain') : chain'.Fair limit := by
  obtain ⟨hnew, hroom, rfl⟩ := enter_eq_ok.mp he
  refine ⟨h.ceiling, ?_, ?_⟩
  · rw [List.nodup_append]
    refine ⟨h.distinct, List.nodup_singleton i, ?_⟩
    rintro a ha b hb rfl
    exact hnew (List.mem_singleton.mp hb ▸ ha)
  · rw [List.length_append, List.length_singleton]
    exact h.ceiling ▸ hroom

namespace ReferenceGraph

variable {files : Texts} {s t t' : Store} {limit : Nat} {schema : Members} {context : Context}
  {pointer : String} {node : Json} {chain : Chain} {expanded expanded' : Expanded} {visit : Visit}

/-! ## The walk is steady -/

/-- How the walk goes on is steady. -/
def SteadyVisit (files : Texts) (visit : Visit) : Prop :=
  ∀ node context pointer chain expanded,
    Steady files (visit node context pointer chain expanded)

/-- Following a reference and going on is steady. -/
theorem followReference_steady (hvisit : SteadyVisit files visit) :
    Steady files (followReference files visit schema context chain expanded) :=
  follow_steady fun _ _ _ => hvisit ..

/-- Expanding a location is steady. -/
theorem expand_steady (hvisit : SteadyVisit files visit) :
    Steady files (expand visit node context pointer limit expanded) := by
  unfold expand
  dsimp only
  split
  · exact Steady.pure _
  · exact hvisit ..

/-- Visiting subschemas one after the other is steady. -/
theorem each_steady {visit : String → Json → Expanded → Loading Expanded}
    (hvisit : ∀ q v expanded, Steady files (visit q v expanded)) :
    ∀ subschemas expanded, Steady files (each visit subschemas expanded)
  | [], _ => Steady.pure _
  | (q, v) :: rest, expanded => (hvisit q v expanded).bind fun _ => each_steady hvisit rest _

/-- Visiting subschemas that apply to the same value is steady. -/
theorem eachInPlace_steady (hvisit : SteadyVisit files visit) (context : Context) (chain : Chain)
    (subschemas : List (String × Json)) (expanded : Expanded) :
    Steady files (each (fun q v => visit v context q chain) subschemas expanded) :=
  each_steady (fun _ _ _ => hvisit ..) _ _

/-- Expanding subschemas that apply to parts of the value is steady. -/
theorem eachPart_steady (hvisit : SteadyVisit files visit) (context : Context) (limit : Nat)
    (subschemas : List (String × Json)) (expanded : Expanded) :
    Steady files (each (fun q v => expand visit v context q limit) subschemas expanded) :=
  each_steady (fun _ _ _ => expand_steady hvisit) _ _

/-- The walk through one node is steady. -/
theorem visitNode_steady (hvisit : SteadyVisit files visit) :
    Steady files (visitNode files visit schema context pointer chain expanded) :=
  (followReference_steady hvisit).bind fun _ =>
    (eachInPlace_steady hvisit ..).bind fun _ => eachPart_steady hvisit ..

/-- The walk is steady. -/
theorem walk_steady (files : Texts) : ∀ levels, SteadyVisit files (walk files levels)
  | 0 => fun _ _ _ _ _ => Steady.throw _
  | levels + 1 => fun node _ _ _ _ => by
    cases node with
    | obj schema => exact visitNode_steady (walk_steady files levels)
    | _ => exact Steady.pure _

/-! ## Following a reference -/

/-- When the walk gets past the reference of a node, there is none, or it has gone on below the
target, in the store that resolving the reference leaves. -/
theorem followReference_eq_ok (hsteady : SteadyVisit files visit)
    (h : (followReference files visit schema context chain expanded).outcome s = .ok expanded') :
    (schema.lookup "$ref" = none ∧ expanded' = expanded ∧
        ∀ t, (followReference files visit schema context chain expanded).after t = t) ∨
      ∃ text target chain' next, FollowsTo files s context schema chain text target chain' next ∧
        (visit next target.context target.identity.pointer chain' expanded).outcome s =
          .ok expanded' ∧
        ∀ t, Store.Extends files s t →
          (followReference files visit schema context chain expanded).after t =
            (visit next target.context target.identity.pointer chain' expanded).after
              ((resolveReference files text context).after t) :=
  follow_eq_ok (fun _ _ _ => hsteady ..) h

/-- How the walk fails at the reference of a node, or below its target. -/
inductive FollowFails (files : Texts) (s : Store) (visit : Visit) (schema : Members)
    (context : Context) (chain : Chain) (expanded : Expanded) (e : SchemaError) : Prop
  /-- The reference is no string. -/
  | text {reference : Json} (href : schema.lookup "$ref" = some reference)
    (he : referenceText reference = .error e)
  /-- It is not resolved. -/
  | resolve {text : String} (href : schema.lookup "$ref" = some (.str text))
    (he : (resolveReference files text context).outcome s = .error e)
  /-- The chain may not be entered. -/
  | enter {text : String} {target : Target} (href : schema.lookup "$ref" = some (.str text))
    (htarget : (resolveReference files text context).outcome s = .ok target)
    (he : chain.enter target.identity text = .error e)
  /-- There is no node. -/
  | node {text : String} {target : Target} (href : schema.lookup "$ref" = some (.str text))
    (htarget : (resolveReference files text context).outcome s = .ok target)
    (he : target.node = .error e)
  /-- The walk fails below the target. -/
  | below {text : String} {target : Target} {chain' : Chain} {next : Json}
    (follows : FollowsTo files s context schema chain text target chain' next)
    (he : (visit next target.context target.identity.pointer chain' expanded).outcome s = .error e)

/-- There is no other way for the walk to fail at a reference. -/
theorem followReference_eq_error {e : SchemaError} (hsteady : SteadyVisit files visit)
    (h : (followReference files visit schema context chain expanded).outcome s = .error e) :
    FollowFails files s visit schema context chain expanded e := by
  rw [followReference_eq] at h
  cases href : schema.lookup "$ref" with
  | none =>
    rw [follow_of_none href] at h
    cases h
  | some reference =>
    rw [outcome_follow (fun _ _ _ => hsteady ..) href] at h
    rcases bind_eq_error.mp h with he | ⟨text, htext, hread⟩
    · exact .text href he
    obtain rfl := referenceText_eq_ok.mp htext
    rcases bind_eq_error.mp hread with he | ⟨target, htarget, hresolved⟩
    · exact .resolve href he
    rcases bind_eq_error.mp hresolved with he | ⟨chain', hchain, hentered⟩
    · exact .enter href htarget he
    rcases bind_eq_error.mp hentered with he | ⟨next, hnext, he⟩
    · exact .node href htarget he
    exact .below ⟨href, ⟨htarget, hnext⟩, hchain⟩ he

/-! ## Covered nodes -/

/-- All trails from a node, continued from some hops before, are sound; they stay within the
documents of a store, and the parts of the nodes on them are expanded. -/
structure Covered (files : Texts) (s : Store) (limit : Nat) (expanded : Expanded) (t : Store)
    (before : List Identity) (context : Context) (node : Json) : Prop where
  /-- The trails are sound. -/
  sound : ∀ {hops c n}, Trail files s context node hops c n →
    Sound files s limit (before ++ hops) c n
  /-- The documents are in the store. -/
  loaded : ∀ {hops c n}, Trail files s context node hops c n →
    t.find? c.root.location = some c.root
  /-- The parts are expanded. -/
  parts : ∀ {hops c schema v}, Trail files s context node hops c (.obj schema) → Part schema v →
    ∃ q, Stands files s c q v ∧ Identity.of c.root.location q ∈ expanded

/-- The nodes at a location are covered with a fresh chain. -/
def Done (files : Texts) (s : Store) (limit : Nat) (expanded : Expanded) (t : Store)
    (i : Identity) : Prop :=
  ∀ c q v, Stands files s c q v → Identity.of c.root.location q = i →
    Covered files s limit expanded t [] c v

/-- The walk goes from some expanded locations and a store to others: nothing is lost, and what is
new is done. -/
structure Goes (files : Texts) (s : Store) (limit : Nat) (expanded : Expanded) (t : Store)
    (expanded' : Expanded) (t' : Store) : Prop where
  /-- The expanded locations stay. -/
  keeps : expanded ⊆ expanded'
  /-- The store grows. -/
  store : Store.Extends files t t'
  /-- New locations are done. -/
  done : ∀ i ∈ expanded', i ∉ expanded → Done files s limit expanded' t' i

/-- A covered node stays covered. -/
theorem Covered.mono {before : List Identity}
    (h : Covered files s limit expanded t before context node) (hexpanded : expanded ⊆ expanded')
    (hstore : Store.Extends files t t') :
    Covered files s limit expanded' t' before context node where
  sound := h.sound
  loaded trail := hstore.keeps (h.loaded trail)
  parts trail hpart :=
    let ⟨q, hstands, hmem⟩ := h.parts trail hpart
    ⟨q, hstands, hexpanded hmem⟩

/-- The walk may stay. -/
theorem Goes.refl (expanded : Expanded) (t : Store) :
    Goes files s limit expanded t expanded t where
  keeps := List.Subset.refl _
  store := Store.Extends.refl files t
  done _ h hno := absurd h hno

/-- The walk may go on. -/
theorem Goes.trans {expanded'' : Expanded} {t'' : Store}
    (h : Goes files s limit expanded t expanded' t')
    (h' : Goes files s limit expanded' t' expanded'' t'') :
    Goes files s limit expanded t expanded'' t'' where
  keeps := List.Subset.trans h.keeps h'.keeps
  store := h.store.trans h'.store
  done i hi hno := by
    by_cases hmid : i ∈ expanded'
    · exact fun c q v hstands he =>
        (h.done i hmid hno c q v hstands he).mono h'.keeps h'.store
    · exact h'.done i hi hmid

/-- A value that is no object is covered. -/
theorem Covered.plain {before : List Identity} (hno : ∀ schema, node ≠ .obj schema)
    (hdistinct : before.Nodup) (hshort : before.length ≤ limit)
    (hloaded : t.find? context.root.location = some context.root) :
    Covered files s limit expanded t before context node := by
  have hhere : ∀ {hops c n}, Trail files s context node hops c n →
      hops = [] ∧ c = context ∧ n = node := by
    intro hops c n trail
    rcases trail.cases_start with h | ⟨schema, _, _, _, _, h, -⟩ | ⟨schema, _, h, -⟩
    · exact h
    · exact absurd h (hno schema)
    · exact absurd h (hno schema)
  constructor
  · intro hops c n trail
    obtain ⟨rfl, rfl, rfl⟩ := hhere trail
    rw [List.append_nil]
    exact ⟨hdistinct, hshort, fun schema _ h => absurd h (hno schema)⟩
  · intro hops c n trail
    obtain ⟨rfl, rfl, rfl⟩ := hhere trail
    exact hloaded
  · intro hops c schema v trail
    obtain ⟨-, -, h⟩ := hhere trail
    exact absurd h.symm (hno schema)

/-- The reference of a node, if there is one, leads to a covered node. -/
def ReferenceCovered (files : Texts) (s : Store) (limit : Nat) (expanded : Expanded) (t : Store)
    (before : List Identity) (context : Context) (schema : Members) : Prop :=
  ∀ reference, schema.lookup "$ref" = some reference →
    ∃ text target next, reference = .str text ∧ LeadsTo files s context text target next ∧
      Covered files s limit expanded t (before ++ [target.identity]) target.context next

/-- An object is covered when its reference and its subschemas are. -/
theorem Covered.object {before : List Identity} (hdistinct : before.Nodup)
    (hshort : before.length ≤ limit) (hloaded : t.find? context.root.location = some context.root)
    (href : ReferenceCovered files s limit expanded t before context schema)
    (hinPlace : ∀ v, InPlace schema v → Covered files s limit expanded t before context v)
    (hparts : ∀ v, Part schema v →
      ∃ q, Stands files s context q v ∧ Identity.of context.root.location q ∈ expanded) :
    Covered files s limit expanded t before context (.obj schema) := by
  have htarget : ∀ {text target next}, schema.lookup "$ref" = some (.str text) →
      LeadsTo files s context text target next →
      Covered files s limit expanded t (before ++ [target.identity]) target.context next := by
    intro text target next h leads
    obtain ⟨text', target', next', he, leads', hcovered⟩ := href _ h
    cases he
    obtain ⟨rfl, rfl⟩ := leads.unique leads'
    exact hcovered
  -- A trail stops at the object, or its first step is the reference or one in place.
  constructor
  · intro hops c n trail
    rcases trail.cases_start with ⟨rfl, rfl, rfl⟩ |
      ⟨_, _, target, _, rest, he, hr, leads, rfl, htrail⟩ | ⟨_, v, he, hv, trail⟩
    · rw [List.append_nil]
      refine ⟨hdistinct, hshort, ?_⟩
      intro schema' reference he hr
      cases he
      obtain ⟨text, target, next, rfl, leads, -⟩ := href _ hr
      exact ⟨text, target, rfl, leads.resolved⟩
    · cases he
      have h := (htarget hr leads).sound htrail
      rwa [List.append_assoc] at h
    · cases he
      exact (hinPlace v hv).sound trail
  · intro hops c n trail
    rcases trail.cases_start with ⟨rfl, rfl, rfl⟩ |
      ⟨_, _, target, _, rest, he, hr, leads, rfl, htrail⟩ | ⟨_, v, he, hv, trail⟩
    · exact hloaded
    · cases he
      exact (htarget hr leads).loaded htrail
    · cases he
      exact (hinPlace v hv).loaded trail
  · intro hops c schema' v trail hpart
    rcases trail.cases_start with ⟨rfl, rfl, he⟩ |
      ⟨_, _, target, _, rest, he, hr, leads, rfl, htrail⟩ | ⟨_, w, he, hw, trail⟩
    · cases he
      exact hparts v hpart
    · cases he
      exact (htarget hr leads).parts htrail hpart
    · cases he
      exact (hinPlace w hw).parts trail hpart

/-! ## The walk covers what it visits -/

/-- A store from which the walk goes on: it has grown, and it holds the current document. -/
structure Ready (files : Texts) (s : Store) (context : Context) (t : Store) : Prop where
  /-- It has grown. -/
  grown : Store.Extends files s t
  /-- The current document is there. -/
  held : t.find? context.root.location = some context.root

/-- The walk may go on after the store has grown. -/
theorem Ready.extends (h : Ready files s context t) (ht : Store.Extends files t t') :
    Ready files s context t' := ⟨h.grown.trans ht, ht.keeps h.held⟩

/-- Whenever the walk goes on below a node and succeeds, it has covered the node. -/
def VisitCovers (files : Texts) (s : Store) (limit : Nat) (visit : Visit) : Prop :=
  ∀ ⦃node context pointer chain expanded expanded' t⦄, Stands files s context pointer node →
    chain.Fair limit → Ready files s context t →
    (visit node context pointer chain expanded).outcome s = .ok expanded' →
    Goes files s limit expanded t expanded'
        ((visit node context pointer chain expanded).after t) ∧
      Covered files s limit expanded' ((visit node context pointer chain expanded).after t)
        chain.visited context node

/-- Following the reference of a node covers what it leads to. -/
theorem followReference_covers (hplain : PlainReferences files s)
    (hsteady : SteadyVisit files visit) (hvisit : VisitCovers files s limit visit)
    (hstands : Stands files s context pointer (.obj schema)) (hfair : chain.Fair limit)
    (hready : Ready files s context t)
    (h : (followReference files visit schema context chain expanded).outcome s = .ok expanded') :
    Goes files s limit expanded t expanded'
        ((followReference files visit schema context chain expanded).after t) ∧
      ReferenceCovered files s limit expanded'
        ((followReference files visit schema context chain expanded).after t) chain.visited context
        schema := by
  rcases followReference_eq_ok hsteady h with
    ⟨href, rfl, hafter⟩ | ⟨text, target, chain', next, follows, hvisited, hafter⟩
  · rw [hafter]
    refine ⟨Goes.refl _ _, fun reference hr => ?_⟩
    rw [href] at hr
    cases hr
  · rw [hafter t hready.grown]
    -- Resolving the reference has put the document of its target into the store.
    have hresolve : Steady files (resolveReference files text context) := Steady.resolveReference ..
    have hgrows := hresolve.grows t
    have htarget := (hresolve.stays hready.grown).trans follows.leads.resolved
    have hready' : Ready files s target.context ((resolveReference files text context).after t) :=
      ⟨hready.grown.trans hgrows, find?_after_resolveReference htarget hready.held⟩
    obtain ⟨hgoes, hcovered⟩ := hvisit (hstands.target hplain follows.reference follows.leads)
      (hfair.enter follows.entered) hready' hvisited
    refine ⟨⟨hgoes.keeps, hgrows.trans hgoes.store, hgoes.done⟩, fun reference hr => ?_⟩
    rw [follows.reference] at hr
    cases hr
    obtain ⟨-, -, rfl⟩ := Chain.enter_eq_ok.mp follows.entered
    exact ⟨text, target, next, rfl, follows.leads, hcovered⟩

/-- Visiting subschemas one after the other establishes of each what its visit does. -/
theorem each_covers {visit : String → Json → Expanded → Loading Expanded}
    {P : Json → Expanded → Store → Prop}
    (hmono : ∀ {v expanded t expanded' t'}, Goes files s limit expanded t expanded' t' →
      P v expanded t → P v expanded' t')
    (hsteady : ∀ q v expanded, Steady files (visit q v expanded)) :
    ∀ {subschemas : List (String × Json)} {expanded expanded' : Expanded} {t : Store},
      (∀ {q v expanded expanded' t}, (q, v) ∈ subschemas → Ready files s context t →
        (visit q v expanded).outcome s = .ok expanded' →
        Goes files s limit expanded t expanded' ((visit q v expanded).after t) ∧
          P v expanded' ((visit q v expanded).after t)) →
      Ready files s context t → (each visit subschemas expanded).outcome s = .ok expanded' →
      Goes files s limit expanded t expanded' ((each visit subschemas expanded).after t) ∧
        ∀ {q v}, (q, v) ∈ subschemas → P v expanded' ((each visit subschemas expanded).after t)
  | [], _, _, _, _, _, h => by
    cases h
    exact ⟨Goes.refl _ _, fun hmem => absurd hmem (List.not_mem_nil)⟩
  | (q, v) :: rest, expanded, expanded', t, hvisit, hready, h => by
    obtain ⟨middle, hfirst, hrest⟩ := (outcome_bind_eq_ok (hsteady q v expanded) fun _ =>
      each_steady hsteady rest _).mp h
    -- What was established of the first one survives the visits of the others.
    obtain ⟨hgoes, hP⟩ := hvisit List.mem_cons_self hready hfirst
    obtain ⟨hgoes', hPs⟩ := each_covers (P := P) hmono hsteady
      (fun hmem => hvisit (List.mem_cons_of_mem _ hmem)) (hready.extends hgoes.store) hrest
    have hafter : (each visit ((q, v) :: rest) expanded).after t =
        (each visit rest middle).after ((visit q v expanded).after t) :=
      after_bind_steady (hsteady q v expanded) hready.grown hfirst
    rw [hafter]
    refine ⟨hgoes.trans hgoes', fun hmem => ?_⟩
    rcases List.mem_cons.mp hmem with he | hmem
    · cases he
      exact hmono hgoes' hP
    · exact hPs hmem

/-- Expanding a location puts it among the expanded ones. -/
theorem expand_covers (hvisit : VisitCovers files s limit visit)
    (hstands : Stands files s context pointer node) (hready : Ready files s context t)
    (h : (expand visit node context pointer limit expanded).outcome s = .ok expanded') :
    Goes files s limit expanded t expanded'
        ((expand visit node context pointer limit expanded).after t) ∧
      Identity.of context.root.location pointer ∈ expanded' := by
  unfold expand at h ⊢
  dsimp only at h ⊢
  split at h
  · next hmem =>
    cases h
    rw [if_pos hmem]
    exact ⟨Goes.refl _ _, hmem⟩
  · next hnew =>
    rw [if_neg hnew]
    obtain ⟨hgoes, hcovered⟩ := hvisit hstands (.start limit) hready h
    have hmem := hgoes.keeps List.mem_cons_self
    refine ⟨⟨fun i hi => hgoes.keeps (List.mem_cons_of_mem _ hi), hgoes.store, ?_⟩, hmem⟩
    intro i hi hno
    by_cases he : i = Identity.of context.root.location pointer
    · -- The location itself was expanded before the walk below it, which has covered it by now.
      subst he
      intro c q v hstands' he
      obtain ⟨rfl, rfl, rfl⟩ := hstands'.unique hstands he
      exact hcovered
    · exact hgoes.done i hi (by simp [he, hno])

/-- The walk through one object covers it. -/
theorem visitNode_covers (hs : s.WellFormed) (hplain : PlainReferences files s)
    (hsteady : SteadyVisit files visit) (hvisit : VisitCovers files s limit visit)
    (hstands : Stands files s context pointer (.obj schema)) (hfair : chain.Fair limit)
    (hready : Ready files s context t)
    (h : (visitNode files visit schema context pointer chain expanded).outcome s = .ok expanded') :
    Goes files s limit expanded t expanded'
        ((visitNode files visit schema context pointer chain expanded).after t) ∧
      Covered files s limit expanded'
        ((visitNode files visit schema context pointer chain expanded).after t) chain.visited context
        (.obj schema) := by
  have hinPlace := eachInPlace_steady hsteady context chain
  have hparts := eachPart_steady hsteady context chain.limit
  have hfollow : Steady files (followReference files visit schema context chain expanded) :=
    followReference_steady hsteady
  unfold visitNode at h ⊢
  obtain ⟨first, hfirst, h⟩ := (outcome_bind_eq_ok hfollow fun _ =>
    (hinPlace _ _).bind fun _ => hparts _ _).mp h
  obtain ⟨second, hsecond, h⟩ := (outcome_bind_eq_ok (hinPlace _ _) fun _ => hparts _ _).mp h
  -- The reference.
  rw [after_bind_steady hfollow hready.grown hfirst]
  obtain ⟨hgoes, href⟩ := followReference_covers hplain hsteady hvisit hstands hfair hready hfirst
  -- The subschemas that apply to the same value.
  have hready := hready.extends hgoes.store
  rw [after_bind_steady (hinPlace _ _) hready.grown hsecond]
  obtain ⟨hgoes', hcovered⟩ := each_covers
    (P := fun v expanded t => Covered files s limit expanded t chain.visited context v)
    (fun hgoes h => h.mono hgoes.keeps hgoes.store) (fun _ _ _ => hsteady ..)
    (fun hmem hready h => hvisit (hstands.inPlace hs hmem) hfair hready h) hready hsecond
  -- The subschemas that apply to parts, each from a fresh chain.
  have hready := hready.extends hgoes'.store
  rw [hfair.ceiling] at h ⊢
  obtain ⟨hgoes'', hexpanded⟩ := each_covers
    (P := fun v expanded _ =>
      ∃ q, Stands files s context q v ∧ Identity.of context.root.location q ∈ expanded)
    (fun hgoes ⟨q, hq, hmem⟩ => ⟨q, hq, hgoes.keeps hmem⟩) (fun _ _ _ => expand_steady hsteady)
    (fun hmem hready h =>
      let hstands := hstands.part hs hmem
      let ⟨hgoes, hmem⟩ := expand_covers hvisit hstands hready h
      ⟨hgoes, _, hstands, hmem⟩) hready h
  -- What was covered first stays covered while the walk goes on.
  have hlater := hgoes'.trans hgoes''
  refine ⟨hgoes.trans hlater, Covered.object hfair.distinct hfair.short ?_ ?_ ?_ ?_⟩
  · exact (hready.extends hgoes''.store).held
  · intro reference hr
    obtain ⟨text, target, next, he, leads, hcovered⟩ := href reference hr
    exact ⟨text, target, next, he, leads, hcovered.mono hlater.keeps hlater.store⟩
  · intro v hv
    obtain ⟨q, hq⟩ := (inPlace_iff pointer).mp hv
    exact (hcovered hq).mono hgoes''.keeps hgoes''.store
  · intro v hv
    obtain ⟨q, hq⟩ := (part_iff pointer).mp hv
    exact hexpanded hq

/-- The walk covers what it visits, with any number of levels. -/
theorem walk_covers (hs : s.WellFormed) (hplain : PlainReferences files s) :
    ∀ levels, VisitCovers files s limit (walk files levels)
  | 0 => fun _ _ _ _ _ _ _ _ _ _ h => by cases h
  | levels + 1 => fun node context pointer chain expanded expanded' t hstands hfair hready h => by
    have ih : VisitCovers files s limit (walk files levels) := walk_covers hs hplain levels
    unfold walk at h ⊢
    split at h
    · exact visitNode_covers hs hplain (walk_steady files levels) ih hstands hfair hready h
    · next hno =>
      cases h
      exact ⟨Goes.refl _ _, Covered.plain hno hfair.distinct hfair.short hready.held⟩

/-! ## The check -/

/-- The check expands the root of the schema, with a depth that the files and the store bound. -/
theorem check_runOn (files : Texts) (schema : Document) (limit : Nat) (s : Store) :
    (check files schema limit).runOn s =
      Loading.runOn (do
        let _ ← expand (walk files (levels (weight files s + schema.root.size) limit)) schema.root
          (.ofDocument schema) "" limit []
        pure ()) s := by
  rw [check, runOn_bind, runOn_get]

/-- The check is steady from the store that it starts with. -/
theorem check_grows (files : Texts) (schema : Document) (limit : Nat) (s : Store) :
    Store.Extends files s ((check files schema limit).after s) := by
  unfold after
  rw [check_runOn]
  exact ((expand_steady (walk_steady files _)).bind fun _ => Steady.pure ()).grows s

/-- When the check succeeds, all locations of the schema are covered. -/
theorem covered_of_check {schema : Document} (hs : s.WellFormed) (hplain : PlainReferences files s)
    (hschema : s.find? schema.location = some schema)
    (h : (check files schema limit).outcome s = .ok ()) :
    ∃ expanded, ∀ {c n}, Reached files s (.ofDocument schema) schema.root c n →
      Covered files s limit expanded ((check files schema limit).after s) [] c n := by
  unfold outcome at h
  unfold after
  rw [check_runOn] at h ⊢
  have hsteady := walk_steady files (levels (weight files s + schema.root.size) limit)
  have hexpand : Steady files
      (expand (walk files (levels (weight files s + schema.root.size) limit)) schema.root
        (.ofDocument schema) "" limit []) := expand_steady hsteady
  obtain ⟨expanded, hexpanded, -⟩ := (outcome_bind_eq_ok hexpand fun _ => Steady.pure ()).mp h
  have hready : Ready files s (.ofDocument schema) s := ⟨Store.Extends.refl files s, hschema⟩
  have hroot : Stands files s (.ofDocument schema) "" schema.root := .root hschema
  obtain ⟨hgoes, hmem⟩ := expand_covers (walk_covers hs hplain _) hroot hready hexpanded
  refine ⟨expanded, fun {c n} hreached => ?_⟩
  change Covered files s limit expanded (after _ s) [] c n
  rw [after_bind_steady hexpand hready.grown hexpanded, after_pure]
  -- Nothing was expanded at first, so all expanded locations are done, and a step into a part leads
  -- from one of them to another.
  induction hreached with
  | start => exact hgoes.done _ hmem List.not_mem_nil _ _ _ hroot rfl
  | part _ trail hpart ih =>
    obtain ⟨q, hstands, hq⟩ := ih.parts trail hpart
    exact hgoes.done _ hq List.not_mem_nil _ _ _ hstands rfl

/-- When the check succeeds, the schema is followable. -/
theorem followable_of_check {schema : Document} (hs : s.WellFormed)
    (hplain : PlainReferences files s) (hschema : s.find? schema.location = some schema)
    (h : (check files schema limit).outcome s = .ok ()) : Followable files s limit schema := by
  rintro hops c n ⟨c', n', hreached, trail⟩
  obtain ⟨expanded, hcovered⟩ := covered_of_check hs hplain hschema h
  exact (hcovered hreached).sound trail

end ReferenceGraph

end LinkedSchema
