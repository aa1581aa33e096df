import LinkedSchema.Proofs.Depth
import LinkedSchema.Proofs.Judgements
import Mathlib.Data.List.Chain
import Mathlib.Logic.Relation

/-!
# Reported cycles are cycles

An identity `LeadsOn` to another one when steps in place, from the node that it names, lead to a
reference that is resolved to the other one. Which steps are in place depends on the walk: the
structural walk only goes into alternatives, the walk through the reference graph into all
subschemas that apply to the same value. `ReportedCycle` says what a reported chain of identities
is: each of them leads on to the next one, none comes twice but the last, and that one closes a
cycle.

Both walks carry the invariant `Placed` from node to node. Its point is `behind`: the node at hand
can be reached in place from the node of the last identity in the chain. A step in place keeps it, a
reference makes the target the last identity, and a step into a part of the instance empties the
chain. So when the chain refuses a target, its last identity leads on to it (`Placed.cycle`).
-/

namespace LinkedSchema

open Loading

variable {files : Texts} {s t : Store} {start : Document} {limit : Nat} {context : Context}
  {node v : Json} {schema : Members} {chain chain' : Chain} {step : Members → Json → Prop}

/-! ## Identities that lead to each other -/

/-- Steps of a kind lead from a node to another. -/
def StepsTo (step : Members → Json → Prop) : Json → Json → Prop :=
  Relation.ReflTransGen fun v w => ∃ schema, v = .obj schema ∧ step schema w

/-- Steps of a kind, from the node that an identity names, lead to a reference that is resolved to
another identity. -/
inductive LeadsOn (files : Texts) (s : Store) (step : Members → Json → Prop) (i : Identity) :
    Identity → Prop
  /-- The reference at the end of the steps. -/
  | reference {d : Document} {first : Json} {schema : Members} {reference : String}
    {target : Target} (document : documentAt files s i.document none = .ok d)
    (named : d.find i.pointer = .ok first) (steps : StepsTo step first (.obj schema))
    (h : schema.lookup "$ref" = some (.str reference))
    (resolved : (resolveReference files reference (.ofDocument d)).outcome s = .ok target) :
    LeadsOn files s step i target.identity

/-- An identity of a schema: some reference is resolved to it, in a document that references lead
to. -/
inductive IdentityOf (files : Texts) (s : Store) (start : Document) : Identity → Prop
  /-- The reference. -/
  | reference {d : Document} {reference : String} {target : Target}
    (referred : ReferredTo files s start d) (refers : d.root.Refers reference)
    (resolved : (resolveReference files reference (.ofDocument d)).outcome s = .ok target) :
    IdentityOf files s start target.identity

/-- Identities of a schema of which each leads on to the next one, and the last one is one of those
before, which differ from each other. -/
structure ReportedCycle (files : Texts) (s : Store) (step : Members → Json → Prop)
    (start : Document) (limit : Nat) (ids : List Identity) : Prop where
  /-- There are two at least. -/
  long : 2 ≤ ids.length
  /-- There are not more before the last than references may follow each other. -/
  short : ids.length - 1 ≤ limit
  /-- Those before the last differ. -/
  distinct : ids.dropLast.Nodup
  /-- The last is one of those before. -/
  closes : ∃! k, k + 1 < ids.length ∧ ids[k]? = ids.getLast?
  /-- Each leads on to the next. -/
  linked : ids.IsChain (LeadsOn files s step)
  /-- They are identities of the schema. -/
  known : ∀ i ∈ ids, IdentityOf files s start i

/-- In a chain of related elements, each is connected with those after it. -/
theorem transGen_of_isChain {α : Type} {R : α → α → Prop} {l : List α} (h : l.IsChain R)
    {j k : Nat} (hjk : j < k) {a b : α} (ha : l[j]? = some a) (hb : l[k]? = some b) :
    Relation.TransGen R a b := by
  have hpairs : l.Pairwise (Relation.TransGen R) :=
    List.isChain_iff_pairwise.mp (h.imp fun _ _ => Relation.TransGen.single)
  obtain ⟨hj, rfl⟩ := List.getElem?_eq_some_iff.mp ha
  obtain ⟨hk, rfl⟩ := List.getElem?_eq_some_iff.mp hb
  exact List.pairwise_iff_getElem.mp hpairs j k hj hk hjk

/-- In a reported cycle an identity leads back to itself. -/
theorem ReportedCycle.leads_back {ids : List Identity}
    (h : ReportedCycle files s step start limit ids) :
    ∃ i, IdentityOf files s start i ∧ Relation.TransGen (LeadsOn files s step) i i := by
  obtain ⟨k, ⟨hk, hlast⟩, -⟩ := h.closes
  have hk' : k < ids.length := Nat.lt_of_succ_lt hk
  have hfirst : ids[k]? = some ids[k] := List.getElem?_eq_getElem hk'
  have hend : ids[ids.length - 1]? = some ids[k] := by
    rw [← List.getLast?_eq_getElem?, ← hlast, hfirst]
  refine ⟨ids[k], h.known _ (List.getElem_mem hk'), ?_⟩
  have hbefore : k < ids.length - 1 := by omega
  exact transGen_of_isChain h.linked hbefore hfirst hend

/-! ## Where a walk stands -/

/-- Entering a chain is refused as a cycle when the chain holds the identity. -/
theorem Chain.enter_eq_cyclic {i : Identity} {reference : String} {ids : List Identity} :
    chain.enter i reference = .error (.cyclicReference ids) ↔
      i ∈ chain.visited ∧ ids = chain.visited ++ [i] := by
  unfold enter
  by_cases h : i ∈ chain.visited
  · simp [h, eq_comm]
  · by_cases hfull : chain.limit ≤ chain.visited.length <;> simp [h, hfull]

/-- A walk that started at the root of a document stands at a node of a document that references
lead to, and its chain holds identities of which each leads on to the next one. -/
structure Placed (files : Texts) (s : Store) (step : Members → Json → Prop) (start : Document)
    (limit : Nat) (context : Context) (node : Json) (chain : Chain) : Prop where
  /-- The document is held. -/
  held : context.Held files s
  /-- References lead to it. -/
  referred : ReferredTo files s start context.root
  /-- The node is inside. -/
  inside : context.root.root.Inside node
  /-- No identity comes twice in the chain, which is short enough. -/
  fair : chain.Fair limit
  /-- The chain holds identities of the schema. -/
  known : ∀ i ∈ chain.visited, IdentityOf files s start i
  /-- Each of them leads on to the next. -/
  linked : chain.visited.IsChain (LeadsOn files s step)
  /-- From the node that the last of them names, steps in place lead to the node at hand. -/
  behind : ∀ i, chain.visited.getLast? = some i → i.document = context.root.location ∧
    ∃ first, context.root.find i.pointer = .ok first ∧ StepsTo step first node

namespace Placed

/-- A walk starts at the root of a document of the store. -/
theorem root (h : s.find? start.location = some start) :
    Placed files s step start limit (.ofDocument start) start.root (.start limit) where
  held := Context.held_ofDocument (documentAt_of_find? h)
  referred := .start
  inside := .here
  fair := .start limit
  known _ hi := absurd hi List.not_mem_nil
  linked := .nil
  behind _ hi := nomatch hi

/-- A step in place keeps the chain. -/
theorem inPlace (h : Placed files s step start limit context (.obj schema) chain)
    (hstep : step schema v) (hinside : (Json.obj schema).Inside v) :
    Placed files s step start limit context v chain where
  held := h.held
  referred := h.referred
  inside := h.inside.trans hinside
  fair := h.fair
  known := h.known
  linked := h.linked
  behind i hi := by
    obtain ⟨hdocument, first, hfirst, hsteps⟩ := h.behind i hi
    exact ⟨hdocument, first, hfirst, hsteps.tail ⟨schema, rfl, hstep⟩⟩

/-- A step into a part of the instance empties the chain. -/
theorem part (h : Placed files s step start limit context (.obj schema) chain)
    (hinside : (Json.obj schema).Inside v) :
    Placed files s step start limit context v chain.fresh where
  held := h.held
  referred := h.referred
  inside := h.inside.trans hinside
  fair := by
    have hfresh : chain.fresh = .start limit := by rw [Chain.fresh, h.fair.ceiling]
    rw [hfresh]
    exact .start limit
  known _ hi := absurd hi List.not_mem_nil
  linked := .nil
  behind _ hi := nomatch hi

variable {reference : String} {target : Target}

/-- The reference of the node at hand is one of its document, which determines the context. -/
theorem refers (h : Placed files s step start limit context (.obj schema) chain)
    (href : schema.lookup "$ref" = some (.str reference)) :
    context.root.root.Refers reference :=
  ⟨schema, h.inside, href⟩

/-- The target of a reference is an identity of the schema. -/
theorem identityOf (h : Placed files s step start limit context (.obj schema) chain)
    (href : schema.lookup "$ref" = some (.str reference))
    (hresolved : (resolveReference files reference context).outcome s = .ok target) :
    IdentityOf files s start target.identity := by
  rw [h.held.directory] at hresolved
  exact .reference h.referred (h.refers href) hresolved

/-- The chain and the target of the reference are linked. -/
theorem linked_append (h : Placed files s step start limit context (.obj schema) chain)
    (href : schema.lookup "$ref" = some (.str reference))
    (hresolved : (resolveReference files reference context).outcome s = .ok target) :
    (chain.visited ++ [target.identity]).IsChain (LeadsOn files s step) := by
  refine List.isChain_append.mpr ⟨h.linked, List.isChain_singleton _, ?_⟩
  intro i hi j hj
  obtain rfl : target.identity = j := by simpa using hj
  -- From the node of the last identity, steps in place lead to the node with the reference.
  obtain ⟨hdocument, first, hfirst, hsteps⟩ := h.behind i hi
  have hheld : documentAt files s i.document none = .ok context.root := by
    rw [hdocument]
    exact h.held.document
  rw [h.held.directory] at hresolved
  exact .reference hheld hfirst hsteps href hresolved

/-- Behind a reference, the chain ends with its target. -/
theorem enter {next : Json} (h : Placed files s step start limit context (.obj schema) chain)
    (href : schema.lookup "$ref" = some (.str reference))
    (leads : LeadsTo files s context reference target next)
    (henter : chain.enter target.identity reference = .ok chain') :
    Placed files s step start limit target.context next chain' := by
  have hknown := h.identityOf href leads.resolved
  have hlinked := h.linked_append href leads.resolved
  have hreferred : ReferredTo files s start target.context.root := by
    have hresolved := leads.resolved
    rw [h.held.directory] at hresolved
    exact .reference h.referred (h.refers href) hresolved
  obtain ⟨-, -, hchain⟩ := Chain.enter_eq_ok.mp henter
  have hvisited : chain'.visited = chain.visited ++ [target.identity] := by rw [hchain]
  constructor
  · exact held_of_resolved h.held leads.resolved
  · exact hreferred
  · exact leads.reaches.inside
  · exact h.fair.enter henter
  · intro i hi
    rw [hvisited] at hi
    rcases List.mem_append.mp hi with hi | hi
    · exact h.known i hi
    · rw [List.mem_singleton.mp hi]
      exact hknown
  · rw [hvisited]
    exact hlinked
  · intro i hi
    rw [hvisited, List.getLast?_concat, Option.some.injEq] at hi
    rw [← hi]
    exact ⟨document_of_resolved leads.resolved, next, leads.found, .refl⟩

/-- A target that the chain refuses as a cycle closes one. -/
theorem cycle {ids : List Identity}
    (h : Placed files s step start limit context (.obj schema) chain)
    (href : schema.lookup "$ref" = some (.str reference))
    (hresolved : (resolveReference files reference context).outcome s = .ok target)
    (henter : chain.enter target.identity reference = .error (.cyclicReference ids)) :
    ReportedCycle files s step start limit ids := by
  obtain ⟨hmem, rfl⟩ := Chain.enter_eq_cyclic.mp henter
  have hlength : (chain.visited ++ [target.identity]).length = chain.visited.length + 1 :=
    List.length_append
  have hshort := h.fair.short
  have hpos : 0 < chain.visited.length := List.length_pos_of_mem hmem
  constructor
  · omega
  · omega
  · rw [List.dropLast_concat]
    exact h.fair.distinct
  · -- The target stands at one place of the chain, as nothing comes twice there.
    have hplace : ∀ k, (k + 1 < (chain.visited ++ [target.identity]).length ∧
        (chain.visited ++ [target.identity])[k]? =
          (chain.visited ++ [target.identity]).getLast?) ↔
        k < chain.visited.length ∧ chain.visited[k]? = some target.identity := by
      intro k
      rw [hlength, List.getLast?_concat, Nat.add_lt_add_iff_right]
      refine and_congr_right fun hk => ?_
      rw [List.getElem?_append_left hk]
    obtain ⟨k, hk⟩ := List.mem_iff_getElem?.mp hmem
    have hlt : k < chain.visited.length := (List.getElem?_eq_some_iff.mp hk).1
    refine ⟨k, (hplace k).mpr ⟨hlt, hk⟩, fun j hj => ?_⟩
    obtain ⟨hj, hsame⟩ := (hplace j).mp hj
    exact (List.getElem?_inj hj h.fair.distinct).mp (hsame.trans hk.symm)
  · exact h.linked_append href hresolved
  · intro i hi
    rcases List.mem_append.mp hi with hi | hi
    · exact h.known i hi
    · rw [List.mem_singleton.mp hi]
      exact h.identityOf href hresolved

end Placed

/-! ## Both walks -/

/-- A failure is no cycle, or reports one that is. -/
def TrueOfCycles (files : Texts) (s : Store) (step : Members → Json → Prop) (start : Document)
    (limit : Nat) (e : SchemaError) : Prop :=
  ∀ ids, e = .cyclicReference ids → ReportedCycle files s step start limit ids

/-- The judgement that all reported cycles are cycles. -/
abbrev truthful (files : Texts) (s : Store) (step : Members → Json → Prop) (start : Document)
    (limit : Nat) : Judgement (Store.Extends files) Empty :=
  .failsOnly files (TrueOfCycles files s step start limit)

/-- Following a reference is truthful, if going on behind it is. -/
theorem follow_truthful {α : Type} {absent : α} {go : Target → Chain → Json → Loading α}
    {go' : Empty → Target → Chain → Json → Loading α}
    (h : Placed files s step start limit context (.obj schema) chain)
    (hgo : ∀ {target chain' next}, Placed files s step start limit target.context next chain' →
      (truthful files s step start limit).Always s (go target chain' next) fun i =>
        go' i target chain' next) :
    (truthful files s step start limit).Always s (follow files schema context chain absent go)
      fun i => follow files schema context chain absent (go' i) := by
  have hlookup : ∀ e : SchemaError, e.IsLookup → TrueOfCycles files s step start limit e := by
    rintro e he ids rfl
    exact he.elim
  refine Judgement.Always.follow hlookup (fun text _ => ?_) ?_ ?_
  · exact .of_steady (Steady.resolveReference ..) fun e he =>
      hlookup e (resolveReference_isLookup he)
  · rintro text target e href hresolved he ids rfl
    exact h.cycle href hresolved he
  · intro text target chain' next t follows ht
    have hgrows := (Steady.resolveReference files text context).grows t
    exact (hgo (h.enter follows.reference follows.leads follows.entered)).mono (ht.trans hgrows)

namespace Structural

/-- How a walk goes on is truthful. -/
def VisitTruthful (files : Texts) (s : Store) (start : Document) (limit : Nat) (visit : Visit) :
    Prop :=
  ∀ ⦃v node context place chain⦄, Placed files s Alternative start limit context node chain →
    (truthful files s Alternative start limit).Always s (visit v node context place chain) fun _ =>
      visit v node context place chain

/-- The walk is truthful, with any number of levels. -/
theorem walk_truthful (files : Texts) (s : Store) (start : Document) (limit : Nat)
    (settings : Settings) :
    ∀ levels, VisitTruthful files s start limit (walk files settings levels)
  | 0 => fun v node context place chain _ => by
    refine Judgement.Always.lift ?_
    rintro e he ids rfl
    cases he
  | levels + 1 => fun v node context place chain h => by
    have ih : VisitTruthful files s start limit (walk files settings levels) :=
      walk_truthful files s start limit settings levels
    unfold walk
    cases node with
    | obj schema =>
      refine checkNode_always (fun _ => walk files settings levels) (fun _ => rfl) ?_ ?_ ?_ ?_
      · rintro pattern place ids ⟨⟩
      · simp only [checkReference_eq]
        exact follow_truthful h fun hplaced => ih hplaced
      · exact fun a ha => ih (h.inPlace ha ha.inPlace.beneath.inside)
      · exact fun w node place _ hnode => ih (h.part hnode.beneath.inside)
    | _ => exact .pure _

end Structural

namespace ReferenceGraph

/-- How a walk goes on is truthful. -/
def VisitTruthful (files : Texts) (s : Store) (start : Document) (limit : Nat) (visit : Visit) :
    Prop :=
  ∀ ⦃node context pointer chain expanded⦄, Placed files s InPlace start limit context node chain →
    (truthful files s InPlace start limit).Always s (visit node context pointer chain expanded)
      fun _ => visit node context pointer chain expanded

/-- The walk is truthful, with any number of levels. -/
theorem walk_truthful (files : Texts) (s : Store) (start : Document) (limit : Nat) :
    ∀ levels, VisitTruthful files s start limit (walk files levels)
  | 0 => fun node context pointer chain expanded _ => by
    refine Judgement.Always.lift ?_
    rintro e he ids rfl
    cases he
  | levels + 1 => fun node context pointer chain expanded h => by
    have ih : VisitTruthful files s start limit (walk files levels) :=
      walk_truthful files s start limit levels
    unfold walk
    cases node with
    | obj schema =>
      refine visitNode_always (fun _ => walk files levels) ?_ ?_ ?_ expanded
      · simp only [followReference_eq]
        exact fun expanded => follow_truthful h fun hplaced => ih hplaced
      · exact fun q v expanded hv => ih (h.inPlace hv hv.beneath.inside)
      · exact fun q v expanded hv => ih (h.part hv.beneath.inside)
    | _ => exact .pure _

end ReferenceGraph

/-- When validation or the check of the reference graph fails with a cycle, the reported identities
are one: each leads on to the next by steps in place, which are steps into alternatives for
validation and steps to all subschemas for the same value for the check. So neither fails with a
cycle on a schema of which no identity leads back to itself in this way. -/
theorem reportedCycle_of_cyclicReference (files : Texts) (s : Store) (schema : Document)
    (hschema : s.find? schema.location = some schema) :
    (∀ settings v ids, (Structural.validate files settings schema v).outcome s =
        .error (.cyclicReference ids) →
      ReportedCycle files s Structural.Alternative schema settings.maxRefChain ids) ∧
    (∀ limit ids, (ReferenceGraph.check files schema limit).outcome s =
        .error (.cyclicReference ids) →
      ReportedCycle files s ReferenceGraph.InPlace schema limit ids) ∧
    ((∀ i, IdentityOf files s schema i →
        ¬Relation.TransGen (LeadsOn files s Structural.Alternative) i i) →
      ∀ settings v ids, (Structural.validate files settings schema v).outcome s ≠
        .error (.cyclicReference ids)) ∧
    ((∀ i, IdentityOf files s schema i →
        ¬Relation.TransGen (LeadsOn files s ReferenceGraph.InPlace) i i) →
      ∀ limit ids, (ReferenceGraph.check files schema limit).outcome s ≠
        .error (.cyclicReference ids)) := by
  have hvalidate : ∀ settings v ids, (Structural.validate files settings schema v).outcome s =
      .error (.cyclicReference ids) →
      ReportedCycle files s Structural.Alternative schema settings.maxRefChain ids := by
    intro settings v ids he
    have hwalk : (truthful files s Structural.Alternative schema settings.maxRefChain).Always s
        (Structural.validate files settings schema v) fun _ =>
          Structural.validate files settings schema v :=
      Structural.walk_truthful files s schema settings.maxRefChain settings _ (.root hschema)
    exact (hwalk (Store.Extends.refl files s)).2 _ he ids rfl
  have hcheck : ∀ limit ids, (ReferenceGraph.check files schema limit).outcome s =
      .error (.cyclicReference ids) →
      ReportedCycle files s ReferenceGraph.InPlace schema limit ids := by
    intro limit ids he
    have hvisit := ReferenceGraph.walk_truthful files s schema limit
      (ReferenceGraph.levels (ReferenceGraph.weight files s + schema.root.size) limit)
    have hall := ReferenceGraph.expandRoot_always limit fun expanded => hvisit (.root hschema)
    rw [outcome, ReferenceGraph.check_runOn] at he
    exact (hall (Store.Extends.refl files s)).2 _ he ids rfl
  refine ⟨hvalidate, hcheck, ?_, ?_⟩
  · intro hno settings v ids he
    obtain ⟨i, hi, hback⟩ := (hvalidate settings v ids he).leads_back
    exact hno i hi hback
  · intro hno limit ids he
    obtain ⟨i, hi, hback⟩ := (hcheck limit ids he).leads_back
    exact hno i hi hback

/-- Documents that refer to each other are reported as a cycle by validation and by the check. -/
theorem henSchema_reportedCycle :
    ReportedCycle (FileTree.empty .root) ⟨[Structural.henSchema, Structural.eggSchema]⟩
      Structural.Alternative Structural.henSchema 3
      [⟨Structural.eggSchema.location, ""⟩, ⟨Structural.henSchema.location, ""⟩,
        ⟨Structural.eggSchema.location, ""⟩] ∧
    ReportedCycle (FileTree.empty .root) ⟨[Structural.henSchema, Structural.eggSchema]⟩
      ReferenceGraph.InPlace Structural.henSchema 2
      [⟨Structural.eggSchema.location, ""⟩, ⟨Structural.henSchema.location, ""⟩,
        ⟨Structural.eggSchema.location, ""⟩] := by
  obtain ⟨hvalidate, hcheck, -⟩ := reportedCycle_of_cyclicReference (FileTree.empty .root)
    ⟨[Structural.henSchema, Structural.eggSchema]⟩ Structural.henSchema rfl
  exact ⟨hvalidate ⟨3, 15, false⟩ .null _ (by rfl), hcheck 2 _ (by rfl)⟩

end LinkedSchema
