import LinkedSchema.Proofs.Bound
import LinkedSchema.Proofs.Judgements

/-!
# How deep the structural walk goes

The depth of the structural walk is bounded without its ceiling. Three things count: the height of
the instance, the references that the chain still has room for, and the height of the node. A step
into an alternative lowers the node. A reference leads to any node of any document, but takes a
place of the chain. A step into an item or a member empties the chain and leads to any node below,
but lowers the instance. So `steps`, which weighs the three against each other, decreases with every
step, and a walk with more levels than that does not run out of them.
-/

namespace LinkedSchema.Structural

open Loading
open ReferenceGraph (FollowsTo ne_depthExceeded_of_isLookup enter_ne_depthExceeded)

variable {files : Texts} {s : Store} {settings : Settings} {visit : Visit} {v : Json}
  {schema : Members} {context : Context} {place : Locator} {chain chain' : Chain}

/-! ## Computations that do not run out of levels -/

/-- A computation does not run out of levels. -/
def Stops {α : Type} (s : Store) (x : Loading α) : Prop :=
  ∀ n place, x.outcome s ≠ .error (.depthExceeded n place)

/-- A value that needs no computation stops. -/
theorem Stops.pure {α : Type} (a : α) : Stops s (Pure.pure a) := by
  intro n place h
  cases h

/-- The judgement that a computation does not run out of levels. -/
abbrev stopping (files : Texts) : Judgement (Store.Extends files) Empty :=
  .failsOnly files fun e => ∀ n place, e ≠ .depthExceeded n place

/-- A steady computation that stops on a store stops on every store that has grown from it. -/
theorem Stops.always {α : Type} {x : Loading α} {y : Empty → Loading α} (h : Stops s x)
    (hsteady : Steady files x) : (stopping files).Always s x y := by
  refine .of_steady hsteady fun e he n place => ?_
  rintro rfl
  exact h n place he

/-- What is judged not to run out of levels stops. -/
theorem Stops.of_always {α : Type} {x : Loading α} {y : Empty → Loading α}
    (h : (stopping files).Always s x y) : Stops s x :=
  fun n place he => (h (Store.Extends.refl files s)).2 _ he n place rfl

/-! ## The steps of a walk -/

/-- How many steps may follow each other below a node, when no document is higher than a bound. -/
def steps (bound : Nat) (v node : Json) (chain : Chain) : Nat :=
  v.height * ((chain.limit + 1) * (bound + 1)) +
    (chain.limit - chain.visited.length) * (bound + 1) + node.height

variable {bound : Nat} {node next w : Json}

/-- A lower node leaves fewer steps. -/
theorem steps_below (h : next.height < node.height) :
    steps bound v next chain < steps bound v node chain := by
  unfold steps
  omega

/-- One reference more leaves fewer steps, wherever it leads. -/
theorem steps_enter {i : Identity} {reference : String} (h : chain.enter i reference = .ok chain')
    (hnext : next.height ≤ bound) : steps bound v next chain' < steps bound v node chain := by
  obtain ⟨-, hroom, rfl⟩ := Chain.enter_eq_ok.mp h
  -- A place of the chain is worth as much as the highest node and one more.
  have hleft : chain.limit - chain.visited.length =
      chain.limit - (chain.visited.length + 1) + 1 := by omega
  have hmul := Nat.add_one_mul (chain.limit - (chain.visited.length + 1)) (bound + 1)
  unfold steps
  rw [List.length_append, List.length_singleton, hleft]
  dsimp only
  omega

/-- A lower instance leaves fewer steps, though the chain is empty again. -/
theorem steps_fresh (h : w.height < v.height) (hnext : next.height ≤ bound) :
    steps bound w next chain.fresh < steps bound v node chain := by
  -- One less in height is worth as much as a whole chain and the highest node.
  have hmul : (w.height + 1) * ((chain.limit + 1) * (bound + 1)) ≤
      v.height * ((chain.limit + 1) * (bound + 1)) := Nat.mul_le_mul_right _ h
  have hone := Nat.add_one_mul w.height ((chain.limit + 1) * (bound + 1))
  have hchain := Nat.add_one_mul chain.limit (bound + 1)
  have hlimit : chain.fresh.limit = chain.limit := rfl
  have hvisited : chain.fresh.visited.length = 0 := rfl
  unfold steps
  rw [hlimit, hvisited, Nat.sub_zero]
  omega

/-- No document of the store or the files is higher than a bound. -/
def HeightsWithin (files : Texts) (s : Store) (bound : Nat) : Prop :=
  ∀ l d, documentAt files s l none = .ok d → d.root.height ≤ bound

/-- A node and the document of its context are not higher than a bound. -/
structure Low (bound : Nat) (context : Context) (node : Json) : Prop where
  /-- The document. -/
  document : context.root.root.height ≤ bound
  /-- The node. -/
  node : node.height ≤ bound

/-- What stands in a low node is low. -/
theorem Low.below (h : Low bound context node) (hlower : next.height < node.height) :
    Low bound context next :=
  ⟨h.document, Nat.le_trans (Nat.le_of_lt hlower) h.node⟩

/-- References lead from low nodes to low nodes. -/
theorem Low.target (hdocuments : HeightsWithin files s bound) (h : Low bound context node)
    {reference : String} {target : Target} (leads : LeadsTo files s context reference target next) :
    Low bound target.context next := by
  have hroot : target.context.root.root.height ≤ bound := by
    obtain ⟨c, hbehind, -, rfl⟩ := resolveReference_eq_ok.mp leads.resolved
    cases hbehind with
    | same => exact h.document
    | document _ _ hd => exact hdocuments _ _ hd
  exact ⟨hroot, Nat.le_trans leads.reaches.inside.height_le hroot⟩

/-- A walk that has more levels than there are steps below a low node does not run out of them. -/
def VisitStops (s : Store) (bound levels : Nat) (visit : Visit) : Prop :=
  ∀ ⦃v node context place chain⦄, Low bound context node → steps bound v node chain < levels →
    Stops s (visit v node context place chain)

/-! ## The whole walk -/

variable {levels : Nat}

/-- Following a reference stops, if going on behind it does. -/
theorem follow_stops {α : Type} {absent : α} {go : Target → Chain → Json → Loading α}
    {go' : Empty → Target → Chain → Json → Loading α}
    (hgo : ∀ {text target chain' next},
      FollowsTo files s context schema chain text target chain' next →
      (stopping files).Always s (go target chain' next) fun i => go' i target chain' next) :
    (stopping files).Always s (follow files schema context chain absent go) fun i =>
      follow files schema context chain absent (go' i) := by
  refine Judgement.Always.follow (fun e he => ne_depthExceeded_of_isLookup he) (fun text _ => ?_)
    (fun _ _ e _ _ he => enter_ne_depthExceeded he) fun text target chain' next t follows ht => ?_
  · exact .of_steady (Steady.resolveReference ..) fun e he =>
      ne_depthExceeded_of_isLookup (resolveReference_isLookup he)
  · have hgrows := (Steady.resolveReference files text context).grows t
    exact (hgo follows).mono (ht.trans hgrows)

/-- A walk with more levels than there are steps does not run out of them. -/
theorem walk_stops (hdocuments : HeightsWithin files s bound) (settings : Settings) :
    ∀ levels, VisitStops s bound levels (walk files settings levels)
  | 0 => fun _ _ _ _ _ _ hlevels => absurd hlevels (Nat.not_lt_zero _)
  | levels + 1 => fun v node context place chain hlow hlevels => by
    -- Every part of the node goes on with one level less and at least one step less.
    have hgo : ∀ {w next context' place' chain'}, Low bound context' next →
        steps bound w next chain' < steps bound v node chain →
        (stopping files).Always s (walk files settings levels w next context' place' chain')
          fun _ => walk files settings levels w next context' place' chain' := by
      intro w next context' place' chain' hnext hless
      have hleft : steps bound w next chain' < levels :=
        Nat.lt_of_lt_of_le hless (Nat.lt_succ_iff.mp hlevels)
      exact (walk_stops hdocuments settings levels hnext hleft).always
        (walk_steady files settings levels ..)
    unfold walk
    cases node with
    | obj schema =>
      have hnode : (stopping files).Always s
          (checkNode files settings (walk files settings levels) v schema context place chain)
          fun _ => checkNode files settings (walk files settings levels) v schema context place
            chain := by
        refine checkNode_always (fun _ => walk files settings levels) (fun _ => rfl) ?_ ?_ ?_ ?_
        · rintro pattern place n place' ⟨⟩
        · simp only [checkReference_eq]
          refine follow_stops fun follows => ?_
          have hnext := hlow.target hdocuments follows.leads
          exact hgo hnext (steps_enter follows.entered hnext.node)
        · intro a ha
          have hlower := ha.inPlace.beneath.height_lt
          exact hgo (hlow.below hlower) (steps_below hlower)
        · intro w next place hw hnext
          have hlow' := hlow.below hnext.beneath.height_lt
          exact hgo hlow' (steps_fresh hw hlow'.node)
      exact Stops.of_always hnode
    | _ => exact Stops.pure _

/-- When all documents and the node are not higher than a bound, validation with a ceiling of so
many levels never exceeds it, whatever the references. -/
theorem validateNode_ne_depthExceeded (files : FileTree) (s : Store) (settings : Settings)
    (bound : Nat) (v node : Json) (context : Context) (place : Locator)
    (hdocuments : ∀ l d, documentAt files s l none = .ok d → d.root.height ≤ bound)
    (hcontext : context.root.root.height ≤ bound) (hnode : node.height ≤ bound)
    (hdepth : (v.height + 1) * (settings.maxRefChain + 1) * (bound + 1) - 1 ≤ settings.maxDepth)
    (n : Nat) (place' : Locator) :
    (validateNode files settings v node context place).outcome s ≠
      .error (.depthExceeded n place') := by
  have hinstance := Nat.add_one_mul v.height ((settings.maxRefChain + 1) * (bound + 1))
  have hchain := Nat.add_one_mul settings.maxRefChain (bound + 1)
  have hlevels : steps bound v node (.start settings.maxRefChain) < settings.maxDepth + 1 :=
    calc steps bound v node (.start settings.maxRefChain)
        = v.height * ((settings.maxRefChain + 1) * (bound + 1)) +
            settings.maxRefChain * (bound + 1) + node.height := rfl
      _ < (v.height + 1) * ((settings.maxRefChain + 1) * (bound + 1)) := by omega
      _ = (v.height + 1) * (settings.maxRefChain + 1) * (bound + 1) := (Nat.mul_assoc ..).symm
      _ ≤ settings.maxDepth + 1 := by omega
  exact walk_stops hdocuments settings _ ⟨hcontext, hnode⟩ hlevels n place'

/-- A schema that refers to another one, under an alternative. -/
def henSchema : Document where
  location := ⟨["s", "hen.json"]⟩
  root := .obj [("anyOf", .arr [.obj [("$ref", .str "egg.json")]])]

/-- A schema that refers back. -/
def eggSchema : Document where
  location := ⟨["s", "egg.json"]⟩
  root := .obj [("$ref", .str "hen.json")]

/-- Documents that refer to each other are no higher than three, so that chains of three references
on a scalar stay within fifteen levels: validation ends with the cycle. -/
theorem henSchema_cycle :
    (validateNode (.empty .root) ⟨3, 15, false⟩ .null henSchema.root (.ofDocument henSchema)
        .root).outcome ⟨[henSchema, eggSchema]⟩ =
      .error (.cyclicReference [⟨eggSchema.location, ""⟩, ⟨henSchema.location, ""⟩,
        ⟨eggSchema.location, ""⟩]) ∧
      ∀ n place, (validateNode (.empty .root) ⟨3, 15, false⟩ .null henSchema.root
        (.ofDocument henSchema) .root).outcome ⟨[henSchema, eggSchema]⟩ ≠
          .error (.depthExceeded n place) := by
  have hdocuments : ∀ l d, documentAt (FileTree.empty .root) ⟨[henSchema, eggSchema]⟩ l none = .ok d →
      d.root.height ≤ 3 := by
    intro l d hd
    have hmem : d ∈ [henSchema, eggSchema] := mem_of_documentAt_empty hd
    have hcase : d = henSchema ∨ d = eggSchema := by simpa using hmem
    rcases hcase with rfl | rfl <;> decide
  exact ⟨by rfl, validateNode_ne_depthExceeded (.empty .root) _ _ 3 _ _ _ _ hdocuments (by decide)
    (by decide) (by decide)⟩

end LinkedSchema.Structural
