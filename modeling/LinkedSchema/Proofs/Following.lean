import LinkedSchema.Proofs.References
import LinkedSchema.Validation.ReferenceGraph
import LinkedSchema.Validation.Structural

/-!
# Following references

Both walks do the same about the reference of a node: its text is read and resolved, the chain is
entered, and the node of the target is looked up. They differ in what they return without a
reference and in how they go on, which `follow` leaves open. If going on is steady, all steps can be
looked at on one store (`outcome_follow`), and resolving the reference is the only one that touches
it: so following a reference succeeds where it leads somewhere (`FollowsTo`) and going on there
succeeds, in the store that resolving it leaves (`follow_eq_ok`).
-/

namespace LinkedSchema

open Loading

/-- What a walk does about the reference of a node, given how it goes on at the node behind it. -/
def follow {α : Type} (files : Texts) (schema : Members) (context : Context) (chain : Chain)
    (absent : α) (go : Target → Chain → Json → Loading α) : Loading α :=
  match schema.lookup "$ref" with
  | none => pure absent
  | some reference => do
    let text ← ExceptT.mk (pure (referenceText reference))
    let target ← resolveReference files text context
    let chain ← ExceptT.mk (pure (chain.enter target.identity text))
    let node ← ExceptT.mk (pure target.node)
    go target chain node

/-- The reference of a node leads to another one, whose identity a chain may enter. -/
structure ReferenceGraph.FollowsTo (files : Texts) (s : Store) (context : Context)
    (schema : Members) (chain : Chain) (text : String) (target : Target) (chain' : Chain)
    (next : Json) : Prop where
  /-- The reference. -/
  reference : schema.lookup "$ref" = some (.str text)
  /-- It leads there. -/
  leads : LeadsTo files s context text target next
  /-- The chain may be entered. -/
  entered : chain.enter target.identity text = .ok chain'

variable {α : Type} {files : Texts} {s t : Store} {schema : Members} {context : Context}
  {chain chain' : Chain} {absent : α} {go : Target → Chain → Json → Loading α} {text : String}
  {target : Target} {next : Json}

/-- The structural walk goes on with the same value. -/
theorem Structural.checkReference_eq {visit : Visit} {v : Json} {place : Locator} :
    checkReference files visit v schema context place chain =
      follow files schema context chain [] fun target chain node =>
        visit v node target.context place chain := rfl

/-- The walk through the reference graph goes on with the expanded locations. -/
theorem ReferenceGraph.followReference_eq {visit : Visit} {expanded : Expanded} :
    followReference files visit schema context chain expanded =
      follow files schema context chain expanded fun target chain node =>
        visit node target.context target.identity.pointer chain expanded := rfl

/-! ## What is steady -/

/-- Looking up the node of a target and going on there is steady. -/
theorem atTarget_steady (h : ∀ target chain next, Steady files (go target chain next))
    (target : Target) (chain : Chain) :
    Steady files (do
      let node ← ExceptT.mk (pure target.node)
      go target chain node) :=
  (Steady.lift _).bind fun _ => h ..

/-- Entering the chain and going on at a target is steady. -/
theorem enter_steady (h : ∀ target chain next, Steady files (go target chain next))
    (chain : Chain) (text : String) (target : Target) :
    Steady files (do
      let chain ← ExceptT.mk (pure (chain.enter target.identity text))
      let node ← ExceptT.mk (pure target.node)
      go target chain node) :=
  (Steady.lift _).bind fun _ => atTarget_steady h ..

/-- Following a reference is steady if going on is. -/
theorem follow_steady (h : ∀ target chain next, Steady files (go target chain next)) :
    Steady files (follow files schema context chain absent go) := by
  unfold follow
  split
  · exact .pure _
  · exact (Steady.lift _).bind fun text =>
      (Steady.resolveReference ..).bind fun target => enter_steady h chain text target

/-! ## What is returned, and which store is left -/

/-- What following a reference returns is put together from what its steps return on one store. -/
theorem outcome_follow (h : ∀ target chain next, Steady files (go target chain next))
    {reference : Json} (href : schema.lookup "$ref" = some reference) :
    (follow files schema context chain absent go).outcome s = (do
      let text ← referenceText reference
      let target ← (resolveReference files text context).outcome s
      let chain ← chain.enter target.identity text
      let node ← target.node
      (go target chain node).outcome s) := by
  unfold follow
  rw [href]
  dsimp only
  rw [outcome_bind (Steady.lift _) fun _ => (Steady.resolveReference ..).bind fun _ =>
    enter_steady h .., outcome_lift]
  refine congrArg (referenceText reference >>= ·) (funext fun text => ?_)
  rw [outcome_bind (Steady.resolveReference ..) fun _ => enter_steady h ..]
  refine congrArg ((resolveReference files text context).outcome s >>= ·) (funext fun target => ?_)
  rw [outcome_bind (Steady.lift _) fun _ => atTarget_steady h .., outcome_lift]
  refine congrArg (chain.enter target.identity text >>= ·) (funext fun chain' => ?_)
  rw [outcome_bind (Steady.lift _) fun _ => h .., outcome_lift]

/-- Without a reference nothing is done. -/
theorem follow_of_none (href : schema.lookup "$ref" = none) :
    follow files schema context chain absent go = pure absent := by
  unfold follow
  rw [href]

/-- The store that is left where a reference leads somewhere: only resolving it and going on touch
the store, as the text, the chain and the node are just read. -/
theorem ReferenceGraph.FollowsTo.after_follow
    (follows : FollowsTo files s context schema chain text target chain' next)
    (ht : Store.Extends files s t) :
    (follow files schema context chain absent go).after t =
      (go target chain' next).after ((resolveReference files text context).after t) := by
  have htarget : (resolveReference files text context).outcome t = .ok target :=
    ((Steady.resolveReference files text context).stays ht).trans follows.leads.resolved
  unfold follow
  rw [follows.reference]
  dsimp only
  rw [after_bind_ok (outcome_lift (referenceText (.str text))), after_lift,
    after_bind_ok htarget, after_bind_ok ((outcome_lift _).trans follows.entered), after_lift,
    after_bind_ok ((outcome_lift _).trans follows.leads.found), after_lift]

/-- When following a reference succeeds, there is none, or it leads somewhere and going on there has
succeeded. -/
theorem follow_eq_ok {a : α} (h : ∀ target chain next, Steady files (go target chain next))
    (ha : (follow files schema context chain absent go).outcome s = .ok a) :
    (schema.lookup "$ref" = none ∧ a = absent ∧
        ∀ t, (follow files schema context chain absent go).after t = t) ∨
      ∃ text target chain' next,
        ReferenceGraph.FollowsTo files s context schema chain text target chain' next ∧
        (go target chain' next).outcome s = .ok a ∧
        ∀ t, Store.Extends files s t →
          (follow files schema context chain absent go).after t =
            (go target chain' next).after ((resolveReference files text context).after t) := by
  cases href : schema.lookup "$ref" with
  | none =>
    rw [follow_of_none href] at ha ⊢
    cases ha
    exact .inl ⟨rfl, rfl, fun _ => rfl⟩
  | some reference =>
    rw [outcome_follow h href] at ha
    obtain ⟨text, htext, hread⟩ := bind_eq_ok.mp ha
    obtain ⟨target, hresolved, hfollowed⟩ := bind_eq_ok.mp hread
    obtain ⟨chain', hchain, hentered⟩ := bind_eq_ok.mp hfollowed
    obtain ⟨next, hnext, hgone⟩ := bind_eq_ok.mp hentered
    obtain rfl := referenceText_eq_ok.mp htext
    have follows : ReferenceGraph.FollowsTo files s context schema chain text target chain' next :=
      ⟨href, ⟨hresolved, hnext⟩, hchain⟩
    exact .inr ⟨text, target, chain', next, follows, hgone, fun _ => follows.after_follow⟩

end LinkedSchema
