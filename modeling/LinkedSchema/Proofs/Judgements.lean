import LinkedSchema.Proofs.Closure
import LinkedSchema.Proofs.Verdict

/-!
# Judgements on walks

A `Judgement` says something of a computation that loads documents, on a store, and of variants of
this computation. It has to lead to later stores only, to hold of what is known beforehand, and to
pass through sequences. Then it holds of one node of a walk if it holds of the steps to other nodes:
behind the reference, to the subschemas that apply to the same value, and to those that apply to
parts of it (`checkNode_always`, `visitNode_always`). The variants are walks too, which may differ
in their files, settings and chains and in how they go on. So both walks are taken apart here once,
and what is proved of them elsewhere is a judgement and an induction on the levels.

The store on which a step starts is the one that the steps before it have left. As this comes later,
it is enough that the judgement holds `Always`: on every store that comes later than a given one.
Mostly, a later store is one that has grown.
-/

namespace LinkedSchema

open Loading

variable {files : Texts} {Later : Store → Store → Prop} {ι α β : Type} {s t : Store}

/-- Something that is said of a computation on a store, together with variants of it. -/
structure Judgement (Later : Store → Store → Prop) (ι : Type) where
  /-- What is said. -/
  Holds : {α : Type} → Store → Loading α → (ι → Loading α) → Prop
  /-- The failures that may be known beforehand. -/
  Allows : SchemaError → Prop
  /-- Every store counts as later than itself. -/
  refl : ∀ t, Later t t
  /-- What comes later than a later store is later. -/
  trans : ∀ {t u w}, Later t u → Later u w → Later t w
  /-- The computation leaves a later store. -/
  grows : ∀ {α : Type} {t : Store} {x : Loading α} {y : ι → Loading α}, Holds t x y →
    Later t (x.after t)
  /-- It holds of what is known beforehand. -/
  lift : ∀ {α : Type} {t : Store} {r : Except SchemaError α}, (∀ e, r = .error e → Allows e) →
    Holds t (ExceptT.mk (pure r)) fun _ => ExceptT.mk (pure r)
  /-- It passes through sequences. -/
  bind : ∀ {α β : Type} {t : Store} {x : Loading α} {y : ι → Loading α} {f : α → Loading β}
    {g : ι → α → Loading β}, Holds t x y →
    (∀ a, x.outcome t = .ok a → Holds (x.after t) (f a) fun i => g i a) →
    Holds t (x >>= f) fun i => y i >>= g i

namespace Judgement

variable {J : Judgement Later ι} {x : Loading α} {y : ι → Loading α} {f : α → Loading β}
  {g : ι → α → Loading β}

/-- A judgement holds on every store that comes later than a given one. -/
def Always (J : Judgement Later ι) (s : Store) (x : Loading α) (y : ι → Loading α) : Prop :=
  ∀ ⦃t⦄, Later s t → J.Holds t x y

/-- What always holds holds always on a later store. -/
theorem Always.mono (h : J.Always s x y) (ht : Later s t) : J.Always t x y :=
  fun _ ht' => h (J.trans ht ht')

/-- A result that does not depend on the store is always judged so, if its failures are among those
that may be known beforehand. -/
theorem Always.lift {r : Except SchemaError α} (h : ∀ e, r = .error e → J.Allows e) :
    J.Always s (ExceptT.mk (Pure.pure r)) fun _ => ExceptT.mk (Pure.pure r) :=
  fun _ _ => J.lift h

/-- A value that needs no computation is always judged so. -/
theorem Always.pure (a : α) : J.Always s (Pure.pure a) fun _ => Pure.pure a :=
  Always.lift fun _ h => nomatch h

/-- The second part of a sequence starts on a later store. -/
theorem Always.bind (h : J.Always s x y)
    (h' : ∀ a t, Later s t → x.outcome t = .ok a →
      J.Always (x.after t) (f a) fun i => g i a) :
    J.Always s (x >>= f) fun i => y i >>= g i :=
  fun t ht => J.bind (h ht) fun a ha => h' a t ht ha (J.refl _)

/-- It is enough that the second part can be judged whatever the first part returns. -/
theorem Always.seq (h : J.Always s x y) (h' : ∀ a, J.Always s (f a) fun i => g i a) :
    J.Always s (x >>= f) fun i => y i >>= g i :=
  h.bind fun a _ ht _ => (h' a).mono (J.trans ht (J.grows (h ht)))

/-- The judgement that a computation fails only in some ways; nothing is said of variants. -/
def failsOnly (files : Texts) (P : SchemaError → Prop) :
    Judgement (Store.Extends files) Empty where
  Holds t x _ := Store.Extends files t (x.after t) ∧ ∀ e, x.outcome t = .error e → P e
  Allows := P
  refl := Store.Extends.refl files
  trans := Store.Extends.trans
  grows h := h.1
  lift h := ⟨Store.Extends.refl files _, h⟩
  bind {_ _ t x _ f _} h h' := by
    cases hx : x.outcome t with
    | error e =>
      rw [after_bind_error hx, outcome_bind_error hx]
      refine ⟨h.1, fun e' he => ?_⟩
      rw [← Except.error.inj he]
      exact h.2 e hx
    | ok a =>
      obtain ⟨hgrows, hfails⟩ := h' a hx
      rw [after_bind_ok hx, outcome_bind_ok hx]
      exact ⟨h.1.trans hgrows, hfails⟩

/-- A steady computation fails only in the ways in which it fails on the first store. -/
theorem Always.of_steady {P : SchemaError → Prop} {y : Empty → Loading α} (hx : Steady files x)
    (h : ∀ e, x.outcome s = .error e → P e) : (failsOnly files P).Always s x y := by
  intro t ht
  refine ⟨hx.grows t, fun e he => h e ?_⟩
  rw [← hx.stays ht]
  exact he

end Judgement

/-! ## References -/

section Follow

variable {schema : Members} {context : Context} {chain : Chain}

/-- A judgement of the steps behind a reference holds of following it. -/
theorem Judgement.Always.follow {J : Judgement (Store.Extends files) ι} {absent : α}
    {go : Target → Chain → Json → Loading α} {go' : ι → Target → Chain → Json → Loading α}
    (hlookup : ∀ e : SchemaError, e.IsLookup → J.Allows e)
    (hresolve : ∀ text, schema.lookup "$ref" = some (.str text) →
      J.Always s (resolveReference files text context) fun _ => resolveReference files text context)
    (henter : ∀ text target e, schema.lookup "$ref" = some (.str text) →
      (resolveReference files text context).outcome s = .ok target →
      chain.enter target.identity text = .error e → J.Allows e)
    (hgo : ∀ text target chain' next t,
      ReferenceGraph.FollowsTo files s context schema chain text target chain' next →
      Store.Extends files s t →
      J.Always ((resolveReference files text context).after t) (go target chain' next) fun i =>
        go' i target chain' next) :
    J.Always s (follow files schema context chain absent go) fun i =>
      follow files schema context chain absent (go' i) := by
  unfold LinkedSchema.follow
  cases href : schema.lookup "$ref" with
  | none => exact .pure absent
  | some reference =>
    -- Only resolving touches the store; what it returns it returns on the store of the start.
    refine (Always.lift fun e he => hlookup e (referenceText_isLookup he)).bind
      fun text t ht htext => ?_
    rw [outcome_lift] at htext
    obtain rfl := referenceText_eq_ok.mp htext
    rw [after_lift]
    refine ((hresolve text href).mono ht).bind fun target t' ht' htarget => ?_
    have hresolved : (resolveReference files text context).outcome s = .ok target :=
      ((Steady.resolveReference files text context).stays (ht.trans ht')).symm.trans htarget
    refine (Always.lift fun e he => henter text target e href hresolved he).bind
      fun chain' u hu hchain => ?_
    rw [outcome_lift] at hchain
    rw [after_lift]
    refine (Always.lift fun e he => hlookup e (find_isLookup he)).bind fun next w hw hnext => ?_
    rw [outcome_lift] at hnext
    rw [after_lift]
    exact (hgo text target chain' next t' ⟨href, ⟨hresolved, hnext⟩, hchain⟩ (ht.trans ht')).mono
      (hu.trans hw)

end Follow

/-! ## The structural walk -/

namespace Structural

variable {J : Judgement Later ι} {files' : ι → Texts} {settings : Settings}
  {settings' : ι → Settings} {visit : Visit} {visit' : ι → Visit} {v : Json} {schema : Members}
  {context : Context} {place : Locator} {chain : Chain} {chain' : ι → Chain}

/-- A judgement of the checks of alternatives holds of the search for one that matches. -/
theorem failures_always {check : Json → Loading Report} {check' : ι → Json → Loading Report} :
    ∀ {alternatives : List Json},
      (∀ a ∈ alternatives, J.Always s (check a) fun i => check' i a) →
      J.Always s (failures check alternatives) fun i => failures (check' i) alternatives
  | [], _ => .pure _
  | a :: rest, h => by
    have hrest : J.Always s (failures check rest) fun i => failures (check' i) rest :=
      failures_always fun b hb => h b (List.mem_cons_of_mem _ hb)
    refine (h a List.mem_cons_self).seq fun report => ?_
    by_cases hempty : report.isEmpty
    · simp only [hempty, if_true]
      exact .pure _
    · simp only [hempty, if_false, Bool.false_eq_true]
      exact hrest.seq fun _ => .pure _

/-- A judgement of the checks of items holds of all of them. -/
theorem eachItem_always {check : Nat → Json → Loading Report}
    {check' : ι → Nat → Json → Loading Report} :
    ∀ i {items : List Json}, (∀ j, ∀ w ∈ items, J.Always s (check j w) fun k => check' k j w) →
      J.Always s (eachItem check i items) fun k => eachItem (check' k) i items
  | _, [], _ => .pure _
  | i, w :: _, h =>
    (h i w List.mem_cons_self).seq fun _ =>
      (eachItem_always (i + 1) fun j u hu => h j u (List.mem_cons_of_mem _ hu)).seq fun _ => .pure _

/-- A judgement of the checks of members holds of all of them. -/
theorem eachMember_always {check : String → Json → Loading Report}
    {check' : ι → String → Json → Loading Report} {members : Members}
    (h : ∀ p ∈ members, J.Always s (check p.1 p.2) fun k => check' k p.1 p.2) :
    J.Always s (eachMember check members) fun k => eachMember (check' k) members := by
  induction members with
  | nil => exact .pure _
  | cons p rest ih =>
    have hrest := ih fun q hq => h q (List.mem_cons_of_mem _ hq)
    exact (h p List.mem_cons_self).seq fun _ => hrest.seq fun _ => .pure _

/-- A schema stands under `anyOf`. -/
def Alternative (schema : Members) (a : Json) : Prop :=
  ∃ alternatives, schema.lookup "anyOf" = some (.arr alternatives) ∧ a ∈ alternatives

/-- Alternatives apply to the same value. -/
theorem Alternative.inPlace {a : Json} (h : Alternative schema a) :
    ReferenceGraph.InPlace schema a := by
  obtain ⟨alternatives, hlookup, hmem⟩ := h
  exact .under (by simp) (.item hlookup hmem)

/-- How a walk goes on at an item or a member of the instance, with a schema for parts. -/
def JudgesParts (J : Judgement Later ι) (s : Store) (v : Json) (schema : Members)
    (context : Context) (chain : Chain) (chain' : ι → Chain) (visit : Visit) (visit' : ι → Visit) :
    Prop :=
  ∀ w node place, w.height < v.height → ReferenceGraph.Part schema node →
    J.Always s (visit w node context place chain.fresh) fun i =>
      visit' i w node context place (chain' i).fresh

/-- A judgement of the steps into the instance holds of the keywords for values of a kind. -/
theorem checkByKind_always
    (hpattern : ∀ pattern place, J.Allows (.invalidPattern pattern place))
    (hpart : JudgesParts J s v schema context chain chain' visit visit') :
    J.Always s (checkByKind visit v schema context place chain) fun i =>
      checkByKind (visit' i) v schema context place (chain' i) := by
  cases v with
  | str text =>
    refine Judgement.Always.lift fun e he => ?_
    obtain ⟨pattern, rfl⟩ := checkString_eq_error he
    exact hpattern pattern place
  | arr items =>
    unfold checkByKind checkArray
    cases hitems : schema.lookup "items" with
    | none => exact .pure _
    | some itemSchema =>
      cases itemSchema with
      | obj members =>
        have heach : ∀ j, ∀ w ∈ items,
            J.Always s (visit w (.obj members) context (place.index j) chain.fresh) fun i =>
              visit' i w (.obj members) context (place.index j) (chain' i).fresh := fun j w hw =>
          hpart w _ _ (Json.height_lt_of_mem_items hw) (.under (by simp) (.value hitems (by simp)))
        exact (eachItem_always 0 heach).seq fun _ => .pure _
      | _ => exact .pure _
  | obj members =>
    have heach : ∀ p ∈ members,
        J.Always s (checkMember visit schema context place chain p.1 p.2) fun i =>
          checkMember (visit' i) schema context place (chain' i) p.1 p.2 := by
      intro p hp
      unfold checkMember
      cases hdeclared : (declared schema).lookup p.1 with
      | none => exact .pure _
      | some memberSchema =>
        obtain ⟨ds, hds, hlookup⟩ := lookup_declared hdeclared
        exact hpart p.2 memberSchema _ (Json.height_lt_of_mem_members hp)
          (.member (by simp) (.member hds (Json.mem_of_lookup hlookup)))
    exact (eachMember_always heach).seq fun _ => .pure _
  | _ => exact .pure _

/-- A judgement of the steps to other nodes holds of a whole node. -/
theorem checkNode_always (visit' : ι → Visit)
    (hverbose : ∀ i, (settings' i).verboseAnyOf = settings.verboseAnyOf)
    (hpattern : ∀ pattern place, J.Allows (.invalidPattern pattern place))
    (hreference : J.Always s (checkReference files visit v schema context place chain) fun i =>
      checkReference (files' i) (visit' i) v schema context place (chain' i))
    (halternative : ∀ a, Alternative schema a →
      J.Always s (visit v a context place chain) fun i => visit' i v a context place (chain' i))
    (hpart : JudgesParts J s v schema context chain chain' visit visit') :
    J.Always s (checkNode files settings visit v schema context place chain) fun i =>
      checkNode (files' i) (settings' i) (visit' i) v schema context place (chain' i) := by
  have hanyOf : J.Always s (checkAnyOf settings visit v schema context place chain) fun i =>
      checkAnyOf (settings' i) (visit' i) v schema context place (chain' i) := by
    unfold checkAnyOf
    simp only [hverbose]
    cases ha : schema.lookup "anyOf" with
    | none => exact .pure _
    | some alternatives =>
      cases alternatives with
      | arr alternatives =>
        exact (failures_always fun a hmem => halternative a ⟨alternatives, ha, hmem⟩).seq
          fun _ => .pure _
      | _ => exact .pure _
  refine hreference.seq fun behind => hanyOf.seq fun alternatives => ?_
  cases (schema.lookup "type").bind (typeMismatch? v) with
  | some message => exact .pure _
  | none => exact (checkByKind_always hpattern hpart).seq fun _ => .pure _

end Structural

/-! ## The walk through the reference graph -/

namespace ReferenceGraph

variable {J : Judgement Later ι} {files' : ι → Texts} {visit : Visit} {visit' : ι → Visit}
  {node : Json} {schema : Members} {context : Context} {pointer : String} {chain : Chain}
  {chain' : ι → Chain} {limit : Nat} {limit' : ι → Nat}

/-- A judgement of the visits of subschemas holds of all of them. -/
theorem each_always {visit : String → Json → Expanded → Loading Expanded}
    {visit' : ι → String → Json → Expanded → Loading Expanded} :
    ∀ {subschemas : List (String × Json)},
      (∀ q v, (q, v) ∈ subschemas → ∀ expanded,
        J.Always s (visit q v expanded) fun i => visit' i q v expanded) →
      ∀ expanded, J.Always s (each visit subschemas expanded) fun i =>
        each (visit' i) subschemas expanded
  | [], _, _ => .pure _
  | (q, v) :: _, h, expanded =>
    (h q v List.mem_cons_self expanded).seq fun expanded' =>
      each_always (fun q' v' hmem => h q' v' (List.mem_cons_of_mem _ hmem)) expanded'

/-- A judgement of the visit of a location holds of expanding it. -/
theorem expand_always (h : ∀ expanded, J.Always s
      (visit node context pointer (.start limit) expanded) fun i =>
        visit' i node context pointer (.start (limit' i)) expanded) (expanded : Expanded) :
    J.Always s (expand visit node context pointer limit expanded) fun i =>
      expand (visit' i) node context pointer (limit' i) expanded := by
  unfold expand
  by_cases hmem : Identity.of context.root.location pointer ∈ expanded
  · simp only [hmem, if_true]
    exact .pure _
  · simp only [hmem, if_false]
    exact h _

/-- A judgement of the visit of the root of a document holds of all that the check does with it. -/
theorem expandRoot_always {schema : Document} (limit : Nat) {limit' : ι → Nat}
    (h : ∀ expanded, J.Always s
      (visit schema.root (.ofDocument schema) "" (.start limit) expanded) fun i =>
        visit' i schema.root (.ofDocument schema) "" (.start (limit' i)) expanded) :
    J.Always s (do
        let _ ← expand visit schema.root (.ofDocument schema) "" limit []
        pure ())
      fun i => (do
        let _ ← expand (visit' i) schema.root (.ofDocument schema) "" (limit' i) []
        pure ()) :=
  (expand_always h []).seq fun _ => .pure ()

/-- A judgement of the steps to other nodes holds of a whole node. -/
theorem visitNode_always (visit' : ι → Visit)
    (hreference : ∀ expanded, J.Always s
      (followReference files visit schema context chain expanded) fun i =>
        followReference (files' i) (visit' i) schema context (chain' i) expanded)
    (hinPlace : ∀ q v expanded, InPlace schema v → J.Always s (visit v context q chain expanded)
      fun i => visit' i v context q (chain' i) expanded)
    (hpart : ∀ q v expanded, Part schema v → J.Always s (visit v context q chain.fresh expanded)
      fun i => visit' i v context q (chain' i).fresh expanded) (expanded : Expanded) :
    J.Always s (visitNode files visit schema context pointer chain expanded) fun i =>
      visitNode (files' i) (visit' i) schema context pointer (chain' i) expanded := by
  have hall : ∀ expanded, J.Always s
      (each (fun q v => visit v context q chain) (inPlace schema pointer) expanded) fun i =>
        each (fun q v => visit' i v context q (chain' i)) (inPlace schema pointer) expanded :=
    each_always fun q v hmem expanded =>
      hinPlace q v expanded ((inPlace_iff pointer).mpr ⟨q, hmem⟩)
  have hexpand : ∀ expanded, J.Always s
      (each (fun q v => expand visit v context q chain.limit) (parts schema pointer) expanded)
      fun i => each (fun q v => expand (visit' i) v context q (chain' i).limit)
        (parts schema pointer) expanded :=
    each_always fun q v hmem => expand_always fun expanded =>
      hpart q v expanded ((part_iff pointer).mpr ⟨q, hmem⟩)
  exact (hreference expanded).seq fun first => (hall first).seq fun second => hexpand second

end ReferenceGraph

end LinkedSchema
