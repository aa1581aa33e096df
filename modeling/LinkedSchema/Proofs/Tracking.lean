import LinkedSchema.Proofs.Judgements

/-!
# Walks side by side

Two computations that load documents can be run side by side, on stores that are related in some
way. One `Tracks` the other when both have the same outcome and leave related stores again, unless
the first one fails with an error of a kind that is spared. This is a judgement on the first one,
with the other one as its only variant (`tracking`), so it holds of the walks if it holds of their
steps. Whatever two walks differ in, be it their files, stores, levels or chains, it is enough to
compare how they load a document and how their chains are entered (`Structural.walk_tracks`,
`ReferenceGraph.walk_tracks`).
-/

namespace LinkedSchema

open Loading

variable {α β : Type} {files files' : Texts} {R : Store → Store → Prop}
  {spared : SchemaError → Prop}

/-- From related stores, a computation fails with a spared error, or another one has the same
outcome and both leave related stores. -/
def Loading.Tracks (R : Store → Store → Prop) (spared : SchemaError → Prop) (x y : Loading α) :
    Prop :=
  ∀ ⦃s t⦄, R s t → (∃ e, spared e ∧ x.outcome s = .error e) ∨
    (y.outcome t = x.outcome s ∧ R (x.after s) (y.after t))

/-- A computation can return a value on a store that is related to another one. -/
def Loading.Returns (R : Store → Store → Prop) (x : Loading α) (a : α) : Prop :=
  ∃ s t, R s t ∧ x.outcome s = .ok a

namespace Loading

/-- The judgement that a computation is tracked by its variant, on whatever store. -/
def tracking (R : Store → Store → Prop) (spared : SchemaError → Prop) :
    Judgement (fun _ _ => True) Unit where
  Holds s x y := ∀ ⦃t⦄, R s t → (∃ e, spared e ∧ x.outcome s = .error e) ∨
    ((y ()).outcome t = x.outcome s ∧ R (x.after s) ((y ()).after t))
  Allows _ := True
  refl _ := trivial
  trans _ _ := trivial
  grows _ := trivial
  lift _ _ h := .inr ⟨rfl, h⟩
  bind {_ _ s x y f g} h h' t hst := by
    rcases h hst with ⟨e, he, hfails⟩ | ⟨hsame, hafter⟩
    · exact .inl ⟨e, he, outcome_bind_error hfails⟩
    -- Both first parts had the same outcome, so either both sequences end or both go on.
    cases hx : x.outcome s with
    | error e =>
      have hy : (y ()).outcome t = .error e := hsame.trans hx
      rw [outcome_bind_error hx, outcome_bind_error hy, after_bind_error hx, after_bind_error hy]
      exact .inr ⟨rfl, hafter⟩
    | ok a =>
      have hy : (y ()).outcome t = .ok a := hsame.trans hx
      rw [outcome_bind_ok hx, outcome_bind_ok hy, after_bind_ok hx, after_bind_ok hy]
      exact h' a hx hafter

/-- What tracks is judged so on every store. -/
theorem Tracks.always {x y : Loading α} (h : Tracks R spared x y) (s : Store) :
    (tracking R spared).Always s x fun _ => y :=
  fun _ _ _ hst => h hst

/-- What is judged so on every store tracks. -/
theorem Tracks.of_always {x y : Loading α}
    (h : ∀ s, (tracking R spared).Always s x fun _ => y) : Tracks R spared x y :=
  fun s _ hst => h s trivial hst

/-- A value that needs no computation tracks itself. -/
theorem Tracks.pure (a : α) : Tracks R spared (Pure.pure a) (Pure.pure a) :=
  fun _ _ h => .inr ⟨rfl, h⟩

/-- A failure tracks itself. -/
theorem Tracks.throw (e : SchemaError) :
    Tracks R spared (MonadExcept.throw e : Loading α) (MonadExcept.throw e) :=
  fun _ _ h => .inr ⟨rfl, h⟩

/-- A result that does not depend on the store tracks itself. -/
theorem Tracks.lift (r : Except SchemaError α) :
    Tracks R spared (ExceptT.mk (Pure.pure r)) (ExceptT.mk (Pure.pure r)) :=
  fun _ _ h => .inr ⟨rfl, h⟩

/-- What always fails with a spared error tracks everything. -/
theorem Tracks.of_fails {x y : Loading α}
    (h : ∀ s t, R s t → ∃ e, spared e ∧ x.outcome s = .error e) : Tracks R spared x y :=
  fun s t hst => .inl (h s t hst)

/-- On the same store, a computation tracks itself. -/
theorem Tracks.refl (x : Loading α) : Tracks Eq spared x x := by
  rintro s t rfl
  exact .inr ⟨rfl, rfl⟩

/-- More errors may be spared. -/
theorem Tracks.spare {spared' : SchemaError → Prop} {x y : Loading α} (h : Tracks R spared x y)
    (hle : ∀ e, spared e → spared' e) : Tracks R spared' x y :=
  fun _ _ hst => (h hst).imp_left fun ⟨e, he, hfails⟩ => ⟨e, hle e he, hfails⟩

/-- Where no error is spared, tracking goes both ways. -/
theorem Tracks.symm {x y : Loading α} (h : Tracks R (fun _ => False) x y) :
    Tracks (fun t s => R s t) (fun _ => False) y x := by
  intro t s hst
  rcases h hst with ⟨e, he, -⟩ | ⟨hsame, hafter⟩
  · exact he.elim
  · exact .inr ⟨hsame.symm, hafter⟩

/-- A sequence tracks another one when its parts do. -/
theorem Tracks.bind {x y : Loading α} {f g : α → Loading β} (h : Tracks R spared x y)
    (h' : ∀ a, Returns R x a → Tracks R spared (f a) (g a)) :
    Tracks R spared (x >>= f) (y >>= g) := by
  intro s t hst
  have hsecond : ∀ a, x.outcome s = .ok a →
      (tracking R spared).Holds (x.after s) (f a) fun _ => g a :=
    fun a ha => (h' a ⟨s, t, hst, ha⟩).always s trivial
  exact (tracking R spared).bind (h.always s trivial) hsecond hst

end Loading

/-- Loading a document on one side tracks loading it on the other. -/
def LoadsAlike (R : Store → Store → Prop) (spared : SchemaError → Prop) (files files' : Texts) :
    Prop :=
  ∀ l r, Tracks R spared (loadDocument files l r) (loadDocument files' l r)

/-- Following a reference tracks following it where documents are loaded alike. -/
theorem resolveReference_tracks (h : LoadsAlike R spared files files') (reference : String)
    (context : Context) :
    Tracks R spared (resolveReference files reference context)
      (resolveReference files' reference context) := by
  unfold resolveReference
  dsimp only
  split
  · exact (Tracks.lift _).bind fun _ _ => .pure _
  · split
    · exact .throw _
    · exact (h _ _).bind fun _ _ => (Tracks.lift _).bind fun _ _ => .pure _

/-- A relation between chains is kept by all that happens to them, apart from spared errors. -/
structure ChainsAlike (spared : SchemaError → Prop) (C : Chain → Chain → Prop) : Prop where
  /-- Chains start alike. -/
  fresh : ∀ {chain chain'}, C chain chain' → C chain.fresh chain'.fresh
  /-- Chains are entered alike. -/
  enter : ∀ {chain chain'} (i : Identity) (text : String), C chain chain' →
    (∃ e, spared e ∧ chain.enter i text = .error e) ∨
      (∃ e, chain.enter i text = .error e ∧ chain'.enter i text = .error e) ∨
      ∃ next next', chain.enter i text = .ok next ∧ chain'.enter i text = .ok next' ∧ C next next'

/-- Chains that are the same stay the same. -/
theorem chainsAlike_eq : ChainsAlike spared Eq where
  fresh h := congrArg Chain.fresh h
  enter {chain chain'} i text h := by
    subst h
    cases chain.enter i text with
    | error e => exact .inr (.inl ⟨e, rfl, rfl⟩)
    | ok next => exact .inr (.inr ⟨next, next, rfl, rfl, rfl⟩)

/-- Going on with a chain that has been entered tracks when it does from every pair of chains. -/
theorem ChainsAlike.enter_tracks {C : Chain → Chain → Prop} {chain chain' : Chain}
    {go go' : Chain → Loading α} (hchains : ChainsAlike spared C) (hc : C chain chain')
    (i : Identity) (text : String)
    (h : ∀ {next next'}, C next next' → Tracks R spared (go next) (go' next')) :
    Tracks R spared (do let next ← ExceptT.mk (pure (chain.enter i text)); go next)
      (do let next ← ExceptT.mk (pure (chain'.enter i text)); go' next) := by
  rcases hchains.enter i text hc with
    ⟨e, he, hfails⟩ | ⟨e, hfails, hfails'⟩ | ⟨next, next', hnext, hnext', hc'⟩
  · rw [hfails]
    exact .of_fails fun s t _ => ⟨e, he, outcome_bind_error (outcome_lift _)⟩
  · rw [hfails, hfails']
    exact .throw e
  · rw [hnext, hnext']
    exact h hc'

/-! ## The structural walk -/

namespace Structural

variable {settings settings' : Settings} {visit visit' : Visit} {v : Json} {schema : Members}
  {context : Context} {place : Locator} {chain chain' : Chain}

/-- How the walk goes on at the target of a reference. -/
def visitTarget (visit : Visit) (v : Json) (place : Locator) (chain : Chain) (text : String)
    (target : Target) : Loading Report := do
  let chain ← ExceptT.mk (pure (chain.enter target.identity text))
  let node ← ExceptT.mk (pure target.node)
  visit v node target.context place chain

/-- Where the chain is entered, the node is looked up and visited. -/
theorem visitTarget_of_ok {text : String} {target : Target} {next : Chain}
    (h : chain.enter target.identity text = .ok next) :
    visitTarget visit v place chain text target = (do
      let node ← ExceptT.mk (pure target.node)
      visit v node target.context place next) := by
  unfold visitTarget
  rw [h]
  exact pure_bind next _

/-- Where the chain cannot be entered, this is the failure. -/
theorem visitTarget_of_error {text : String} {target : Target} {e : SchemaError}
    (h : chain.enter target.identity text = .error e) :
    visitTarget visit v place chain text target = throw e := by
  unfold visitTarget
  rw [h]
  rfl

/-- The walks go on alike at the targets of references in a context. -/
def TargetsTrack (R : Store → Store → Prop) (spared : SchemaError → Prop) (files : Texts)
    (v : Json) (context : Context) (place : Locator) (visit visit' : Visit) (chain chain' : Chain) :
    Prop :=
  ∀ text target, Returns R (resolveReference files text context) target →
    Tracks R spared (visitTarget visit v place chain text target)
      (visitTarget visit' v place chain' text target)

/-- Going on behind a reference tracks when the walks go on alike at its target. -/
theorem checkReference_tracks (hload : LoadsAlike R spared files files')
    (h : TargetsTrack R spared files v context place visit visit' chain chain') :
    Tracks R spared (checkReference files visit v schema context place chain)
      (checkReference files' visit' v schema context place chain') := by
  unfold checkReference
  split
  · exact .pure _
  · exact (Tracks.lift _).bind fun text _ =>
      (resolveReference_tracks hload text context).bind fun target ht => h text target ht

/-- The walks go on alike at the items and members of the instance, in a context. -/
def PartsTrack (R : Store → Store → Prop) (spared : SchemaError → Prop) (context : Context)
    (visit visit' : Visit) (chain chain' : Chain) : Prop :=
  ∀ w node place, Tracks R spared (visit w node context place chain.fresh)
    (visit' w node context place chain'.fresh)

/-- One node tracks when the walks go on alike behind its reference, at its alternatives and inside
the instance. -/
theorem checkNode_tracks (hload : LoadsAlike R spared files files')
    (hverbose : settings'.verboseAnyOf = settings.verboseAnyOf)
    (htarget : TargetsTrack R spared files v context place visit visit' chain chain')
    (halternative : ∀ node, Tracks R spared (visit v node context place chain)
      (visit' v node context place chain'))
    (hpart : PartsTrack R spared context visit visit' chain chain') :
    Tracks R spared (checkNode files settings visit v schema context place chain)
      (checkNode files' settings' visit' v schema context place chain') := by
  refine .of_always fun s => checkNode_always (fun _ => visit') (fun _ => hverbose)
    (fun _ _ => trivial) ?_ ?_ ?_
  · exact (checkReference_tracks hload htarget).always s
  · exact fun a _ => (halternative a).always s
  · exact fun w node place _ _ => (hpart w node place).always s

/-- How two walks go on, with chains in some relation. -/
def VisitTracks (R : Store → Store → Prop) (spared : SchemaError → Prop)
    (C : Chain → Chain → Prop) (visit visit' : Visit) : Prop :=
  ∀ ⦃v node context place chain chain'⦄, C chain chain' →
    Tracks R spared (visit v node context place chain) (visit' v node context place chain')

/-- The walks go on alike at targets when their chains are entered alike. -/
theorem VisitTracks.targets {C : Chain → Chain → Prop} (hchains : ChainsAlike spared C)
    (h : VisitTracks R spared C visit visit') (hc : C chain chain') :
    TargetsTrack R spared files v context place visit visit' chain chain' :=
  fun text target _ => hchains.enter_tracks hc target.identity text fun hc' =>
    (Tracks.lift target.node).bind fun _ _ => h hc'

/-- A walk tracks one with at least as many levels, when it is spared running out of them; it tracks
one with the same levels and the same ceiling in any case. -/
theorem walk_tracks {C : Chain → Chain → Prop} (hload : LoadsAlike R spared files files')
    (hverbose : settings'.verboseAnyOf = settings.verboseAnyOf) (hchains : ChainsAlike spared C) :
    ∀ {levels levels'}, levels ≤ levels' →
      ((∀ place, spared (.depthExceeded settings.maxDepth place)) ∨
        levels' = levels ∧ settings'.maxDepth = settings.maxDepth) →
      VisitTracks R spared C (walk files settings levels) (walk files' settings' levels')
  | 0, levels', _, hdepth => fun v node context place chain chain' _ => by
    rcases hdepth with hspared | ⟨rfl, hmax⟩
    · exact .of_fails fun _ _ _ => ⟨_, hspared place, rfl⟩
    · unfold walk
      rw [hmax]
      exact .throw _
  | levels + 1, 0, h, _ => absurd h (Nat.not_succ_le_zero _)
  | levels + 1, levels' + 1, h, hdepth => fun v node context place chain chain' hc => by
    -- Both walks have used up one level.
    have ih : VisitTracks R spared C (walk files settings levels) (walk files' settings' levels') :=
      walk_tracks hload hverbose hchains (Nat.le_of_succ_le_succ h)
        (hdepth.imp_right fun hsame => ⟨Nat.succ.inj hsame.1, hsame.2⟩)
    unfold walk
    cases node with
    | obj schema =>
      exact checkNode_tracks hload hverbose (ih.targets hchains hc) (fun node => ih hc)
        fun w node place => ih (hchains.fresh hc)
    | _ => exact .pure _

end Structural

/-! ## The walk through the reference graph -/

namespace ReferenceGraph

variable {schema : Members} {context : Context} {chain chain' : Chain} {expanded : Expanded}
  {visit visit' : Visit} {C : Chain → Chain → Prop}

/-- How two walks go on, with chains in some relation. -/
def VisitTracks (R : Store → Store → Prop) (spared : SchemaError → Prop)
    (C : Chain → Chain → Prop) (visit visit' : Visit) : Prop :=
  ∀ ⦃node context pointer chain chain' expanded⦄, C chain chain' →
    Tracks R spared (visit node context pointer chain expanded)
      (visit' node context pointer chain' expanded)

/-- Following a reference tracks when the walks go on alike. -/
theorem followReference_tracks (hload : LoadsAlike R spared files files')
    (hchains : ChainsAlike spared C) (h : VisitTracks R spared C visit visit')
    (hc : C chain chain') :
    Tracks R spared (followReference files visit schema context chain expanded)
      (followReference files' visit' schema context chain' expanded) := by
  unfold followReference
  split
  · exact .pure _
  · exact (Tracks.lift _).bind fun text _ =>
      (resolveReference_tracks hload text context).bind fun target _ =>
        hchains.enter_tracks hc target.identity text fun hc' =>
          (Tracks.lift target.node).bind fun _ _ => h hc'

/-- A walk tracks one with at least as many levels, when it is spared running out of them. -/
theorem walk_tracks (hload : LoadsAlike R spared files files') (hchains : ChainsAlike spared C)
    (hdepth : ∀ n place, spared (.depthExceeded n place)) :
    ∀ {levels levels'}, levels ≤ levels' →
      VisitTracks R spared C (walk files levels) (walk files' levels')
  | 0, _, _ => fun _ _ _ _ _ _ _ => .of_fails fun _ _ _ => ⟨_, hdepth _ _, rfl⟩
  | levels + 1, 0, h => absurd h (Nat.not_succ_le_zero _)
  | levels + 1, levels' + 1, h => fun node context pointer chain chain' expanded hc => by
    have ih : VisitTracks R spared C (walk files levels) (walk files' levels') :=
      walk_tracks hload hchains hdepth (Nat.le_of_succ_le_succ h)
    unfold walk
    cases node with
    | obj schema =>
      refine .of_always fun s => visitNode_always (fun _ => walk files' levels') ?_ ?_ ?_ expanded
      · exact fun expanded => (followReference_tracks hload hchains ih hc).always s
      · exact fun q v expanded _ => (ih hc).always s
      · exact fun q v expanded _ => (ih (hchains.fresh hc)).always s
    | _ => exact .pure _

/-- The check tracks one with at least as many levels, when it is spared running out of them and the
chains start alike. -/
theorem check_tracks_of_le {limit limit' : Nat} (hload : LoadsAlike R spared files files')
    (hchains : ChainsAlike spared C) (hstart : C (.start limit) (.start limit'))
    (hdepth : ∀ n place, spared (.depthExceeded n place)) {start : Document} {s t : Store}
    (hR : R s t) (hle : levels (weight files s + start.root.size) limit ≤
      levels (weight files' t + start.root.size) limit') :
    (∃ e, spared e ∧ (check files start limit).outcome s = .error e) ∨
      ((check files' start limit').outcome t = (check files start limit).outcome s ∧
        R ((check files start limit).after s) ((check files' start limit').after t)) := by
  have hwalk : VisitTracks R spared C
      (walk files (levels (weight files s + start.root.size) limit))
      (walk files' (levels (weight files' t + start.root.size) limit')) :=
    walk_tracks hload hchains hdepth hle
  have hexpand : Tracks R spared
      (expand (walk files _) start.root (.ofDocument start) "" limit [] >>= fun _ => pure ())
      (expand (walk files' _) start.root (.ofDocument start) "" limit' [] >>= fun _ => pure ()) :=
    .of_always fun s => expandRoot_always limit fun _ => (hwalk hstart).always s
  unfold outcome after
  rw [check_runOn, check_runOn]
  exact hexpand hR

end ReferenceGraph

end LinkedSchema
