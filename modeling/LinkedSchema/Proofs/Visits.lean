import LinkedSchema.Proofs.Judgements
import Mathlib.Tactic.Common

/-!
# Where references are read

A `Moment` is a node that a walk visits, with its context and the store of that time. Which moments
a walk visits is told by planting a failure: the walk that would fail at a moment, and does
everything else as ever, fails in this way exactly when it comes to this moment (`failAt`, `Comes`).
A failure that is planted elsewhere changes nothing.

Every moment is `AtHome`: the node lies in the document of its context, this document is the one
that the store holds at its location, and references are read from the directory of this document.
So a walk loads only what its moments ask for: the locations that the file parts of their references
name from there (`visits_atHome`).

What is said of a computation is that it is `Watched`. This passes through sequences, since what a
sequence comes to it comes to in one of its parts (`comes_bind_iff`). Resolving a reference loads
what the node asks for before any moment that could be named for it, so a node hands its request on
to the moment at which it is visited itself (`Watched.always_failAt`).
-/

namespace LinkedSchema

open Loading

variable {files : Texts} {α β : Type} {s t : Store} {start : Document} {context : Context}
  {node : Json} {schema : Members} {chain : Chain} {l : Location}

/-! ## Moments -/

/-- A node that is visited, in its context, and the store at this time. -/
structure Moment where
  /-- The node. -/
  node : Json
  /-- Its context. -/
  context : Context
  /-- The store. -/
  store : Store

/-- The reference of a node names a location, when its file part is read from a directory. -/
def AsksFor (directory : Location) (node : Json) (l : Location) : Prop :=
  ∃ schema reference, node = .obj schema ∧ schema.lookup "$ref" = some (.str reference) ∧
    reference.toList.head? ≠ some '#' ∧ filePart reference ≠ "" ∧
    l = directory.resolve (filePart reference)

/-- A node is visited where it belongs. -/
structure Moment.AtHome (files : Texts) (s : Store) (start : Document) (m : Moment) : Prop where
  /-- The node lies in the document of the context. -/
  inside : m.context.root.root.Inside m.node
  /-- This is the document that the store holds at its location. -/
  held : m.store.find? m.context.root.location = some m.context.root
  /-- The directory is the one of the document. -/
  directory : m.context.baseDirectory = m.context.root.location.parent
  /-- The document is the one at the start, or references lead to it. -/
  referred : ReferredTo files s start m.context.root

/-- The reference of the node names a location from the directory of its document. -/
def Moment.AsksFor (m : Moment) (l : Location) : Prop :=
  LinkedSchema.AsksFor m.context.root.location.parent m.node l

open Classical in
/-- A computation that fails if it starts at a given moment, and else does what another one does. -/
noncomputable def failAt (m : Moment) (e : SchemaError) (node : Json) (context : Context)
    (x : Loading α) : Loading α :=
  .ofStep fun store => if Moment.mk node context store = m then (.error e, store) else x.runOn store

/-- At the moment itself, the failure is the outcome. -/
theorem outcome_failAt (e : SchemaError) (x : Loading α) :
    (failAt ⟨node, context, t⟩ e node context x).outcome t = .error e := by
  unfold failAt outcome Loading.runOn Loading.ofStep
  exact congrArg Prod.fst (if_pos rfl)

/-- At other moments nothing changes. -/
theorem runOn_failAt {m : Moment} (h : Moment.mk node context t ≠ m) (e : SchemaError)
    (x : Loading α) : (failAt m e node context x).runOn t = x.runOn t := by
  unfold failAt Loading.runOn Loading.ofStep
  exact if_neg h

/-! ## Watching a computation -/

/-- Computations in which failures are planted come to the failure at a moment. -/
def Comes (y : Moment × SchemaError → Loading α) (t : Store) (m : Moment) : Prop :=
  ∀ e, (y (m, e)).outcome t = .error e

/-- One outcome is not every failure. -/
theorem not_forall_error (r : Except SchemaError α) : ¬∀ e, r = .error e := by
  intro h
  have hroot := h (.engineBuild ⟨[]⟩)
  have hother := h (.engineBuild ⟨[""]⟩)
  rw [hroot] at hother
  cases hother

/-- A computation goes through moments that are good, and loads what they ask for, or what may be
loaded otherwise. -/
structure Watched (files : Texts) (Good : Moment → Prop) (Own : Location → Prop) (t : Store)
    (x : Loading α) (y : Moment × SchemaError → Loading α) : Prop where
  /-- The store only grows. -/
  grows : Store.Extends files t (x.after t)
  /-- A planted failure is come to, or it changes nothing. -/
  same : ∀ m, Comes y t m ∨ ∀ e, (y (m, e)).runOn t = x.runOn t
  /-- The moments are good. -/
  good : ∀ m, Comes y t m → Good m
  /-- What is loaded is asked for. -/
  asked : ∀ l, (x.after t).find? l = t.find? l ∨ Own l ∨ ∃ m, Comes y t m ∧ m.AsksFor l

variable {Good : Moment → Prop} {Own : Location → Prop}

/-- What is known beforehand comes to no moment. -/
theorem Watched.lift (r : Except SchemaError α) :
    Watched files Good Own t (ExceptT.mk (pure r)) fun _ => ExceptT.mk (pure r) where
  grows := Store.Extends.refl files t
  same _ := .inr fun _ => rfl
  good _ h := absurd h (not_forall_error r)
  asked _ := .inl rfl

section Bind

variable {x : Loading α} {y : Moment × SchemaError → Loading α} {f : α → Loading β}
  {g : Moment × SchemaError → α → Loading β}

/-- A sequence comes to a moment in its first part or, after this, in its second part. -/
theorem comes_bind_iff (h : Watched files Good Own t x y) (m : Moment) :
    Comes (fun i => y i >>= g i) t m ↔
      Comes y t m ∨ ∃ a, x.outcome t = .ok a ∧ Comes (fun i => g i a) (x.after t) m := by
  constructor
  · intro hcomes
    rcases h.same m with hfirst | hsame
    · exact .inl hfirst
    · right
      have hrun : ∀ e, (y (m, e)).outcome t = x.outcome t := fun e => congrArg Prod.fst (hsame e)
      have hafter : ∀ e, (y (m, e)).after t = x.after t := fun e => congrArg Prod.snd (hsame e)
      cases hx : x.outcome t with
      | error e₀ =>
        -- The first part ends in a failure of its own, which is not every failure.
        have hevery : ∀ e, (.error e₀ : Except SchemaError β) = .error e := fun e => by
          rw [← hcomes e, outcome_bind_error ((hrun e).trans hx)]
        exact absurd hevery (not_forall_error _)
      | ok a =>
        refine ⟨a, rfl, fun e => ?_⟩
        rw [← hcomes e, outcome_bind_ok ((hrun e).trans hx), hafter e]
  · rintro (hfirst | ⟨a, ha, hsecond⟩) e
    · exact outcome_bind_error (hfirst e)
    · rcases h.same m with hfirst | hsame
      · exact outcome_bind_error (hfirst e)
      · have hrun : (y (m, e)).outcome t = .ok a := (congrArg Prod.fst (hsame e)).trans ha
        have hafter : (y (m, e)).after t = x.after t := congrArg Prod.snd (hsame e)
        rw [outcome_bind_ok hrun, hafter]
        exact hsecond e

/-- A sequence is watched if its parts are. -/
theorem Watched.bind (h : Watched files Good Own t x y)
    (h' : ∀ a, x.outcome t = .ok a →
      Watched files Good Own (x.after t) (f a) fun i => g i a) :
    Watched files Good Own t (x >>= f) fun i => y i >>= g i := by
  have hcomes : ∀ m, Comes (fun i => y i >>= g i) t m ↔
      Comes y t m ∨ ∃ a, x.outcome t = .ok a ∧ Comes (fun i => g i a) (x.after t) m :=
    fun m => comes_bind_iff h m
  constructor
  · cases hx : x.outcome t with
    | error e =>
      rw [after_bind_error hx]
      exact h.grows
    | ok a =>
      rw [after_bind_ok hx]
      exact h.grows.trans (h' a hx).grows
  · intro m
    rcases h.same m with hfirst | hsame
    · exact .inl ((hcomes m).mpr (.inl hfirst))
    · cases hx : x.outcome t with
      | error e₀ =>
        right
        intro e
        rw [runOn_bind, runOn_bind, hsame e, runOn_eq x t, hx]
      | ok a =>
        rcases (h' a hx).same m with hsecond | hsame'
        · exact .inl ((hcomes m).mpr (.inr ⟨a, hx, hsecond⟩))
        · right
          intro e
          rw [runOn_bind, runOn_bind, hsame e, runOn_eq x t, hx]
          exact hsame' e
  · intro m hm
    rcases (hcomes m).mp hm with hfirst | ⟨a, ha, hsecond⟩
    · exact h.good m hfirst
    · exact (h' a ha).good m hsecond
  · intro l
    have hfirst : ∀ m, Comes y t m → Comes (fun i => y i >>= g i) t m := fun m hm =>
      (hcomes m).mpr (.inl hm)
    have hasked : (x.after t).find? l = t.find? l ∨ Own l ∨
        ∃ m, Comes (fun i => y i >>= g i) t m ∧ m.AsksFor l :=
      (h.asked l).imp_right (Or.imp_right fun ⟨m, hm, hl⟩ => ⟨m, hfirst m hm, hl⟩)
    cases hx : x.outcome t with
    | error e =>
      rw [after_bind_error hx]
      exact hasked
    | ok a =>
      rw [after_bind_ok hx]
      rcases (h' a hx).asked l with hsame | hown | ⟨m, hm, hl⟩
      · rw [hsame]
        exact hasked
      · exact .inr (.inl hown)
      · exact .inr (.inr ⟨m, (hcomes m).mpr (.inr ⟨a, hx, hm⟩), hl⟩)

end Bind

/-- A failure that is planted elsewhere changes nothing. -/
theorem Watched.unvisited {x : Loading α} {y : Moment × SchemaError → Loading α}
    (h : Watched files Good Own t x y) (m : Moment) (hm : ¬Comes y t m) (e : SchemaError) :
    (y (m, e)).runOn t = x.runOn t :=
  (h.same m).resolve_left hm e

/-- What is new in the store was asked for, if nothing may be loaded otherwise. -/
theorem Watched.loaded {x : Loading α} {y : Moment × SchemaError → Loading α}
    (h : Watched files Good (fun _ => False) t x y) {d : Document} (hnone : t.find? l = none)
    (hsome : (x.after t).find? l = some d) : ∃ m, Comes y t m ∧ m.AsksFor l := by
  rcases h.asked l with hsame | hno | hasked
  · rw [hsame, hnone] at hsome
    cases hsome
  · exact hno.elim
  · exact hasked

/-- It only matters what the computations do on the store. -/
theorem Watched.congr {x x' : Loading α} {y y' : Moment × SchemaError → Loading α}
    (h : Watched files Good Own t x y) (hx : x'.runOn t = x.runOn t)
    (hy : ∀ i, (y' i).runOn t = (y i).runOn t) : Watched files Good Own t x' y' := by
  have hafter : x'.after t = x.after t := congrArg Prod.snd hx
  have hcomes : ∀ m, Comes y' t m ↔ Comes y t m := fun m =>
    forall_congr' fun e => by rw [outcome, outcome, hy]
  constructor
  · rw [hafter]
    exact h.grows
  · intro m
    refine (h.same m).imp (hcomes m).mpr fun hsame e => ?_
    rw [hy, hx, hsame]
  · exact fun m hm => h.good m ((hcomes m).mp hm)
  · intro l
    rw [hafter]
    refine (h.asked l).imp_right (Or.imp_right ?_)
    rintro ⟨m, hm, hl⟩
    exact ⟨m, (hcomes m).mpr hm, hl⟩

/-- The judgement that a computation is watched. -/
def watched (files : Texts) (Good : Moment → Prop) (Own : Location → Prop) :
    Judgement (Store.Extends files) (Moment × SchemaError) where
  Holds := Watched files Good Own
  Allows _ := True
  refl := Store.Extends.refl files
  trans := Store.Extends.trans
  grows h := h.grows
  lift _ := Watched.lift _
  bind := Watched.bind

namespace Watched

variable {x : Loading α} {y : Moment × SchemaError → Loading α}

/-- More may be loaded otherwise. -/
theorem always_mono (h : (watched files Good Own).Always s x y) {Own' : Location → Prop}
    (hle : ∀ l, Own l → Own' l) : (watched files Good Own').Always s x y := by
  intro t ht
  obtain ⟨hgrows, hsame, hgood, hasked⟩ := h ht
  exact ⟨hgrows, hsame, hgood, fun l => (hasked l).imp_right (Or.imp_left (hle l))⟩

/-- A node is visited at a moment of its own, and what it asks for need not be loaded otherwise. -/
theorem always_failAt (hgood : ∀ t, Store.Extends files s t → Good ⟨node, context, t⟩)
    (hdirectory : context.baseDirectory = context.root.location.parent)
    (h : (watched files Good (AsksFor context.baseDirectory node)).Always s x y) :
    (watched files Good fun _ => False).Always s x fun i => failAt i.1 i.2 node context (y i) := by
  intro t ht
  obtain ⟨hgrows, hsame, hgood', hasked⟩ := h ht
  have hself : Comes (fun i => failAt i.1 i.2 node context (y i)) t ⟨node, context, t⟩ :=
    fun e => outcome_failAt e _
  have helse : ∀ m, Moment.mk node context t ≠ m → ∀ e,
      (failAt m e node context (y (m, e))).runOn t = (y (m, e)).runOn t :=
    fun m hm e => runOn_failAt hm e _
  have hcomes : ∀ m, Comes y t m → Comes (fun i => failAt i.1 i.2 node context (y i)) t m := by
    intro m hm
    by_cases he : Moment.mk node context t = m
    · rw [← he]
      exact hself
    · exact fun e => (congrArg Prod.fst (helse m he e)).trans (hm e)
  constructor
  · exact hgrows
  · intro m
    by_cases he : Moment.mk node context t = m
    · rw [← he]
      exact .inl hself
    · exact (hsame m).imp (hcomes m) fun hsame e => (helse m he e).trans (hsame e)
  · intro m hm
    by_cases he : Moment.mk node context t = m
    · rw [← he]
      exact hgood t ht
    · exact hgood' m fun e => (congrArg Prod.fst (helse m he e)).symm.trans (hm e)
  · intro l
    rcases hasked l with hkept | hown | ⟨m, hm, hl⟩
    · exact .inl hkept
    · rw [hdirectory] at hown
      exact .inr (.inr ⟨_, hself, hown⟩)
    · exact .inr (.inr ⟨m, hcomes m hm, hl⟩)

/-- Resolving a reference of a node comes to no moment and loads only what the node asks for. -/
theorem always_resolveReference {reference : String}
    (href : schema.lookup "$ref" = some (.str reference)) :
    (watched files Good (AsksFor context.baseDirectory (.obj schema))).Always s
      (resolveReference files reference context) fun _ =>
        resolveReference files reference context := by
  intro t _
  constructor
  · exact (Steady.resolveReference files reference context).grows t
  · exact fun m => .inr fun _ => rfl
  · exact fun m hm => absurd hm (not_forall_error _)
  · intro l
    refine (find?_after_resolveReference_or files t context reference l).imp_right ?_
    rintro ⟨hhash, hfile, hl⟩
    exact .inl ⟨schema, reference, rfl, href, hhash, hfile, hl⟩

end Watched

/-! ## Going from node to node -/

/-- Below a node, moments are at home. -/
theorem Moment.AtHome.below {v : Json} (h : Moment.AtHome files s start ⟨node, context, t⟩)
    (hv : node.Inside v) : Moment.AtHome files s start ⟨v, context, t⟩ :=
  ⟨h.inside.trans hv, h.held, h.directory, h.referred⟩

/-- After the store has grown, moments are at home. -/
theorem Moment.AtHome.mono {t' : Store} (h : Moment.AtHome files s start ⟨node, context, t⟩)
    (ht : Store.Extends files t t') : Moment.AtHome files s start ⟨node, context, t'⟩ :=
  ⟨h.inside, ht.keeps h.held, h.directory, h.referred⟩

/-- Behind a reference, moments are at home once the reference has been resolved. -/
theorem Moment.AtHome.target {reference : String} {target : Target} {next : Json}
    (h : Moment.AtHome files s start ⟨.obj schema, context, t⟩) (ht : Store.Extends files s t)
    (href : schema.lookup "$ref" = some (.str reference))
    (leads : LeadsTo files t context reference target next) :
    Moment.AtHome files s start ⟨next, target.context,
      (resolveReference files reference context).after t⟩ := by
  have hcontext : context = .ofDocument context.root := by
    rw [Context.ofDocument, ← h.directory]
  have hresolved : (resolveReference files reference (.ofDocument context.root)).outcome s =
      .ok target := by
    rw [← hcontext, ← (Steady.resolveReference files reference context).stays ht]
    exact leads.resolved
  constructor
  · exact leads.reaches.inside
  · exact find?_after_resolveReference leads.resolved h.held
  · -- The context behind the reference is the same one, or that of the document it names.
    obtain ⟨c, hbehind, -, rfl⟩ := resolveReference_eq_ok.mp leads.resolved
    cases hbehind with
    | same => exact h.directory
    | document => rfl
  · exact .reference h.referred ⟨schema, h.inside, href⟩ hresolved

/-- The judgement that moments are at home, and that the store grows by what they ask for. -/
abbrev watchedHome (files : Texts) (s : Store) (start : Document) :
    Judgement (Store.Extends files) (Moment × SchemaError) :=
  watched files (Moment.AtHome files s start) fun _ => False

/-- Following the reference of a node is watched, if going on behind it is. -/
theorem follow_watched {absent : α} {go : Target → Chain → Json → Loading α}
    {go' : Moment × SchemaError → Target → Chain → Json → Loading α}
    (ht : Store.Extends files s t) (h : Moment.AtHome files s start ⟨.obj schema, context, t⟩)
    (hgo : ∀ {target chain' next t'}, Store.Extends files s t' →
      Moment.AtHome files s start ⟨next, target.context, t'⟩ →
      (watchedHome files s start).Always t' (go target chain' next) fun i =>
        go' i target chain' next) :
    (watched files (Moment.AtHome files s start)
      (AsksFor context.baseDirectory (.obj schema))).Always t
      (follow files schema context chain absent go) fun i =>
        follow files schema context chain absent (go' i) := by
  refine Judgement.Always.follow (fun _ _ => trivial) (fun text href => ?_)
    (fun _ _ _ _ _ _ => trivial) fun text target chain' next t' follows ht' => ?_
  · exact Watched.always_resolveReference href
  · have hresolve : Steady files (resolveReference files text context) := Steady.resolveReference ..
    have leads : LeadsTo files t' context text target next :=
      ⟨(hresolve.stays ht').trans follows.leads.resolved, follows.leads.found⟩
    have hgrown := ht.trans ht'
    have hnext := (h.mono ht').target hgrown follows.reference leads
    exact Watched.always_mono (hgo (hgrown.trans (hresolve.grows t')) hnext) fun _ hno => hno.elim

/-! ## Both walks -/

namespace Structural

/-- What the walk does at a node, given how it goes on below. -/
def enter (files : Texts) (settings : Settings) (visit : Visit) : Visit :=
  fun v node context place chain =>
    match node with
    | .obj schema => checkNode files settings visit v schema context place chain
    | _ => pure []

/-- The walk in which a failure is planted at a moment. -/
noncomputable def walkFailingAt (files : Texts) (settings : Settings) (m : Moment)
    (e : SchemaError) : (levels : Nat) → Visit
  | 0, _, node, context, place, _ =>
    failAt m e node context (throw (.depthExceeded settings.maxDepth place))
  | levels + 1, v, node, context, place, chain =>
    failAt m e node context
      (enter files settings (walkFailingAt files settings m e levels) v node context place chain)

/-- Validation in which a failure is planted at a moment. -/
noncomputable def validateFailingAt (files : Texts) (settings : Settings) (m : Moment)
    (e : SchemaError) (schema : Document) (v : Json) : Loading Report :=
  walkFailingAt files settings m e (settings.maxDepth + 1) v schema.root (.ofDocument schema) .root
    (.start settings.maxRefChain)

/-- Validation comes to a moment: it fails whenever a failure is planted there. -/
def Visits (files : Texts) (s : Store) (settings : Settings) (schema : Document) (v : Json)
    (m : Moment) : Prop :=
  ∀ e, (validateFailingAt files settings m e schema v).outcome s = .error e

/-- How a walk goes on is watched at home. -/
def VisitWatched (files : Texts) (s : Store) (start : Document) (visit : Visit)
    (visit' : Moment × SchemaError → Visit) : Prop :=
  ∀ ⦃v node context place chain t⦄, Store.Extends files s t →
    Moment.AtHome files s start ⟨node, context, t⟩ →
    (watchedHome files s start).Always t (visit v node context place chain) fun i =>
      visit' i v node context place chain

/-- What the walk does at a node is watched, if going on below is; what the node itself asks for may
be loaded. -/
theorem enter_watched {settings : Settings} {visit : Visit} {visit' : Moment × SchemaError → Visit}
    {v : Json} {place : Locator} (hvisit : VisitWatched files s start visit visit')
    (ht : Store.Extends files s t) (h : Moment.AtHome files s start ⟨node, context, t⟩) :
    (watched files (Moment.AtHome files s start) (AsksFor context.baseDirectory node)).Always t
      (enter files settings visit v node context place chain) fun i =>
        enter files settings (visit' i) v node context place chain := by
  -- Below the node, what is asked for is asked at the moments that follow.
  have hbelow : ∀ {w next place chain'}, node.Inside next →
      (watched files (Moment.AtHome files s start) (AsksFor context.baseDirectory node)).Always t
        (visit w next context place chain') fun i => visit' i w next context place chain' :=
    fun hnext => Watched.always_mono (hvisit ht (h.below hnext)) fun _ hno => hno.elim
  unfold enter
  cases node with
  | obj schema =>
    refine checkNode_always visit' (fun _ => rfl) (fun _ _ => trivial) ?_ ?_ ?_
    · simp only [checkReference_eq]
      exact follow_watched ht h fun ht' hnext => hvisit ht' hnext
    · exact fun a ha => hbelow ha.inPlace.beneath.inside
    · exact fun w next place _ hnext => hbelow hnext.beneath.inside
  | _ => exact .pure _

/-- The walk is watched, with any number of levels. -/
theorem walk_watched (files : Texts) (s : Store) (start : Document) (settings : Settings) :
    ∀ levels, VisitWatched files s start (walk files settings levels) fun i =>
      walkFailingAt files settings i.1 i.2 levels
  | 0 => fun v node context place chain t ht h => by
    have hbody : (watched files (Moment.AtHome files s start)
        (AsksFor context.baseDirectory node)).Always t
        (throw (.depthExceeded settings.maxDepth place) : Loading Report) fun _ =>
          throw (.depthExceeded settings.maxDepth place) := Judgement.Always.lift fun _ _ => trivial
    exact Watched.always_failAt (fun t' ht' => h.mono ht') h.directory hbody
  | levels + 1 => fun v node context place chain t ht h => by
    have hbody : (watched files (Moment.AtHome files s start)
        (AsksFor context.baseDirectory node)).Always t
        (enter files settings (walk files settings levels) v node context place chain) fun i =>
          enter files settings (walkFailingAt files settings i.1 i.2 levels) v node context place
            chain := enter_watched (walk_watched files s start settings levels) ht h
    exact Watched.always_failAt (fun t' ht' => h.mono ht') h.directory hbody

end Structural

namespace ReferenceGraph

/-- What the walk does at a node, given how it goes on below. -/
def enter (files : Texts) (visit : Visit) : Visit :=
  fun node context pointer chain expanded =>
    match node with
    | .obj schema => visitNode files visit schema context pointer chain expanded
    | _ => pure expanded

/-- The walk in which a failure is planted at a moment. -/
noncomputable def walkFailingAt (files : Texts) (m : Moment) (e : SchemaError) :
    (levels : Nat) → Visit
  | 0, node, context, _, chain, _ =>
    failAt m e node context (throw (.depthExceeded chain.limit .root))
  | levels + 1, node, context, pointer, chain, expanded =>
    failAt m e node context
      (enter files (walkFailingAt files m e levels) node context pointer chain expanded)

/-- The check in which a failure is planted at a moment. -/
noncomputable def checkFailingAt (files : Texts) (m : Moment) (e : SchemaError) (schema : Document)
    (limit : Nat) : Loading Unit := do
  let store ← get
  let depth := levels (weight files store + schema.root.size) limit
  let _ ← expand (walkFailingAt files m e depth) schema.root (.ofDocument schema) "" limit []
  pure ()

/-- The check comes to a moment: it fails whenever a failure is planted there. -/
def Visits (files : Texts) (s : Store) (schema : Document) (limit : Nat) (m : Moment) : Prop :=
  ∀ e, (checkFailingAt files m e schema limit).outcome s = .error e

/-- How a walk goes on is watched at home. -/
def VisitWatched (files : Texts) (s : Store) (start : Document) (visit : Visit)
    (visit' : Moment × SchemaError → Visit) : Prop :=
  ∀ ⦃node context pointer chain expanded t⦄, Store.Extends files s t →
    Moment.AtHome files s start ⟨node, context, t⟩ →
    (watchedHome files s start).Always t (visit node context pointer chain expanded) fun i =>
      visit' i node context pointer chain expanded

/-- What the walk does at a node is watched, if going on below is; what the node itself asks for may
be loaded. -/
theorem enter_watched {visit : Visit} {visit' : Moment × SchemaError → Visit} {pointer : String}
    (hvisit : VisitWatched files s start visit visit') (ht : Store.Extends files s t)
    (h : Moment.AtHome files s start ⟨node, context, t⟩) (expanded : Expanded) :
    (watched files (Moment.AtHome files s start) (AsksFor context.baseDirectory node)).Always t
      (enter files visit node context pointer chain expanded) fun i =>
        enter files (visit' i) node context pointer chain expanded := by
  have hbelow : ∀ {next q chain' expanded'}, node.Inside next →
      (watched files (Moment.AtHome files s start) (AsksFor context.baseDirectory node)).Always t
        (visit next context q chain' expanded') fun i => visit' i next context q chain' expanded' :=
    fun hnext => Watched.always_mono (hvisit ht (h.below hnext)) fun _ hno => hno.elim
  unfold enter
  cases node with
  | obj schema =>
    refine visitNode_always visit' ?_ ?_ ?_ expanded
    · simp only [followReference_eq]
      exact fun expanded => follow_watched ht h fun ht' hnext => hvisit ht' hnext
    · exact fun q v expanded hv => hbelow hv.beneath.inside
    · exact fun q v expanded hv => hbelow hv.beneath.inside
  | _ => exact .pure _

/-- The walk is watched, with any number of levels. -/
theorem walk_watched (files : Texts) (s : Store) (start : Document) :
    ∀ levels, VisitWatched files s start (walk files levels) fun i =>
      walkFailingAt files i.1 i.2 levels
  | 0 => fun node context pointer chain expanded t ht h => by
    have hbody : (watched files (Moment.AtHome files s start)
        (AsksFor context.baseDirectory node)).Always t
        (throw (.depthExceeded chain.limit .root) : Loading Expanded) fun _ =>
          throw (.depthExceeded chain.limit .root) := Judgement.Always.lift fun _ _ => trivial
    exact Watched.always_failAt (fun t' ht' => h.mono ht') h.directory hbody
  | levels + 1 => fun node context pointer chain expanded t ht h => by
    have hbody : (watched files (Moment.AtHome files s start)
        (AsksFor context.baseDirectory node)).Always t
        (enter files (walk files levels) node context pointer chain expanded) fun i =>
          enter files (walkFailingAt files i.1 i.2 levels) node context pointer chain expanded :=
      enter_watched (walk_watched files s start levels) ht h expanded
    exact Watched.always_failAt (fun t' ht' => h.mono ht') h.directory hbody

end ReferenceGraph

/-- Whatever node validation or the check of the reference graph comes to, it lies in the document
of its context, which is the one of the store, and references are read from the directory of this
document. A failure that is planted at a moment to which they do not come changes nothing. So every
document that is loaded was asked for at some moment: it stands where the file part of a reference
leads from the directory of the document in which the reference is written. -/
theorem visits_atHome (files : Texts) (s : Store) (schema : Document)
    (hschema : s.find? schema.location = some schema) :
    (∀ settings v,
      (∀ m, Structural.Visits files s settings schema v m → m.AtHome files s schema) ∧
      (∀ m, ¬Structural.Visits files s settings schema v m → ∀ e,
        (Structural.validateFailingAt files settings m e schema v).runOn s =
          (Structural.validate files settings schema v).runOn s) ∧
      ∀ l d, s.find? l = none →
        ((Structural.validate files settings schema v).after s).find? l = some d →
        ∃ m, Structural.Visits files s settings schema v m ∧ m.AsksFor l) ∧
    (∀ limit,
      (∀ m, ReferenceGraph.Visits files s schema limit m → m.AtHome files s schema) ∧
      (∀ m, ¬ReferenceGraph.Visits files s schema limit m → ∀ e,
        (ReferenceGraph.checkFailingAt files m e schema limit).runOn s =
          (ReferenceGraph.check files schema limit).runOn s) ∧
      ∀ l d, s.find? l = none →
        ((ReferenceGraph.check files schema limit).after s).find? l = some d →
        ∃ m, ReferenceGraph.Visits files s schema limit m ∧ m.AsksFor l) := by
  have hroot : Moment.AtHome files s schema ⟨schema.root, .ofDocument schema, s⟩ :=
    ⟨.here, hschema, rfl, .start⟩
  have hrefl := Store.Extends.refl files s
  constructor
  · intro settings v
    have hwalk : Watched files (Moment.AtHome files s schema) (fun _ => False) s
        (Structural.validate files settings schema v) fun i =>
          Structural.validateFailingAt files settings i.1 i.2 schema v :=
      Structural.walk_watched files s schema settings _ hrefl hroot hrefl
    exact ⟨hwalk.good, hwalk.unvisited, fun l d => hwalk.loaded⟩
  · intro limit
    have hvisit := ReferenceGraph.walk_watched files s schema
      (ReferenceGraph.levels (ReferenceGraph.weight files s + schema.root.size) limit)
    have hexpand : Watched files (Moment.AtHome files s schema) (fun _ => False) s _ _ :=
      ReferenceGraph.expandRoot_always limit (fun expanded => hvisit hrefl hroot) hrefl
    have hcheck : Watched files (Moment.AtHome files s schema) (fun _ => False) s
        (ReferenceGraph.check files schema limit) fun i =>
          ReferenceGraph.checkFailingAt files i.1 i.2 schema limit :=
      hexpand.congr (ReferenceGraph.check_runOn files schema limit s) fun i => by
        rw [ReferenceGraph.checkFailingAt, runOn_bind, runOn_get]
    exact ⟨hcheck.good, hcheck.unvisited, fun l d => hcheck.loaded⟩

/-- A schema that refers to a document in another directory. -/
def outerSchema : Document where
  location := ⟨["s", "outer.json"]⟩
  root := .obj [("$ref", .str "part/middle.json")]

/-- This document refers to one beside it, of which the directory above has another one. -/
def nestedFiles : FileTree where
  workingDirectory := ⟨["s", "part"]⟩
  entries :=
    [(⟨["s", "part", "middle.json"]⟩, .file "\x7b\"$ref\":\"inner.json\"\x7d".toUTF8),
      (⟨["s", "part", "inner.json"]⟩, .file "true".toUTF8),
      (⟨["s", "inner.json"]⟩, .file "false".toUTF8)]

/-- The check loads the document beside the reference, for which some moment asks, and not the other
one. -/
theorem outerSchema_loads :
    (∃ d, ((ReferenceGraph.check nestedFiles outerSchema 2).after ⟨[outerSchema]⟩).find?
        ⟨["s", "part", "inner.json"]⟩ = some d) ∧
      ((ReferenceGraph.check nestedFiles outerSchema 2).after ⟨[outerSchema]⟩).find?
        ⟨["s", "inner.json"]⟩ = none ∧
      ∃ m, ReferenceGraph.Visits nestedFiles ⟨[outerSchema]⟩ outerSchema 2 m ∧
        m.AtHome nestedFiles ⟨[outerSchema]⟩ outerSchema ∧
        m.AsksFor ⟨["s", "part", "inner.json"]⟩ := by
  obtain ⟨hhome, -, hloaded⟩ :=
    (visits_atHome nestedFiles ⟨[outerSchema]⟩ outerSchema (by rfl)).2 2
  have hsome : (((ReferenceGraph.check nestedFiles outerSchema 2).after ⟨[outerSchema]⟩).find?
      ⟨["s", "part", "inner.json"]⟩).isSome = true := by decide +kernel
  have hnone : (((ReferenceGraph.check nestedFiles outerSchema 2).after ⟨[outerSchema]⟩).find?
      ⟨["s", "inner.json"]⟩).isNone = true := by decide +kernel
  obtain ⟨d, hd⟩ := Option.isSome_iff_exists.mp hsome
  obtain ⟨m, hvisits, hasks⟩ := hloaded _ d (by rfl) hd
  exact ⟨⟨d, hd⟩, Option.isNone_iff_eq_none.mp hnone, m, hvisits, hhome m hvisits, hasks⟩

end LinkedSchema
