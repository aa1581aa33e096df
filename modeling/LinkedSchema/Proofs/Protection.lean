import LinkedSchema.Proofs.Exactness
import LinkedSchema.Proofs.Judgements

/-!
# The check protects the walk

After the check of the reference graph has succeeded, structural validation on the store that it
left runs into no error of a reference and loads nothing (`validate_after_check`). The structural
walk stands at the end of a trail from some location at every step, and its chain holds the hops of
this trail; so whatever it meets was met by the check, however often and in whatever order the
instance makes it come back.
-/

namespace LinkedSchema

open Loading

/-- A computation leaves a store as it is, and can only fail by its depth or by a pattern. -/
structure Loading.Settles {α : Type} (t : Store) (x : Loading α) : Prop where
  /-- The store stays. -/
  stays : x.after t = t
  /-- The errors that are left. -/
  fails : ∀ e, x.outcome t = .error e →
    (∃ n place, e = .depthExceeded n place) ∨ ∃ pattern place, e = .invalidPattern pattern place

namespace Loading

variable {α β : Type} {t : Store}

/-- A value that needs no computation settles. -/
theorem Settles.pure (a : α) : Settles t (Pure.pure a) := ⟨rfl, fun _ h => by cases h⟩

/-- What is known to succeed settles. -/
theorem Settles.of_ok {x : Loading α} {a : α} (h : x.outcome t = .ok a) (hafter : x.after t = t) :
    Settles t x := ⟨hafter, fun _ he => by rw [h] at he; cases he⟩

/-- A sequence settles when its parts do. -/
theorem Settles.bind {x : Loading α} {f : α → Loading β} (hx : Settles t x)
    (hf : ∀ a, x.outcome t = .ok a → Settles t (f a)) : Settles t (x >>= f) := by
  cases h : x.outcome t with
  | error e =>
    refine ⟨(after_bind_error h).trans hx.stays, fun e' he => ?_⟩
    rw [outcome_bind_error h] at he
    cases he
    exact hx.fails e h
  | ok a =>
    have ha := hf a h
    refine ⟨?_, fun e he => ?_⟩
    · rw [after_bind_ok h, hx.stays]
      exact ha.stays
    · rw [outcome_bind_ok h, hx.stays] at he
      exact ha.fails e he

end Loading

/-- The judgement that a computation settles. -/
def settling (files : Texts) : Judgement (Store.Extends files) Empty where
  Holds t x _ := Settles t x
  Allows e :=
    (∃ n place, e = .depthExceeded n place) ∨ ∃ pattern place, e = .invalidPattern pattern place
  refl := Store.Extends.refl files
  trans := Store.Extends.trans
  grows h := by
    rw [h.stays]
    exact .refl _ _
  lift h := ⟨rfl, h⟩
  bind h h' := h.bind fun a ha => by
    have hrest := h' a ha
    rw [h.stays] at hrest
    exact hrest

namespace Structural

open ReferenceGraph

variable {files : Texts} {s t : Store} {start : Document} {limit : Nat} {settings : Settings}
  {schema : Members} {context : Context} {chain : Chain} {place : Locator} {v : Json}
  {hops : List Identity}

/-- The trails of a schema are sound, their references lead to nodes, and their documents are in a
store, which has grown. -/
structure Protected (files : Texts) (s : Store) (limit : Nat) (start : Document) (t : Store) :
    Prop where
  /-- The store has grown. -/
  grown : Store.Extends files s t
  /-- The trails are sound. -/
  sound : ∀ {hops c n}, OnTrail files s start hops c n → Sound files s limit hops c n
  /-- The documents are in the store. -/
  loaded : ∀ {hops c n}, OnTrail files s start hops c n →
    t.find? c.root.location = some c.root
  /-- Resolved references lead to nodes. -/
  leads : ∀ {hops c schema text target}, OnTrail files s start hops c (.obj schema) →
    schema.lookup "$ref" = some (.str text) →
    (resolveReference files text c).outcome s = .ok target →
    ∃ next, LeadsTo files s c text target next

/-- A protected schema stays so when the store grows. -/
theorem Protected.mono {t' : Store} (h : Protected files s limit start t)
    (ht : Store.Extends files t t') : Protected files s limit start t' where
  grown := h.grown.trans ht
  sound := h.sound
  loaded htrail := ht.keeps (h.loaded htrail)
  leads := h.leads

/-- A schema that was checked is protected. -/
theorem protected_of_check (hs : s.WellFormed) (hplain : PlainReferences files s)
    (hstart : s.find? start.location = some start)
    (h : (check files start limit).outcome s = .ok ()) :
    Protected files s limit start ((check files start limit).after s) := by
  obtain ⟨expanded, hcovered⟩ := covered_of_check hs hplain hstart h
  constructor
  · exact check_grows files start limit s
  · rintro hops c n ⟨c', n', hreached, trail⟩
    exact (hcovered hreached).sound trail
  · rintro hops c n ⟨c', n', hreached, trail⟩
    exact (hcovered hreached).loaded trail
  · intro hops c schema text target htrail href hresolved
    obtain ⟨q, hq⟩ := htrail.stands hs hplain hstart
    exact hq.leadsTo hplain href hresolved

/-- A chain holds the hops of a trail, and its limit is one of the settings, which is no smaller
than that of the check. -/
structure Follows (limit : Nat) (settings : Settings) (hops : List Identity) (chain : Chain) :
    Prop where
  /-- The hops. -/
  visited : chain.visited = hops
  /-- The limit. -/
  ceiling : chain.limit = settings.maxRefChain
  /-- There is room for what the check allows. -/
  room : limit ≤ settings.maxRefChain

/-- A fresh chain holds no hops. -/
theorem Follows.fresh (h : Follows limit settings hops chain) :
    Follows limit settings [] chain.fresh := ⟨rfl, h.ceiling, h.room⟩

/-- Whenever the walk goes on at the end of a trail, it settles. -/
def VisitSettles (files : Texts) (s : Store) (limit : Nat) (start : Document)
    (settings : Settings) (t : Store) (visit : Visit) : Prop :=
  ∀ ⦃v node context place chain hops⦄, OnTrail files s start hops context node →
    Follows limit settings hops chain → Settles t (visit v node context place chain)

/-- Following a reference of a trail settles. -/
theorem checkReference_settles {visit : Visit} (hprotected : Protected files s limit start t)
    (hvisit : VisitSettles files s limit start settings t visit)
    (htrail : OnTrail files s start hops context (.obj schema))
    (hchain : Follows limit settings hops chain) :
    Settles t (checkReference files visit v schema context place chain) := by
  unfold checkReference
  cases href : schema.lookup "$ref" with
  | none => exact .pure _
  | some reference =>
    obtain ⟨text, target, rfl, hresolved⟩ := (hprotected.sound htrail).resolves _ _ rfl href
    obtain ⟨next, leads⟩ := hprotected.leads htrail href hresolved
    obtain ⟨c', n', hreached, trail⟩ := htrail
    have htrail' : OnTrail files s start (hops ++ [target.identity]) target.context next :=
      ⟨c', n', hreached, trail.hop href leads⟩
    -- The chain holds the hops of the trail, and the longer trail is sound: so there is room.
    have hsound := hprotected.sound htrail'
    have hnew : target.identity ∉ chain.visited := by
      rw [hchain.visited]
      intro hmem
      exact (List.nodup_append.mp hsound.distinct).2.2 _ hmem _ (List.mem_singleton_self _) rfl
    have hroom : chain.visited.length < chain.limit := by
      have hshort := hsound.short
      rw [List.length_append, List.length_singleton] at hshort
      rw [hchain.visited, hchain.ceiling]
      exact Nat.lt_of_lt_of_le hshort hchain.room
    have henter : chain.enter target.identity text =
        .ok { chain with visited := chain.visited ++ [target.identity] } :=
      Chain.enter_eq_ok.mpr ⟨hnew, hroom, rfl⟩
    -- The check has loaded the document, so resolving the reference again leaves the store.
    have hresolved' : (resolveReference files text context).outcome t = .ok target :=
      ((Steady.resolveReference files text context).stays hprotected.grown).trans hresolved
    have hafter := after_resolveReference_of_find? hresolved' (hprotected.loaded htrail')
    -- Each of the four steps is known to succeed, with the result that the check has seen.
    refine (Settles.of_ok (outcome_lift _) (after_lift _)).bind fun text' htext => ?_
    cases htext
    refine (Settles.of_ok hresolved' hafter).bind fun target' htarget => ?_
    rw [hresolved'] at htarget
    cases htarget
    refine (Settles.of_ok ((outcome_lift _).trans henter) (after_lift _)).bind fun chain' he => ?_
    rw [outcome_lift, henter] at he
    cases he
    refine (Settles.of_ok ((outcome_lift _).trans leads.found) (after_lift _)).bind
      fun next' hnext => ?_
    rw [outcome_lift, leads.found] at hnext
    cases hnext
    exact hvisit htrail' ⟨by rw [hchain.visited], hchain.ceiling, hchain.room⟩

/-- The walk settles on trails, with any number of levels. -/
theorem walk_settles (hprotected : Protected files s limit start t) (levels : Nat) :
    VisitSettles files s limit start settings t (walk files settings levels) := by
  induction levels generalizing t with
  | zero =>
    intro v node context place chain hops _ _
    refine ⟨rfl, fun e he => ?_⟩
    cases he
    exact .inl ⟨_, _, rfl⟩
  | succ levels ih =>
    intro v node context place chain hops htrail hchain
    -- The steps of a node start on stores that have grown, where the schema is protected still.
    have hgo : ∀ {t'}, Store.Extends files t t' →
        VisitSettles files s limit start settings t' (walk files settings levels) :=
      fun ht => ih (hprotected.mono ht)
    unfold walk
    cases node with
    | obj schema =>
      have hnode : (settling files).Always t
          (checkNode files settings (walk files settings levels) v schema context place chain)
          fun _ => checkNode files settings (walk files settings levels) v schema context place
            chain := by
        refine checkNode_always (fun _ => walk files settings levels) (fun _ => rfl)
          (fun pattern place => .inr ⟨pattern, place, rfl⟩) ?_ ?_ ?_
        · exact fun t' ht => checkReference_settles (hprotected.mono ht) (hgo ht) htrail hchain
        · obtain ⟨c', n', hreached, trail⟩ := htrail
          exact fun a ha t' ht => hgo ht ⟨c', n', hreached, trail.apply ha.inPlace⟩ hchain
        · -- A step into a part starts a new trail, as the chain is fresh there.
          obtain ⟨c', n', hreached, trail⟩ := htrail
          exact fun w next place _ hpart t' ht =>
            hgo ht ⟨context, _, hreached.part trail hpart, .here⟩ hchain.fresh
      exact hnode (.refl files t)
    | _ => exact .pure _

/-- After a check has succeeded, validation with at least as long chains returns a report, or it
exceeds its depth or meets a pattern that is none; and it leaves the store that the check left. -/
theorem validate_after_check (files : FileTree) (s : Store) (schema : Document) (limit : Nat)
    (hs : s.WellFormed) (hplain : PlainReferences files s)
    (hschema : s.find? schema.location = some schema)
    (hcheck : (check files schema limit).outcome s = .ok ()) (settings : Settings) (v : Json)
    (hlimit : limit ≤ settings.maxRefChain) :
    let t := (check files schema limit).after s
    (validate files settings schema v).after t = t ∧
      ((∃ report, (validate files settings schema v).outcome t = .ok report) ∨
        (∃ n place, (validate files settings schema v).outcome t =
          .error (.depthExceeded n place)) ∨
        ∃ pattern place, (validate files settings schema v).outcome t =
          .error (.invalidPattern pattern place)) := by
  intro t
  have hprotected := protected_of_check hs hplain hschema hcheck
  have hsettles : Settles t (validate files settings schema v) :=
    walk_settles hprotected _ ⟨_, _, .start, .here⟩ ⟨rfl, rfl, hlimit⟩
  refine ⟨hsettles.stays, ?_⟩
  cases h : (validate files settings schema v).outcome t with
  | ok report => exact .inl ⟨report, rfl⟩
  | error e =>
    rcases hsettles.fails e h with ⟨n, place, rfl⟩ | ⟨pattern, place, rfl⟩
    · exact .inr (.inl ⟨n, place, rfl⟩)
    · exact .inr (.inr ⟨pattern, place, rfl⟩)

/-- A tree with a child, whose own child is null. -/
def smallTree : Json := .obj [("child", .obj [("child", .null)])]

set_option maxRecDepth 10000 in
/-- The check of the schema of trees succeeds, and validating the small tree afterwards leaves the
store alone and reports nothing. -/
theorem smallTree_after_check :
    (check (.empty .root) treeSchema 1).outcome ⟨[treeSchema]⟩ = .ok () ∧
      (validate (.empty .root) ⟨1, 4, false⟩ treeSchema smallTree).after
          ((check (.empty .root) treeSchema 1).after ⟨[treeSchema]⟩) =
        (check (.empty .root) treeSchema 1).after ⟨[treeSchema]⟩ ∧
      (validate (.empty .root) ⟨1, 4, false⟩ treeSchema smallTree).outcome
          ((check (.empty .root) treeSchema 1).after ⟨[treeSchema]⟩) = .ok [] := by
  have hcheck : (check (.empty .root) treeSchema 1).outcome ⟨[treeSchema]⟩ = .ok () := by rfl
  have hreport : (validate (.empty .root) ⟨1, 4, false⟩ treeSchema smallTree).outcome
      ((check (.empty .root) treeSchema 1).after ⟨[treeSchema]⟩) = .ok [] := by rfl
  have h := validate_after_check (.empty .root) ⟨[treeSchema]⟩ treeSchema 1 wellFormed_treeSchema
    plainReferences_treeSchema (by rfl) hcheck ⟨1, 4, false⟩ smallTree (by decide)
  exact ⟨hcheck, h.1, hreport⟩

end Structural

end LinkedSchema
