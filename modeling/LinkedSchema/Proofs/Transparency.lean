import LinkedSchema.Proofs.Tracking
import Mathlib.Data.Nat.Find

/-!
# References are transparent

Validating against a node that is only a reference gives the report of validating against the target
of the reference, with ceilings that differ by one at most. One direction is monotonicity: a walk
that returns a report returns it as well with more levels, and with a chain that holds less or has
more room (`walk_mono`).

In the other direction the chain holds one more identity, that of the target. It does no harm as
long as the walk does not come back to the target at the same place of the instance. A walk that
returns a report may come back there, but then it contains a walk from the target that does so with
fewer levels. Among all walks from the target at this place that return a report, one with the least
number of levels therefore never comes back, and returns its report behind the target as well
(`walk_behind`).
-/

namespace LinkedSchema.Structural

open Loading

variable {files : Texts} {s t : Store} {settings settings' : Settings} {visit : Visit} {v : Json}
  {schema : Members} {context : Context} {place : Locator} {chain chain' : Chain} {i : Identity}
  {reference : String} {target : Target} {node : Json} {report : Report}

/-! ## Monotonicity -/

/-- Two runs are on the same store, which has grown from a given one. -/
def Grown (files : Texts) (s a b : Store) : Prop := a = b ∧ Store.Extends files s a

/-- All errors. -/
def AnyError (_ : SchemaError) : Prop := True

/-- On the store itself, what is tracked whenever it succeeds has the same result. -/
theorem ok_of_tracks {α : Type} {x y : Loading α} {a : α}
    (h : Tracks (Grown files s) AnyError x y) (ha : x.outcome s = .ok a) : y.outcome s = .ok a := by
  rcases h ⟨rfl, .refl files s⟩ with ⟨e, -, hfails⟩ | ⟨hsame, -⟩
  · rw [ha] at hfails
    cases hfails
  · rw [hsame, ha]

/-- A document is loaded alike on both sides. -/
theorem loadsAlike_grown (files : Texts) (s : Store) :
    LoadsAlike (Grown files s) AnyError files files := by
  rintro l r a b ⟨rfl, ha⟩
  exact .inr ⟨rfl, rfl, ha.trans ((Steady.loadDocument files l r).grows a)⟩

/-- What a steady computation can return on a store that has grown, it returns at once. -/
theorem outcome_of_returns {α : Type} {x : Loading α} {a : α} (hx : Steady files x)
    (h : Returns (Grown files s) x a) : x.outcome s = .ok a := by
  obtain ⟨c, _, ⟨rfl, hc⟩, ha⟩ := h
  rw [← hx.stays hc]
  exact ha

/-- A chain holds no more than another one and has at least as much room. -/
structure Roomier (chain chain' : Chain) : Prop where
  /-- What it holds is held by the other one. -/
  visited : chain'.visited ⊆ chain.visited
  /-- It is no longer. -/
  length : chain'.visited.length ≤ chain.visited.length
  /-- Its limit is no smaller. -/
  limit : chain.limit ≤ chain'.limit

/-- A chain is as roomy as itself. -/
theorem Roomier.refl (chain : Chain) : Roomier chain chain :=
  ⟨List.Subset.refl _, Nat.le_refl _, Nat.le_refl _⟩

/-- No chain with a limit is roomier than the empty one. -/
theorem Roomier.start {limit : Nat} (h : chain.limit ≤ limit) : Roomier chain (.start limit) :=
  ⟨List.nil_subset _, Nat.zero_le _, h⟩

/-- Chains with more room stay so, unless one of them cannot be entered. -/
theorem chainsAlike_roomier : ChainsAlike AnyError Roomier where
  fresh h := .start h.limit
  enter {chain chain'} i text h := by
    cases hc : chain.enter i text with
    | error e => exact .inl ⟨e, trivial, rfl⟩
    | ok next =>
      obtain ⟨hnew, hroom, rfl⟩ := Chain.enter_eq_ok.mp hc
      have hshort : chain'.visited.length < chain'.limit :=
        calc chain'.visited.length ≤ chain.visited.length := h.length
          _ < chain.limit := hroom
          _ ≤ chain'.limit := h.limit
      have hc' : chain'.enter i text = .ok { chain' with visited := chain'.visited ++ [i] } :=
        Chain.enter_eq_ok.mpr ⟨fun hmem => hnew (h.visited hmem), hshort, rfl⟩
      refine .inr (.inr ⟨_, _, rfl, hc', ?_, ?_, h.limit⟩)
      · exact List.append_subset.mpr ⟨List.subset_append_of_subset_left _ h.visited,
          List.subset_append_right _ _⟩
      · rw [List.length_append, List.length_append]
        exact Nat.add_le_add_right h.length _

/-- A walk that returns a report returns it with more levels and a roomier chain. -/
theorem walk_tracks_roomier (hverbose : settings'.verboseAnyOf = settings.verboseAnyOf)
    {levels levels' : Nat} (hlevels : levels ≤ levels') :
    VisitTracks (Grown files s) AnyError Roomier (walk files settings levels)
      (walk files settings' levels') :=
  walk_tracks (loadsAlike_grown files s) hverbose chainsAlike_roomier hlevels
    (.inl fun _ => trivial)

/-- A report that a walk returns stays with more levels and a roomier chain. -/
theorem walk_mono (hverbose : settings'.verboseAnyOf = settings.verboseAnyOf)
    {levels levels' : Nat} (hlevels : levels ≤ levels') (hchain : Roomier chain chain')
    (h : (walk files settings levels v node context place chain).outcome s = .ok report) :
    (walk files settings' levels' v node context place chain').outcome s = .ok report :=
  ok_of_tracks (walk_tracks_roomier hverbose hlevels hchain) h

/-! ## A target at the bottom of the chain -/

/-- A chain behind one more reference, with room for it. -/
def behind (i : Identity) (chain : Chain) : Chain := ⟨i :: chain.visited, chain.limit + 1⟩

/-- A chain behind a reference is entered as before, by any other identity. -/
theorem enter_behind {j : Identity} (hne : j ≠ i) (h : chain.enter j reference = .ok chain') :
    (behind i chain).enter j reference = .ok (behind i chain') := by
  obtain ⟨hnew, hroom, rfl⟩ := Chain.enter_eq_ok.mp h
  have hnew' : j ∉ (behind i chain).visited := List.not_mem_cons_of_ne_of_not_mem hne hnew
  exact Chain.enter_eq_ok.mpr ⟨hnew', Nat.succ_lt_succ hroom, rfl⟩

/-- Targets in held contexts that have one identity are the same. -/
theorem Target.eq_of_identity {target' : Target} (h : target.context.Held files s)
    (h' : target'.context.Held files s)
    (hdocument : target.identity.document = target.context.root.location)
    (hdocument' : target'.identity.document = target'.context.root.location)
    (hsame : target'.identity = target.identity) : target' = target := by
  have hroot : target'.context.root = target.context.root := by
    have hl : target'.context.root.location = target.context.root.location := by
      rw [← hdocument', hsame, hdocument]
    have hd := h'.document
    rw [hl, h.document] at hd
    exact (Except.ok.inj hd).symm
  have hcontext : target'.context = target.context := by
    rw [h'.directory, h.directory, hroot]
  cases target
  cases target'
  cases hsame
  cases hcontext
  rfl

/-- No walk with fewer levels returns a report from the target, at a place of an instance. -/
def Least (files : Texts) (s : Store) (settings : Settings) (v : Json) (place : Locator)
    (target : Target) (node : Json) (limit levels : Nat) : Prop :=
  ∀ fewer < levels, ∀ chain report, chain.limit = limit →
    (walk files settings fewer v node target.context place chain).outcome s ≠ .ok report

/-- A walk with no more levels than the least walk from a target needs returns its report also
behind this target, since it does not come back to it. -/
theorem walk_behind {limit : Nat} (htarget : target.context.Held files s)
    (hdocument : target.identity.document = target.context.root.location)
    (hnode : target.node = .ok node) :
    ∀ {levels}, Least files s settings v place target node limit levels →
      ∀ {context start chain}, context.Held files s → chain.limit = limit →
        Tracks (Grown files s) AnyError (walk files settings levels v start context place chain)
          (walk files settings levels v start context place (behind target.identity chain))
  | 0, _, _, _, _, _, _ => .of_fails fun _ _ _ => ⟨_, trivial, rfl⟩
  | levels + 1, hleast, context, start, chain, hcontext, hlimit => by
    -- The least walk stays the same while levels are used up.
    have hleast' : Least files s settings v place target node limit levels :=
      fun fewer hfewer => hleast fewer (Nat.lt_succ_of_lt hfewer)
    have hsteady := walk_steady files settings levels
    have htargets : TargetsTrack (Grown files s) AnyError files v context place
        (walk files settings levels) (walk files settings levels) chain
        (behind target.identity chain) := by
      intro text target' hreturns
      have hresolved := outcome_of_returns (Steady.resolveReference files text context) hreturns
      have hheld := held_of_resolved hcontext hresolved
      have hdocument' := document_of_resolved hresolved
      cases hc : chain.enter target'.identity text with
      | error e =>
        rw [visitTarget_of_error hc]
        exact .of_fails fun _ _ _ => ⟨e, trivial, outcome_throw e⟩
      | ok next =>
        have hlimit' : next.limit = limit := by
          obtain ⟨-, -, rfl⟩ := Chain.enter_eq_ok.mp hc
          exact hlimit
        by_cases hsame : target'.identity = target.identity
        · -- The walk has come back to the target: it fails there, with one level less.
          obtain rfl := Target.eq_of_identity htarget hheld hdocument hdocument' hsame
          rw [visitTarget_of_ok hc]
          refine .of_fails fun a b hab => ?_
          rw [hnode, outcome_bind_ok (outcome_lift _), after_lift,
            (hsteady _ _ _ _ _).stays hab.2]
          cases hr : (walk files settings levels v node target'.context place next).outcome s with
          | error e => exact ⟨e, trivial, rfl⟩
          | ok report => exact absurd hr (hleast levels (Nat.lt_succ_self _) next report hlimit')
        · -- Any other target is entered on both sides.
          rw [visitTarget_of_ok hc, visitTarget_of_ok (enter_behind hsame hc)]
          exact (Tracks.lift target'.node).bind fun _ _ =>
            walk_behind htarget hdocument hnode hleast' hheld hlimit'
    unfold walk
    cases start with
    | obj schema =>
      refine checkNode_tracks (loadsAlike_grown files s) rfl htargets
        (fun _ => walk_behind htarget hdocument hnode hleast' hcontext hlimit) fun w n p => ?_
      -- Inside the instance both chains are empty, and one has room for a reference more.
      exact walk_tracks_roomier rfl (Nat.le_refl _) (.start (Nat.le_succ _))
    | _ => exact .pure _

/-- A report from a target is also returned behind this target. -/
theorem walk_behind_target {limit levels : Nat} (htarget : target.context.Held files s)
    (hdocument : target.identity.document = target.context.root.location)
    (hnode : target.node = .ok node)
    (h : (walk files settings levels v node target.context place (.start limit)).outcome s =
      .ok report) :
    (walk files settings levels v node target.context place
      (behind target.identity (.start limit))).outcome s = .ok report := by
  -- Of all walks from the target that return a report, take one with the least levels.
  have hexists : ∃ levels chain report, chain.limit = limit ∧
      (walk files settings levels v node target.context place chain).outcome s = .ok report :=
    ⟨levels, _, report, rfl, h⟩
  classical
  obtain ⟨chain, least, hlimit, hr⟩ := Nat.find_spec hexists
  have hle : Nat.find hexists ≤ levels := Nat.find_min' hexists ⟨_, report, rfl, h⟩
  have hleast : Least files s settings v place target node limit (Nat.find hexists) :=
    fun fewer hfewer chain report hl hr => Nat.find_min hexists hfewer ⟨chain, report, hl, hr⟩
  -- Its report is the one that was given, as more levels and the empty chain lead to both.
  have hstart : (walk files settings levels v node target.context place (.start limit)).outcome s =
      .ok least := walk_mono rfl hle (.start (Nat.le_of_eq hlimit)) hr
  obtain rfl : least = report := Except.ok.inj (hstart.symm.trans h)
  have hbehind := ok_of_tracks (walk_behind htarget hdocument hnode hleast htarget hlimit) hr
  -- The chain of the least walk may have been longer; a chain with the target alone is roomier.
  refine walk_mono rfl hle ⟨?_, ?_, ?_⟩ hbehind
  · exact List.cons_subset_cons _ (List.nil_subset _)
  · exact Nat.succ_le_succ (Nat.zero_le _)
  · exact Nat.succ_le_succ (Nat.le_of_eq hlimit)

/-! ## Nodes that are only a reference -/

/-- Members that are checked by nothing are gone through without a violation. -/
theorem eachMember_pure_nil (members : Members) :
    eachMember (fun _ _ => pure []) members = pure [] := by
  induction members with
  | nil => rfl
  | cons p rest ih =>
    rw [eachMember, ih]
    rfl

/-- A reference alone asks nothing of a value of any kind. -/
theorem checkByKind_reference :
    checkByKind visit v [("$ref", .str reference)] context place chain = pure [] := by
  cases v with
  | obj members =>
    change (eachMember (fun _ _ => pure []) members >>= fun reports => pure ([] ++ reports)) = _
    rw [eachMember_pure_nil]
    rfl
  | _ => rfl

/-- A node that is only a reference is checked by checking its reference. -/
theorem checkNode_reference :
    checkNode files settings visit v [("$ref", .str reference)] context place chain =
      checkReference files visit v [("$ref", .str reference)] context place chain := by
  have hown : ∀ before, checkOwn visit v [("$ref", .str reference)] context place chain before =
      pure before := by
    intro before
    change (checkByKind visit v [("$ref", .str reference)] context place chain >>= fun rest =>
      pure (before ++ [] ++ rest)) = _
    rw [checkByKind_reference, pure_bind, List.append_nil, List.append_nil]
  have hany : checkAnyOf settings visit v [("$ref", .str reference)] context place chain = pure [] :=
    rfl
  simp only [checkNode_eq, hany, hown, pure_bind, List.append_nil, bind_pure]

/-- A walk from a node that is only a reference enters the chain and goes on at its target. -/
theorem walk_reference_eq_ok (leads : LeadsTo files s context reference target node)
    {levels : Nat} :
    (walk files settings (levels + 1) v (.obj [("$ref", .str reference)]) context place
        chain).outcome s = .ok report ↔
      ∃ next, chain.enter target.identity reference = .ok next ∧
        (walk files settings levels v node target.context place next).outcome s = .ok report := by
  have hwalk : walk files settings (levels + 1) v (.obj [("$ref", .str reference)]) context place
      chain = checkNode files settings (walk files settings levels) v [("$ref", .str reference)]
        context place chain := rfl
  rw [hwalk, checkNode_reference, checkReference_eq,
    outcome_follow (fun _ _ _ => walk_steady files settings levels _ _ _ _ _) rfl]
  constructor
  · intro h
    obtain ⟨text, htext, hread⟩ := bind_eq_ok.mp h
    obtain ⟨target', hresolved, hfollowed⟩ := bind_eq_ok.mp hread
    obtain ⟨next, hnext, hentered⟩ := bind_eq_ok.mp hfollowed
    obtain ⟨node', hnode, hvisited⟩ := bind_eq_ok.mp hentered
    cases htext
    obtain ⟨rfl, rfl⟩ := leads.unique ⟨hresolved, hnode⟩
    exact ⟨next, hnext, hvisited⟩
  · rintro ⟨next, hnext, h⟩
    exact bind_eq_ok.mpr ⟨reference, rfl, bind_eq_ok.mpr ⟨target, leads.resolved,
      bind_eq_ok.mpr ⟨next, hnext, bind_eq_ok.mpr ⟨node, leads.found, h⟩⟩⟩⟩

/-- A report from a reference is also returned from its target. -/
theorem walk_target (leads : LeadsTo files s context reference target node) {levels limit : Nat}
    (h : (walk files settings levels v (.obj [("$ref", .str reference)]) context place
      (.start limit)).outcome s = .ok report) :
    (walk files settings levels v node target.context place (.start limit)).outcome s =
      .ok report := by
  cases levels with
  | zero => cases h
  | succ levels =>
    obtain ⟨next, he, h⟩ := (walk_reference_eq_ok leads).mp h
    obtain ⟨-, -, rfl⟩ := Chain.enter_eq_ok.mp he
    exact walk_mono rfl (Nat.le_succ _) (.start (Nat.le_refl _)) h

/-- A report from the target of a reference is also returned from the reference, with one level and
one reference more. -/
theorem walk_referrer (leads : LeadsTo files s context reference target node)
    (hcontext : context.Held files s) {levels limit : Nat}
    (h : (walk files settings levels v node target.context place (.start limit)).outcome s =
      .ok report) :
    (walk files settings (levels + 1) v (.obj [("$ref", .str reference)]) context place
      (.start (limit + 1))).outcome s = .ok report := by
  have he : (Chain.start (limit + 1)).enter target.identity reference =
      .ok (behind target.identity (.start limit)) :=
    Chain.enter_eq_ok.mpr ⟨List.not_mem_nil, Nat.succ_pos _, rfl⟩
  have htarget := held_of_resolved hcontext leads.resolved
  have hdocument := document_of_resolved leads.resolved
  exact (walk_reference_eq_ok leads).mpr
    ⟨_, he, walk_behind_target htarget hdocument leads.found h⟩

/-- Validating against a reference that is resolved in a held context, and validating against the
node it leads to, in the context of that node, return the same reports: against the node under the
same ceilings, and against the reference under ceilings that are higher by one. The stores may have
grown in between. -/
theorem validateNode_reference (files : FileTree) (s t t' : Store) (context : Context)
    (reference : String) (target : Target) (node : Json) (hcontext : context.Held files s)
    (hresolved : (resolveReference files reference context).outcome s = .ok target)
    (hnode : target.node = .ok node) (ht : Store.Extends files s t)
    (ht' : Store.Extends files s t') (v : Json) (place : Locator) (verbose : Bool)
    (maxRefChain maxDepth : Nat) (report : Report) :
    ((validateNode files ⟨maxRefChain, maxDepth, verbose⟩ v (.obj [("$ref", .str reference)]) context
          place).outcome t = .ok report →
        (validateNode files ⟨maxRefChain, maxDepth, verbose⟩ v node target.context place).outcome
          t' = .ok report) ∧
      ((validateNode files ⟨maxRefChain, maxDepth, verbose⟩ v node target.context place).outcome t' =
          .ok report →
        (validateNode files ⟨maxRefChain + 1, maxDepth + 1, verbose⟩ v
          (.obj [("$ref", .str reference)]) context place).outcome t = .ok report) := by
  have leads : LeadsTo files s context reference target node := ⟨hresolved, hnode⟩
  unfold validateNode
  -- All outcomes are those on the store in which the reference was resolved.
  rw [(walk_steady _ _ _ _ _ _ _ _).stays ht, (walk_steady _ _ _ _ _ _ _ _).stays ht',
    (walk_steady _ _ _ _ _ _ _ _).stays ht]
  constructor
  · exact walk_target leads
  · intro h
    have hsettings : (walk files ⟨maxRefChain + 1, maxDepth + 1, verbose⟩ (maxDepth + 1) v node
        target.context place (.start maxRefChain)).outcome s = .ok report := by
      refine walk_mono ?_ ?_ ?_ h
      · rfl
      · exact Nat.le_refl _
      · exact .refl _
    exact walk_referrer leads hcontext hsettings

set_option maxRecDepth 10000 in
/-- The reference to the root of the schema of lists reports of the broken list what the root
does. -/
theorem brokenList_reference :
    (validateNode (.empty .root) ⟨1, 12, false⟩ brokenList listSchema.root (.ofDocument listSchema)
        .root).outcome ⟨[listSchema]⟩ =
      .ok [⟨⟨[.name "tail"]⟩, .anyOf, "does not match anyOf options"⟩] ∧
    (validateNode (.empty .root) ⟨2, 13, false⟩ brokenList (.obj [("$ref", .str "#")])
        (.ofDocument listSchema) .root).outcome ⟨[listSchema]⟩ =
      .ok [⟨⟨[.name "tail"]⟩, .anyOf, "does not match anyOf options"⟩] ∧
    (validateNode (.empty .root) ⟨2, 13, false⟩ brokenList listSchema.root (.ofDocument listSchema)
        .root).outcome ⟨[listSchema]⟩ =
      .ok [⟨⟨[.name "tail"]⟩, .anyOf, "does not match anyOf options"⟩] := by
  have hroot : (validateNode (.empty .root) ⟨1, 12, false⟩ brokenList listSchema.root
      (.ofDocument listSchema) .root).outcome ⟨[listSchema]⟩ =
        .ok [⟨⟨[.name "tail"]⟩, .anyOf, "does not match anyOf options"⟩] := by rfl
  have hcontext : (Context.ofDocument listSchema).Held (FileTree.empty .root) ⟨[listSchema]⟩ :=
    ⟨rfl, documentAt_of_find? (by rfl)⟩
  have hboth := validateNode_reference (.empty .root) ⟨[listSchema]⟩ ⟨[listSchema]⟩ ⟨[listSchema]⟩
    (.ofDocument listSchema) "#" ⟨⟨listSchema.location, ""⟩, .ofDocument listSchema⟩ listSchema.root
    hcontext (by rfl) (by rfl) (.refl _ _) (.refl _ _) brokenList .root false
  have hreference := (hboth 1 12 _).2 hroot
  exact ⟨hroot, hreference, (hboth 2 13 _).1 hreference⟩

end LinkedSchema.Structural
