import LinkedSchema.Proofs.Exactness
import LinkedSchema.Proofs.Judgements

/-!
# The recursion of the check ends

The walk through the reference graph is stated with levels, which never run out. Here it is stated
without them, as a list of calls still to be made: a `Call` starts a location or goes through a
node, and `Call.perform` tells which calls it makes, in order. A `Run` performs the calls one after
the other until none is left or one fails, and logs them. It is finite by definition, so the
recursion ends if there is a run.

There is one wherever the walk does not run out of levels (`walk_performs`), which the check never
does, and there is no other one (`Run.unique`). What a single call does (`perform_makes`,
`perform_expands`) and where it leads from a placed call (`Call.Makes.placed`) is carried along the
run to all calls: a location is expanded once, the identities of a chain differ and are targets of
references that are written somewhere, and every other step in place leads to a smaller value.
-/

namespace LinkedSchema.ReferenceGraph

open Loading

/-! ## Calls -/

/-- A call of the recursion. -/
inductive Call where
  /-- A node is the start of a new location. -/
  | location (node : Json) (context : Context) (pointer : String)
  /-- A node is gone through at the place of the instance that a chain belongs to; `nesting` counts
  the calls at this place in which it is made. -/
  | node (node : Json) (context : Context) (pointer : String) (chain : Chain) (nesting : Nat)

/-- Where the reference of a node leads, if it has one, with the chain that goes on there. -/
def reach (files : Texts) (schema : Members) (context : Context) (chain : Chain) :
    Loading (Option (Target × Chain × Json)) :=
  follow files schema context chain none fun target chain next => pure (some (target, chain, next))

/-- The call at the target of a reference, if there is one. -/
def calleeBehind (nesting : Nat) (behind : Option (Target × Chain × Json)) : List Call :=
  match behind with
  | none => []
  | some (target, chain, next) =>
    [.node next target.context target.identity.pointer chain (nesting + 1)]

/-- The calls that a node makes: at the target of its reference, at the subschemas that apply to the
same value, and at those that apply to a part of it. -/
def callees (schema : Members) (context : Context) (pointer : String) (chain : Chain)
    (nesting : Nat) (behind : Option (Target × Chain × Json)) : List Call :=
  calleeBehind nesting behind ++
    ((inPlace schema pointer).map (fun p => .node p.2 context p.1 chain (nesting + 1)) ++
      (parts schema pointer).map fun p => .location p.2 context p.1)

/-- What a call does: the calls that it makes, and the locations expanded then. -/
def Call.perform (files : Texts) (limit : Nat) (expanded : Expanded) :
    Call → Loading (List Call × Expanded)
  | .location v context pointer =>
    let identity := Identity.of context.root.location pointer
    if identity ∈ expanded then pure ([], expanded)
    else pure ([.node v context pointer (.start limit) 0], identity :: expanded)
  | .node v context pointer chain nesting =>
    match v with
    | .obj schema => do
      let behind ← reach files schema context chain
      pure (callees schema context pointer chain nesting behind, expanded)
    | _ => pure ([], expanded)

/-- A call that was made: the locations expanded before, and the calls that it made itself. -/
structure Entry where
  /-- The call. -/
  call : Call
  /-- The locations expanded before. -/
  expanded : Expanded
  /-- The calls that it made, none if it failed. -/
  callees : List Call

/-- Performs calls one after the other, each followed by those that it makes, until none is left or
one fails. The log has an entry for each call. -/
inductive Run (files : Texts) (limit : Nat) : List Call → Expanded → Store → List Entry →
    Except SchemaError Expanded → Store → Prop
  /-- No call is left. -/
  | done {expanded s} : Run files limit [] expanded s [] (.ok expanded) s
  /-- A call fails. -/
  | fail {call rest expanded s e t}
    (h : (call.perform files limit expanded).runOn s = (.error e, t)) :
    Run files limit (call :: rest) expanded s [⟨call, expanded, []⟩] (.error e) t
  /-- A call makes other ones. -/
  | call {call rest expanded s made expanded' t log r u}
    (h : (call.perform files limit expanded).runOn s = (.ok (made, expanded'), t))
    (hrun : Run files limit (made ++ rest) expanded' t log r u) :
    Run files limit (call :: rest) expanded s (⟨call, expanded, made⟩ :: log) r u

/-- The location that an entry of the log expands, if it does. -/
def Entry.expands? (entry : Entry) : Option Identity :=
  match entry.call with
  | .location _ context pointer =>
    let identity := Identity.of context.root.location pointer
    if identity ∈ entry.expanded then none else some identity
  | .node .. => none

/-- The locations expanded by the calls of a log, in order. -/
def expansions (log : List Entry) : List Identity := log.filterMap Entry.expands?

/-- How a call makes another one. -/
inductive Call.Makes (files : Texts) (s : Store) (limit : Nat) : Call → Call → Prop
  /-- A location is expanded: its node is gone through with a fresh chain. -/
  | expand {v context pointer} :
    Makes files s limit (.location v context pointer) (.node v context pointer (.start limit) 0)
  /-- The target of a reference is not on the chain, which holds it from there on. -/
  | reference {schema context pointer chain nesting text target chain' next}
    (hnew : target.identity ∉ chain.visited)
    (follows : FollowsTo files s context schema chain text target chain' next) :
    Makes files s limit (.node (.obj schema) context pointer chain nesting)
      (.node next target.context target.identity.pointer chain' (nesting + 1))
  /-- A subschema that applies to the same value is smaller, and keeps the chain. -/
  | inPlace {schema context pointer chain nesting q v} (hmem : (q, v) ∈ inPlace schema pointer)
    (hless : v.size < (Json.obj schema).size) :
    Makes files s limit (.node (.obj schema) context pointer chain nesting)
      (.node v context q chain (nesting + 1))
  /-- A subschema that applies to a part of the value is a new location, and smaller. -/
  | part {schema context pointer chain nesting q v} (hmem : (q, v) ∈ parts schema pointer)
    (hless : v.size < (Json.obj schema).size) :
    Makes files s limit (.node (.obj schema) context pointer chain nesting) (.location v context q)

variable {files : Texts} {limit : Nat} {s t u : Store} {schema : Members} {context : Context}
  {pointer : String} {chain : Chain} {nesting : Nat} {expanded expanded' : Expanded} {v w : Json}
  {calls rest made : List Call} {call : Call} {log log' : List Entry}
  {r r' : Except SchemaError Expanded}

/-- There is only one run. -/
theorem Run.unique (h : Run files limit calls expanded s log r t)
    (h' : Run files limit calls expanded s log' r' u) : log' = log ∧ r' = r ∧ u = t := by
  induction h generalizing log' with
  | done =>
    cases h'
    exact ⟨rfl, rfl, rfl⟩
  | fail h =>
    cases h' with
    | fail h' =>
      cases h.symm.trans h'
      exact ⟨rfl, rfl, rfl⟩
    | call h' => cases h.symm.trans h'
  | call h _ ih =>
    cases h' with
    | fail h' => cases h.symm.trans h'
    | call h' hrun =>
      cases h.symm.trans h'
      obtain ⟨rfl, rfl, rfl⟩ := ih hrun
      exact ⟨rfl, rfl, rfl⟩

/-- After some calls, others are performed. -/
theorem Run.append (h : Run files limit calls expanded s log (.ok expanded') t)
    (h' : Run files limit rest expanded' t log' r u) :
    Run files limit (calls ++ rest) expanded s (log ++ log') r u := by
  generalize hr : (Except.ok expanded' : Except SchemaError Expanded) = r₁ at h
  induction h with
  | done =>
    cases hr
    exact h'
  | fail => cases hr
  | @call _ others _ _ made _ _ _ _ _ h _ ih =>
    have hassoc := List.append_assoc made others rest
    exact .call h (hassoc ▸ ih h' hr)

/-- After a failure, no other calls are performed. -/
theorem Run.append_error {e : SchemaError} (h : Run files limit calls expanded s log (.error e) t)
    (rest : List Call) : Run files limit (calls ++ rest) expanded s log (.error e) t := by
  generalize hr : (Except.error e : Except SchemaError Expanded) = r₁ at h
  induction h with
  | done => cases hr
  | fail h =>
    cases hr
    exact .fail h
  | @call _ others _ _ made _ _ _ _ _ h _ ih =>
    have hassoc := List.append_assoc made others rest
    exact .call h (hassoc ▸ ih hr)

/-! ## Reaching the target of a reference -/

/-- Reaching the target of a reference is steady. -/
theorem reach_steady (files : Texts) (schema : Members) (context : Context) (chain : Chain) :
    Steady files (reach files schema context chain) :=
  follow_steady fun _ _ _ => .pure _

/-- What is reached is the target of the reference, with a chain that may be entered. -/
theorem reach_eq_some {target : Target} {chain' : Chain}
    (h : (reach files schema context chain).outcome s = .ok (some (target, chain', w))) :
    ∃ text, FollowsTo files s context schema chain text target chain' w := by
  rcases follow_eq_ok (fun _ _ _ => .pure _) h with
    ⟨-, hnone, -⟩ | ⟨text, _, _, _, follows, hreached, -⟩
  · cases hnone
  · cases hreached
    exact ⟨text, follows⟩

/-! ## The walk is a run -/

/-- A computation performs calls, unless it runs out of levels. -/
def Performs (files : Texts) (limit : Nat) (calls : List Call)
    (x : Expanded → Loading Expanded) : Prop :=
  ∀ expanded s, (∀ n place, (x expanded).outcome s ≠ .error (.depthExceeded n place)) →
    ∃ log, Run files limit calls expanded s log ((x expanded).outcome s) ((x expanded).after s)

/-- Doing nothing performs no calls. -/
theorem Performs.nil : Performs files limit [] pure :=
  fun _ _ _ => ⟨[], .done⟩

/-- A sequence performs the calls of its parts. -/
theorem Performs.append {x y : Expanded → Loading Expanded} (hx : Performs files limit calls x)
    (hy : Performs files limit rest y) :
    Performs files limit (calls ++ rest) fun expanded => x expanded >>= y := by
  intro expanded s hlevels
  cases hr : (x expanded).outcome s with
  | error e =>
    rw [outcome_bind_error hr] at hlevels ⊢
    obtain ⟨log, hrun⟩ := hx expanded s (hr ▸ hlevels)
    rw [hr] at hrun
    rw [after_bind_error hr]
    exact ⟨log, hrun.append_error rest⟩
  | ok expanded' =>
    rw [outcome_bind_ok hr] at hlevels ⊢
    obtain ⟨log, hrun⟩ := hx expanded s fun n place he => by cases hr.symm.trans he
    obtain ⟨log', hrun'⟩ := hy expanded' _ hlevels
    rw [hr] at hrun
    rw [after_bind_ok hr]
    exact ⟨log ++ log', hrun.append hrun'⟩

/-- Visiting subschemas one after the other performs a call for each of them. -/
theorem Performs.each {visit : String → Json → Expanded → Loading Expanded}
    {callOf : String × Json → Call} : ∀ {subschemas : List (String × Json)},
      (∀ p ∈ subschemas, Performs files limit [callOf p] (visit p.1 p.2)) →
      Performs files limit (subschemas.map callOf) (ReferenceGraph.each visit subschemas)
  | [], _ => .nil
  | p :: _, h =>
    (h p List.mem_cons_self).append (Performs.each fun p hp => h p (List.mem_cons_of_mem _ hp))

/-- Expanding a location performs its call. -/
theorem Performs.expand {visit : Visit}
    (h : Performs files limit [.node v context pointer (.start limit) 0]
      (visit v context pointer (.start limit))) :
    Performs files limit [.location v context pointer]
      (ReferenceGraph.expand visit v context pointer limit) := by
  intro expanded s hlevels
  unfold ReferenceGraph.expand at hlevels ⊢
  dsimp only at hlevels ⊢
  by_cases hmem : Identity.of context.root.location pointer ∈ expanded
  · rw [if_pos hmem]
    have hcall : ((Call.location v context pointer).perform files limit expanded).runOn s =
        (.ok ([], expanded), s) := by
      rw [Call.perform, if_pos hmem]
      rfl
    exact ⟨_, .call hcall .done⟩
  · rw [if_neg hmem] at hlevels ⊢
    have hcall : ((Call.location v context pointer).perform files limit expanded).runOn s =
        (.ok ([.node v context pointer (.start limit) 0],
          Identity.of context.root.location pointer :: expanded), s) := by
      rw [Call.perform, if_neg hmem]
      rfl
    obtain ⟨log, hrun⟩ := h _ s hlevels
    exact ⟨_, .call hcall hrun⟩

/-- Goes on behind a reference, if there is one. -/
def visitBehind (visit : Visit) (behind : Option (Target × Chain × Json)) (expanded : Expanded) :
    Loading Expanded :=
  match behind with
  | none => pure expanded
  | some (target, chain, next) => visit next target.context target.identity.pointer chain expanded

/-- Following a reference is reaching its target and going on there. -/
theorem followReference_eq_reach {visit : Visit} :
    followReference files visit schema context chain expanded =
      reach files schema context chain >>= fun behind => visitBehind visit behind expanded := by
  unfold followReference reach follow visitBehind
  cases schema.lookup "$ref" with
  | none => rfl
  | some reference => simp only [bind_assoc, pure_bind]

/-- How a walk goes on performs calls at nodes. -/
def VisitPerforms (files : Texts) (limit : Nat) (visit : Visit) : Prop :=
  ∀ v context pointer chain nesting, chain.limit = limit →
    Performs files limit [.node v context pointer chain nesting] (visit v context pointer chain)

/-- Going through an object performs its call, if going on performs the calls that it makes. -/
theorem VisitPerforms.node {visit : Visit} (h : VisitPerforms files limit visit)
    (hlimit : chain.limit = limit) :
    Performs files limit [.node (.obj schema) context pointer chain nesting]
      (visitNode files visit schema context pointer chain) := by
  intro expanded s hlevels
  -- The reference is reached first, and all that comes then performs the calls that are made.
  have hafter : ∀ behind, (reach files schema context chain).outcome s = .ok behind →
      Performs files limit (callees schema context pointer chain nesting behind) fun expanded =>
        visitBehind visit behind expanded >>= fun expanded =>
          each (fun q v => visit v context q chain) (inPlace schema pointer) expanded >>=
            each (fun q v => expand visit v context q chain.limit) (parts schema pointer) := by
    intro behind hbehind
    refine Performs.append ?_ (Performs.append (Performs.each ?_) (Performs.each ?_))
    · cases behind with
      | none => exact .nil
      | some p =>
        obtain ⟨text, follows⟩ := reach_eq_some hbehind
        obtain ⟨-, -, he⟩ := Chain.enter_eq_ok.mp follows.entered
        exact h _ _ _ _ _ (he ▸ hlimit)
    · exact fun p _ => h _ _ _ _ _ hlimit
    · rw [hlimit]
      exact fun p _ => (h _ _ _ _ _ rfl).expand
  have hsplit : visitNode files visit schema context pointer chain expanded =
      reach files schema context chain >>= fun behind =>
        visitBehind visit behind expanded >>= fun expanded =>
          each (fun q v => visit v context q chain) (inPlace schema pointer) expanded >>=
            each (fun q v => expand visit v context q chain.limit) (parts schema pointer) := by
    unfold visitNode
    rw [followReference_eq_reach, bind_assoc]
  rw [hsplit] at hlevels ⊢
  cases hr : (reach files schema context chain).outcome s with
  | error e =>
    have hcall : ((Call.node (.obj schema) context pointer chain nesting).perform files limit
        expanded).runOn s = (.error e, (reach files schema context chain).after s) := by
      rw [runOn_eq, Call.perform, outcome_bind_error hr, after_bind_error hr]
    rw [outcome_bind_error hr, after_bind_error hr]
    exact ⟨_, .fail hcall⟩
  | ok behind =>
    have hcall : ((Call.node (.obj schema) context pointer chain nesting).perform files limit
        expanded).runOn s = (.ok (callees schema context pointer chain nesting behind, expanded),
          (reach files schema context chain).after s) := by
      rw [runOn_eq, Call.perform, outcome_bind_ok hr, after_bind_ok hr]
      rfl
    rw [outcome_bind_ok hr] at hlevels ⊢
    rw [after_bind_ok hr]
    obtain ⟨log, hrun⟩ := hafter behind hr expanded _ hlevels
    rw [← List.append_nil (callees ..)] at hrun
    exact ⟨_, .call hcall hrun⟩

/-- The walk performs calls, with any number of levels. -/
theorem walk_performs (files : Texts) (limit : Nat) :
    ∀ levels, VisitPerforms files limit (walk files levels)
  | 0 => fun _ _ _ _ _ _ _ _ hlevels => absurd rfl (hlevels _ _)
  | levels + 1 => fun v context pointer chain nesting hlimit => by
    cases v with
    | obj schema => exact (walk_performs files limit levels).node hlimit
    | _ => exact fun expanded s _ => ⟨_, .call rfl .done⟩

/-! ## What one call does -/

/-- Performing a call is steady. -/
theorem perform_steady (files : Texts) (limit : Nat) (expanded : Expanded) (call : Call) :
    Steady files (call.perform files limit expanded) := by
  cases call with
  | location v context pointer =>
    unfold Call.perform
    dsimp only
    split <;> exact .pure _
  | node v context pointer chain nesting =>
    cases v with
    | obj schema => exact (reach_steady files schema context chain).bind fun _ => .pure _
    | _ => exact .pure _

/-- A call that is performed makes other calls in one of these ways. -/
theorem perform_makes
    (h : (call.perform files limit expanded).outcome s = .ok (made, expanded')) :
    ∀ c ∈ made, call.Makes files s limit c := by
  intro c hc
  cases call with
  | location v context pointer =>
    unfold Call.perform at h
    dsimp only at h
    split at h
    · cases h
      cases hc
    · cases h
      cases List.mem_singleton.mp hc
      exact .expand
  | node v context pointer chain nesting =>
    cases v with
    | obj schema =>
      obtain ⟨behind, hbehind, hmade⟩ := (outcome_bind_eq_ok
        (reach_steady files schema context chain) fun _ => .pure _).mp h
      cases hmade
      rcases List.mem_append.mp hc with hc | hc
      · cases behind with
        | none => cases hc
        | some p =>
          cases List.mem_singleton.mp hc
          obtain ⟨text, follows⟩ := reach_eq_some hbehind
          exact .reference (Chain.enter_eq_ok.mp follows.entered).1 follows
      · rcases List.mem_append.mp hc with hc | hc
        · obtain ⟨p, hp, rfl⟩ := List.mem_map.mp hc
          exact .inPlace hp (below_of_mem_inPlace hp).smaller
        · obtain ⟨p, hp, rfl⟩ := List.mem_map.mp hc
          exact .part hp (below_of_mem_parts hp).smaller
    | _ =>
      cases h
      cases hc

/-- On a store that has grown, a call makes other calls in the same ways, and the store grows. -/
theorem perform_step (ht : Store.Extends files s t)
    (h : (call.perform files limit expanded).runOn t = (.ok (made, expanded'), u)) :
    (∀ c ∈ made, call.Makes files s limit c) ∧ Store.Extends files s u := by
  have hsteady := perform_steady files limit expanded call
  have houtcome : (call.perform files limit expanded).outcome t = .ok (made, expanded') :=
    congrArg Prod.fst h
  have hafter : (call.perform files limit expanded).after t = u := congrArg Prod.snd h
  exact ⟨perform_makes ((hsteady.stays ht).symm.trans houtcome),
    ht.trans (hafter ▸ hsteady.grows t)⟩

/-- A location that is expanded was not expanded before. -/
theorem Entry.nodup (entry : Entry) (h : entry.expanded.Nodup) :
    (entry.expands?.toList ++ entry.expanded).Nodup := by
  obtain ⟨call, expanded, made⟩ := entry
  cases call with
  | location v context pointer =>
    unfold Entry.expands?
    dsimp only
    split
    · exact h
    · next hnew => exact List.nodup_cons.mpr ⟨hnew, h⟩
  | node => exact h

/-- A call that is performed adds the location that it expands. -/
theorem perform_expands
    (h : (call.perform files limit expanded).outcome s = .ok (made, expanded')) :
    expanded' = (Entry.expands? ⟨call, expanded, made⟩).toList ++ expanded := by
  cases call with
  | location v context pointer =>
    unfold Call.perform at h
    unfold Entry.expands?
    dsimp only at h ⊢
    by_cases hmem : Identity.of context.root.location pointer ∈ expanded
    · rw [if_pos hmem] at h ⊢
      cases h
      rfl
    · rw [if_neg hmem] at h ⊢
      cases h
      rfl
  | node v context pointer chain nesting =>
    cases v with
    | obj schema =>
      obtain ⟨behind, -, hmade⟩ := (outcome_bind_eq_ok
        (reach_steady files schema context chain) fun _ => .pure _).mp h
      cases hmade
      rfl
    | _ =>
      cases h
      rfl

/-! ## What a whole run does -/

/-- The calls of a run make other calls in the ways in which one call does. -/
theorem Run.makes (h : Run files limit calls expanded t log r u) (ht : Store.Extends files s t) :
    ∀ entry ∈ log, ∀ c ∈ entry.callees, entry.call.Makes files s limit c := by
  induction h with
  | done => exact fun _ hentry => nomatch hentry
  | fail =>
    intro entry hentry c hc
    cases List.mem_singleton.mp hentry
    cases hc
  | call h _ ih =>
    obtain ⟨hmakes, ht'⟩ := perform_step ht h
    intro entry hentry
    rcases List.mem_cons.mp hentry with rfl | hentry
    · exact hmakes
    · exact ih ht' entry hentry

/-- What is true of the calls at the start, and is handed on to the calls that are made, is true of
all calls of a run. -/
theorem Run.forall {P : Call → Prop} (h : Run files limit calls expanded t log r u)
    (ht : Store.Extends files s t) (hP : ∀ {c d}, c.Makes files s limit d → P c → P d)
    (hcalls : ∀ c ∈ calls, P c) : ∀ entry ∈ log, P entry.call := by
  induction h with
  | done => exact fun _ hentry => nomatch hentry
  | fail =>
    intro entry hentry
    cases List.mem_singleton.mp hentry
    exact hcalls _ List.mem_cons_self
  | call h _ ih =>
    obtain ⟨hmakes, ht'⟩ := perform_step ht h
    have hcall := hcalls _ List.mem_cons_self
    intro entry hentry
    rcases List.mem_cons.mp hentry with rfl | hentry
    · exact hcall
    · refine ih ht' (fun c hc => ?_) entry hentry
      rcases List.mem_append.mp hc with hc | hc
      · exact hP (hmakes c hc) hcall
      · exact hcalls c (List.mem_cons_of_mem _ hc)

/-- The location that the first entry expands comes first. -/
theorem reverse_expansions_cons (entry : Entry) (log : List Entry) :
    (expansions (entry :: log)).reverse = (expansions log).reverse ++ entry.expands?.toList := by
  unfold expansions
  rw [List.filterMap_cons]
  cases entry.expands? with
  | none => exact (List.append_nil _).symm
  | some i => exact List.reverse_cons

/-- A run expands no location twice, and none that was expanded before. -/
theorem Run.nodup (h : Run files limit calls expanded s log r t) (hexpanded : expanded.Nodup) :
    ((expansions log).reverse ++ expanded).Nodup := by
  induction h with
  | done => exact hexpanded
  | @fail call _ expanded =>
    rw [reverse_expansions_cons]
    exact Entry.nodup ⟨call, expanded, []⟩ hexpanded
  | @call call _ expanded _ made expanded' _ log _ _ h _ ih =>
    have hentry := Entry.nodup ⟨call, expanded, made⟩ hexpanded
    have he := perform_expands (congrArg Prod.fst h)
    rw [reverse_expansions_cons, List.append_assoc, ← he]
    exact ih (he ▸ hentry)

/-! ## Where the calls are -/

/-- The targets of all references that are written in some document. -/
def targets (files : Texts) (s : Store) (start : Document) : List Identity :=
  (available files s start).flatMap fun d => (places "" d.root).filterMap fun p =>
    (target? files s (total files s start) (.ofDocument d) p.2).map fun found => found.1.identity

/-- There are no more targets than values. -/
theorem length_targets_le (files : Texts) (s : Store) (start : Document) :
    (targets files s start).length ≤ total files s start := by
  have hone : ∀ d ∈ available files s start, ((places "" d.root).filterMap fun p =>
      (target? files s (total files s start) (.ofDocument d) p.2).map
        fun found => found.1.identity).length ≤ rootSize d * 1 := by
    intro d _
    have hcount := List.length_filterMap_le (fun p : String × Json =>
      (target? files s (total files s start) (.ofDocument d) p.2).map
        fun found => found.1.identity) (places "" d.root)
    rw [length_places] at hcount
    rw [Nat.mul_one]
    exact hcount
  have hall := length_flatMap_le hone
  rw [sumOf_available, Nat.mul_one] at hall
  exact hall

/-- Where a call can be made in a check: its chain is fair and holds targets of references, and it
is nested no deeper than the chain and its node allow. -/
def Call.Placed (files : Texts) (s : Store) (start : Document) (limit : Nat) : Call → Prop
  | .location v context pointer => Sited files s start context pointer v
  | .node v context pointer chain nesting =>
    Sited files s start context pointer v ∧ chain.Fair limit ∧
      chain.visited ⊆ targets files s start ∧
      nesting + v.size ≤ (chain.visited.length + 1) * total files s start

variable {start : Document} {callee : Call}

/-- A call hands on where it can be made to the calls that it makes. -/
theorem Call.Makes.placed (h : call.Makes files s limit callee)
    (hplaced : call.Placed files s start limit) : callee.Placed files s start limit := by
  cases h with
  | expand =>
    refine ⟨hplaced, .start limit, List.nil_subset _, ?_⟩
    have hsize := hplaced.size_le
    simp only [Chain.start, List.length_nil]
    omega
  | @reference schema context _ chain nesting _ target chain' next hnew follows =>
    obtain ⟨hsited, hfair, hknown, hnesting⟩ := hplaced
    have htarget := hsited.target follows.reference follows.leads
    obtain ⟨p, hp, hcounted⟩ := hsited.counted follows.reference follows.leads
    have hmem : target.identity ∈ targets files s start :=
      List.mem_flatMap.mpr ⟨context.root, hsited.available, List.mem_filterMap.mpr
        ⟨p, hp, by rw [hcounted]; rfl⟩⟩
    obtain ⟨-, -, he⟩ := Chain.enter_eq_ok.mp follows.entered
    have hvisited : chain'.visited = chain.visited ++ [target.identity] := by rw [he]
    refine ⟨htarget, hfair.enter follows.entered, ?_, ?_⟩
    · rw [hvisited]
      exact List.append_subset.mpr ⟨hknown, List.cons_subset.mpr ⟨hmem, List.nil_subset _⟩⟩
    · have hsize := htarget.size_le
      have hpos := Json.size_pos (.obj schema)
      have hmul := Nat.add_one_mul (chain.visited.length + 1) (total files s start)
      rw [hvisited, List.length_append, List.length_singleton]
      omega
  | inPlace hmem hless =>
    obtain ⟨hsited, hfair, hknown, hnesting⟩ := hplaced
    exact ⟨hsited.below (below_of_mem_inPlace hmem), hfair, hknown, by omega⟩
  | part hmem hless => exact hplaced.1.below (below_of_mem_parts hmem)

/-- What an entry expands can be expanded. -/
theorem Entry.mem_candidates {entry : Entry} {i : Identity}
    (h : entry.call.Placed files s start limit) (hi : entry.expands? = some i) :
    i ∈ candidates files s start := by
  obtain ⟨call, expanded, made⟩ := entry
  cases call with
  | location v context pointer =>
    unfold Entry.expands? at hi
    dsimp only at hi
    split at hi
    · cases hi
    · cases hi
      exact Sited.mem h
  | node => cases hi

/-! ## The check -/

/-- The calls with which a check starts. -/
def startCalls (schema : Document) : List Call :=
  [.location schema.root (.ofDocument schema) ""]

/-- A computation whose result is dropped leaves the same store, and fails in the same way. -/
theorem runOn_drop {α : Type} (x : Loading α) (s : Store) :
    Loading.runOn (x >>= fun _ => pure ()) s = ((x.outcome s).map fun _ => (), x.after s) := by
  cases hr : x.outcome s with
  | error e => rw [runOn_eq, outcome_bind_error hr, after_bind_error hr, Except.map]
  | ok a => rw [runOn_eq, outcome_bind_ok hr, after_bind_ok hr, outcome_pure, after_pure, Except.map]

/-- The check performs its calls. -/
theorem exists_run (hlisted : files.Listed) (s : Store) (hnormal : start.location.Normal)
    (limit : Nat) :
    ∃ log result, Run files limit (startCalls start) [] s log result
        ((check files start limit).after s) ∧
      (check files start limit).outcome s = result.map fun _ => () := by
  have hperforms := (walk_performs files limit (levels (weight files s + start.root.size) limit)
    start.root (.ofDocument start) "" (.start limit) 0 rfl).expand
  have hcheck := (check_runOn files start limit s).trans (runOn_drop _ s)
  have houtcome : (check files start limit).outcome s = _ := congrArg Prod.fst hcheck
  have hafter : (check files start limit).after s = _ := congrArg Prod.snd hcheck
  obtain ⟨log, hrun⟩ := hperforms [] s fun n place he =>
    check_ne_depthExceeded hlisted s hnormal limit n place (houtcome.trans (by rw [he]; rfl))
  exact ⟨log, _, hafter ▸ hrun, houtcome⟩

/-- What bounds a call: the identities of its chain differ, and there are at most as many as the
limit and as all values; the calls that it is nested in are at most so many for each of them. -/
def Call.Bounded (limit total : Nat) : Call → Prop
  | .location .. => True
  | .node v _ _ chain nesting =>
    chain.visited.Nodup ∧ chain.visited.length ≤ min limit total ∧
      nesting + v.size ≤ (chain.visited.length + 1) * total

/-- A call is bounded where it can be made. -/
theorem Call.Placed.bounded (h : call.Placed files s start limit) :
    call.Bounded limit (total files s start) := by
  cases call with
  | location => trivial
  | node v context pointer chain nesting =>
    obtain ⟨-, hfair, hknown, hnesting⟩ := h
    have hlength := (List.subperm_of_subset hfair.distinct hknown).length_le
    have htotal := Nat.le_trans hlength (length_targets_le files s start)
    exact ⟨hfair.distinct, Nat.le_min.mpr ⟨hfair.short, htotal⟩, hnesting⟩

/-- The check returns after finitely many calls, though nothing but the references of a chain has a
limit: there is exactly one run, with the result of the check. It expands no location twice, and not
more of them than pairs of values. Each of its calls makes other ones in one of four ways: at the
node of a location that it expands, at the target of a reference that is not on the chain, or at a
smaller value, in place or as a location. What a chain holds and how deep calls in place are nested
is bounded by the values in all documents. -/
theorem check_returns (files : FileTree) (s : Store) {schema : Document}
    (hnormal : schema.location.Normal) (limit : Nat) :
    ∃ log result,
      (∀ log' result' t, Run files limit (startCalls schema) [] s log' result' t ↔
        log' = log ∧ result' = result ∧ t = (check files schema limit).after s) ∧
      (check files schema limit).outcome s = result.map (fun _ => ()) ∧
      (expansions log).Nodup ∧
      (expansions log).length ≤ (total files s schema + 1) * (total files s schema + 1) ∧
      ∀ entry ∈ log, entry.call.Bounded limit (total files s schema) ∧
        ∀ callee ∈ entry.callees, entry.call.Makes files s limit callee := by
  obtain ⟨log, result, hrun, hresult⟩ := exists_run files.listed s hnormal limit
  have hroot : ∀ c ∈ startCalls schema, c.Placed files s schema limit := by
    intro c hc
    cases List.mem_singleton.mp hc
    exact .root files.listed hnormal
  have hplaced := hrun.forall (.refl files s) (fun h => h.placed) hroot
  have hnodup : (expansions log).Nodup := by
    have h := hrun.nodup List.nodup_nil
    rwa [List.append_nil, List.nodup_reverse] at h
  have hknown : expansions log ⊆ candidates files s schema := by
    intro i hi
    obtain ⟨entry, hentry, hexpands⟩ := List.mem_filterMap.mp hi
    exact Entry.mem_candidates (hplaced entry hentry) hexpands
  refine ⟨log, result, fun log' result' t => ⟨hrun.unique, ?_⟩, hresult, hnodup, ?_, ?_⟩
  · rintro ⟨rfl, rfl, rfl⟩
    exact hrun
  · exact Nat.le_trans (List.subperm_of_subset hnodup hknown).length_le
      (length_candidates_le files s schema)
  · exact fun entry hentry => ⟨(hplaced entry hentry).bounded,
      hrun.makes (.refl files s) entry hentry⟩

/-- The check of trees, whose children are trees again, takes six calls, two of which expand a
location; the last one comes back to the second location. -/
theorem treeSchema_calls :
    ∃ log, Run (FileTree.empty .root) 64 (startCalls treeSchema) [] ⟨[treeSchema]⟩ log
        (.ok [⟨treeSchema.location, "properties/child"⟩, ⟨treeSchema.location, ""⟩])
        ⟨[treeSchema]⟩ ∧
      log.length = 6 ∧
      expansions log =
        [⟨treeSchema.location, ""⟩, ⟨treeSchema.location, "properties/child"⟩] ∧
      (expansions log).Nodup ∧
      (check (FileTree.empty .root) treeSchema 64).outcome ⟨[treeSchema]⟩ = .ok () := by
  obtain ⟨log, result, hunique, hresult, hnodup, -⟩ :=
    check_returns (.empty .root) ⟨[treeSchema]⟩ (by decide : treeSchema.location.Normal) 64
  have hrun : ∃ log', Run (FileTree.empty .root) 64 (startCalls treeSchema) [] ⟨[treeSchema]⟩ log'
      (.ok [⟨treeSchema.location, "properties/child"⟩, ⟨treeSchema.location, ""⟩])
      ⟨[treeSchema]⟩ ∧ log'.length = 6 ∧ expansions log' =
        [⟨treeSchema.location, ""⟩, ⟨treeSchema.location, "properties/child"⟩] :=
    ⟨_, .call rfl (.call rfl (.call rfl (.call rfl (.call rfl (.call rfl .done))))), rfl, rfl⟩
  obtain ⟨log', hrun, hlength, hexpansions⟩ := hrun
  obtain ⟨rfl, rfl, -⟩ := (hunique _ _ _).mp hrun
  exact ⟨log', hrun, hlength, hexpansions, hnodup, hresult⟩

end LinkedSchema.ReferenceGraph
