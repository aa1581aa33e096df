import LinkedSchema.Draft7.Engine
import LinkedSchema.Proofs.Bound
import LinkedSchema.Proofs.Registered
import LinkedSchema.Proofs.Subschemas

/-!
# Schemas that have been surveyed

The engine goes through a schema in steps that stay at the same value, which make a `Trail` and
lead along references, and in steps into parts of the value. What it can come to is `OnTrail`. None
of this depends on an instance.

A schema that is well formed has been `Surveyed`: on all trails every node can be read and every
reference can be followed (`OnTrail.surveyed`). The survey visits what a reference leads to once, so
this is shown for a set of addresses that is closed under references. If moreover no trail comes to
an address twice, then the levels suffice to evaluate any instance (`evaluate_isSome`): the
addresses on a trail are places of references in the documents, and every step takes some of the
room that is left (`room`).
-/

namespace LinkedSchema.Draft7

variable {same : Json → Json → Bool} {registry : Registry} {u base b : Uri}
  {root node n v : Json} {hops : List Address}
  {text : String} {target : Target} {rules : List Rule} {rule : Rule} {known known' : Reached}

/-! ## Addresses -/

namespace Registry

/-- The node at an address. -/
def node? (r : Registry) (a : Address) : Option Json :=
  (r.root? a.document).bind fun root => (Pointer.descend root a.names).toOption

/-- A node stands in the document with a URI. -/
def Holds (r : Registry) (base : Uri) (node : Json) : Prop :=
  ∃ root, r.root? base = some root ∧ root.Inside node

/-- What a reference leads to is the node at its address. -/
theorem node?_of_follow? (h : registry.follow? base text = some target) :
    registry.node? target.address = some target.node := by
  unfold follow? at h
  obtain ⟨reference, -, h⟩ := Option.bind_eq_some_iff.mp h
  obtain ⟨names, -, h⟩ := Option.bind_eq_some_iff.mp h
  obtain ⟨root, hroot, h⟩ := Option.bind_eq_some_iff.mp h
  obtain ⟨node, hnode, h⟩ := Option.bind_eq_some_iff.mp h
  cases h
  rw [node?, hroot, Option.bind_some, hnode]

/-- The node at an address stands in its document. -/
theorem holds_of_node? {a : Address} (h : registry.node? a = some node) :
    registry.Holds a.document node := by
  obtain ⟨root, hroot, hnode⟩ := Option.bind_eq_some_iff.mp h
  exact ⟨root, hroot, inside_of_descend hnode⟩

/-- What stands inside a node stands in its document. -/
theorem Holds.inside (h : registry.Holds base node) (hv : node.Inside v) : registry.Holds base v :=
  h.imp fun _ ⟨hroot, hin⟩ => ⟨hroot, hin.trans hv⟩

/-- The size of a registry is that of its documents together. -/
theorem size_eq (r : Registry) :
    r.size = ReferenceGraph.sumOf (fun d => d.2.size) r.documents := rfl

/-- A node is no larger than all documents. -/
theorem Holds.size_le (h : registry.Holds base node) : node.size ≤ registry.size := by
  obtain ⟨root, hroot, hin⟩ := h
  obtain ⟨before, after, he, -⟩ := List.lookup_eq_some_iff.mp hroot
  have hsize : node.size ≤ (base, root).2.size := hin.size_le
  rw [size_eq, he, ReferenceGraph.sumOf_append, ReferenceGraph.sumOf_cons]
  omega

/-- The addresses to which the texts in the documents lead as references. -/
def addresses (r : Registry) : List Address :=
  r.documents.flatMap fun d => (ReferenceGraph.places "" d.2).filterMap fun p =>
    p.2.text?.bind fun text => (r.follow? d.1 text).map Target.address

/-- There are not more of them than levels are reckoned for. -/
theorem length_addresses_le (r : Registry) : r.addresses.length ≤ r.addressBound := by
  have hsize : r.addresses.length ≤ r.size := by
    have hle : r.addresses.length ≤
        ReferenceGraph.sumOf (fun d : Uri × Json => d.2.size) r.documents * 1 := by
      refine ReferenceGraph.length_flatMap_le fun d _ => ?_
      rw [Nat.mul_one, ← ReferenceGraph.length_places "" d.2]
      exact List.length_filterMap_le _ _
    rwa [Nat.mul_one] at hle
  cases hd : r.documents with
  | nil =>
    rw [addresses, hd]
    exact Nat.zero_le _
  | cons d rest =>
    have hmul : r.size * 1 ≤ r.size * r.documents.length :=
      Nat.mul_le_mul_left _ (by rw [hd]; exact Nat.succ_pos _)
    exact Nat.le_trans hsize (Nat.mul_one r.size ▸ hmul)

end Registry

/-- A node that stands for a reference holds its text. -/
theorem inside_of_read?_reference (h : Node.read? node = some (.reference text)) :
    ∃ members, node = .obj members ∧ members.lookup "$ref" = some (.str text) := by
  unfold Node.read? at h
  split at h
  · cases h
  · cases h
  · next members =>
    split at h
    · next w hw =>
      obtain ⟨t, ht, he⟩ := Option.map_eq_some_iff.mp h
      cases he
      cases w <;> cases ht
      exact ⟨members, rfl, hw⟩
    · obtain ⟨found, -, he⟩ := Option.map_eq_some_iff.mp h
      cases he
  · cases h

/-- A node with rules is an object. -/
theorem obj_of_read?_rules (h : Node.read? node = some (.rules rules)) :
    ∃ members, node = .obj members := by
  unfold Node.read? at h
  split at h
  · cases h
  · cases h
  · next members => exact ⟨members, rfl⟩
  · cases h

/-- The schemas of the rules of a node occur in it and are smaller. -/
theorem beneath_of_read? (h : Node.read? node = some (.rules rules)) (hrule : rule ∈ rules)
    (hv : v ∈ rule.subschemas) : node.Inside v ∧ v.size < node.size := by
  obtain ⟨members, rfl⟩ := obj_of_read?_rules h
  obtain ⟨keyword, w, mem, hw⟩ := (Rule.from_of_read? h hrule).beneath hv
  exact ⟨(Json.Inside.member .here mem).trans hw,
    Nat.lt_of_le_of_lt hw.size_le (Json.size_lt_of_mem_members mem)⟩

/-- A reference that is followed leads to one of the addresses. -/
theorem Registry.mem_addresses (hheld : registry.Holds base node)
    (hread : Node.read? node = some (.reference text))
    (hfollow : registry.follow? base text = some target) :
    target.address ∈ registry.addresses := by
  obtain ⟨members, rfl, href⟩ := inside_of_read?_reference hread
  obtain ⟨root, hroot, hin⟩ := hheld.inside (.member .here (Json.mem_of_lookup href))
  obtain ⟨before, after, he, -⟩ := List.lookup_eq_some_iff.mp hroot
  obtain ⟨p, hp, htext⟩ := List.mem_map.mp (ReferenceGraph.mem_places_of_inside hin)
  refine List.mem_flatMap.mpr ⟨(base, root), by rw [he]; simp, ?_⟩
  refine List.mem_filterMap.mpr ⟨p, hp, ?_⟩
  rw [htext, Json.text?, Option.bind_some, hfollow, Option.map_some]

/-! ## Trails -/

namespace Registry

/-- A sequence of steps from a node to another that stay at the same value, with the addresses that
its references lead to. -/
inductive Trail (registry : Registry) (base : Uri) (node : Json) :
    List Address → Uri → Json → Prop
  /-- The sequence without steps. -/
  | here : Trail registry base node [] base node
  /-- One more reference. -/
  | hop {hops : List Address} {b : Uri} {n : Json} {text : String} {target : Draft7.Target}
    (trail : Trail registry base node hops b n) (read : Node.read? n = some (.reference text))
    (h : registry.follow? b text = some target) :
    Trail registry base node (hops ++ [target.address]) target.address.document target.node
  /-- One more step into a schema for the same value. -/
  | apply {hops : List Address} {b : Uri} {n v : Json} {rules : List Rule} {rule : Rule}
    (trail : Trail registry base node hops b n) (read : Node.read? n = some (.rules rules))
    (hrule : rule ∈ rules) (h : v ∈ rule.inPlace) : Trail registry base node hops b v

/-- A node that the engine enters with a value of its own: the root, or a schema for parts of the
value to which a trail leads. -/
inductive Entered (registry : Registry) (u : Uri) (root : Json) : Uri → Json → Prop
  /-- The root. -/
  | start : Entered registry u root u root
  /-- A schema for parts of the value. -/
  | part {base b : Uri} {node n v : Json} {hops : List Address} {rules : List Rule} {rule : Rule}
    (entered : Entered registry u root base node) (trail : Trail registry base node hops b n)
    (read : Node.read? n = some (.rules rules)) (hrule : rule ∈ rules) (h : v ∈ rule.parts) :
    Entered registry u root b v

/-- A node lies at the end of a trail from a node that is entered. -/
def OnTrail (registry : Registry) (u : Uri) (root : Json) (hops : List Address) (b : Uri)
    (n : Json) : Prop :=
  ∃ base node, Entered registry u root base node ∧ Trail registry base node hops b n

namespace OnTrail

/-- The root lies on a trail. -/
theorem start : OnTrail registry u root [] u root := ⟨u, root, .start, .here⟩

/-- A reference leads on. -/
theorem hop (h : OnTrail registry u root hops b n) (read : Node.read? n = some (.reference text))
    (follow : registry.follow? b text = some target) :
    OnTrail registry u root (hops ++ [target.address]) target.address.document target.node := by
  obtain ⟨base, node, hentered, trail⟩ := h
  exact ⟨base, node, hentered, trail.hop read follow⟩

/-- A schema for the same value lies on the same trail. -/
theorem apply (h : OnTrail registry u root hops b n) (read : Node.read? n = some (.rules rules))
    (hrule : rule ∈ rules) (hv : v ∈ rule.inPlace) : OnTrail registry u root hops b v := by
  obtain ⟨base, node, hentered, trail⟩ := h
  exact ⟨base, node, hentered, trail.apply read hrule hv⟩

/-- A schema for parts of the value starts a trail. -/
theorem part (h : OnTrail registry u root hops b n) (read : Node.read? n = some (.rules rules))
    (hrule : rule ∈ rules) (hv : v ∈ rule.parts) : OnTrail registry u root [] b v := by
  obtain ⟨base, node, hentered, trail⟩ := h
  exact ⟨b, v, hentered.part trail read hrule hv, .here⟩

/-- What is true of the root, and remains true with every step, is true on all trails. -/
@[elab_as_elim]
theorem induction {P : ∀ hops b n, OnTrail registry u root hops b n → Prop}
    (start : P [] u root start)
    (hop : ∀ {hops b n text target} (h : OnTrail registry u root hops b n)
      (read : Node.read? n = some (.reference text))
      (follow : registry.follow? b text = some target),
      P hops b n h → P _ _ _ (h.hop read follow))
    (apply : ∀ {hops b n v rules rule} (h : OnTrail registry u root hops b n)
      (read : Node.read? n = some (.rules rules)) (hrule : rule ∈ rules) (hv : v ∈ rule.inPlace),
      P hops b n h → P _ _ _ (h.apply read hrule hv))
    (part : ∀ {hops b n v rules rule} (h : OnTrail registry u root hops b n)
      (read : Node.read? n = some (.rules rules)) (hrule : rule ∈ rules) (hv : v ∈ rule.parts),
      P hops b n h → P _ _ _ (h.part read hrule hv))
    {hops : List Address} {b : Uri} {n : Json} (h : OnTrail registry u root hops b n) :
    P hops b n h := by
  obtain ⟨base, node, hentered, trail⟩ := h
  have htrail : ∀ {base node hops b n} (hentered : Entered registry u root base node)
      (trail : Trail registry base node hops b n), P [] base node ⟨base, node, hentered, .here⟩ →
      P hops b n ⟨base, node, hentered, trail⟩ := by
    intro base node hops b n hentered trail hstart
    induction trail with
    | here => exact hstart
    | hop _ read follow ih => exact hop _ read follow ih
    | apply _ read hrule hv ih => exact apply _ read hrule hv ih
  refine htrail hentered trail ?_
  clear trail
  induction hentered with
  | start => exact start
  | part hentered trail read hrule hv ih => exact part _ read hrule hv (htrail hentered trail ih)

/-- What lies on a trail stands in a document, and its trail leads over addresses. -/
theorem held (hroot : registry.root? u = some root) (h : OnTrail registry u root hops b n) :
    registry.Holds b n ∧ hops ⊆ registry.addresses := by
  induction h using induction with
  | start => exact ⟨⟨root, hroot, .here⟩, List.nil_subset _⟩
  | hop _ read follow ih =>
    refine ⟨holds_of_node? (node?_of_follow? follow), List.append_subset.mpr ⟨ih.2, ?_⟩⟩
    exact List.cons_subset.mpr ⟨mem_addresses ih.1 read follow, List.nil_subset _⟩
  | apply _ read hrule hv ih =>
    exact ⟨ih.1.inside (beneath_of_read? read hrule (Rule.mem_subschemas.mpr (.inl hv))).1, ih.2⟩
  | part _ read hrule hv ih =>
    exact ⟨ih.1.inside (beneath_of_read? read hrule (Rule.mem_subschemas.mpr (.inr hv))).1,
      List.nil_subset _⟩

end OnTrail

end Registry

/-! ## Trails that are short -/

namespace Registry.Trail

/-- Trails can be put together. -/
theorem trans {hops' : List Address} {b' : Uri} {n' : Json} (h : Trail registry base node hops b n)
    (h' : Trail registry b n hops' b' n') : Trail registry base node (hops ++ hops') b' n' := by
  induction h' with
  | here => rwa [List.append_nil]
  | hop _ read follow ih =>
    rw [← List.append_assoc]
    exact ih.hop read follow
  | apply _ read hrule hv ih => exact ih.apply read hrule hv

/-- A trail can be taken apart at an address to which it comes. -/
theorem split {before after : List Address} {a : Address}
    (h : Trail registry base node hops b n) (he : hops = before ++ a :: after) :
    ∃ m, registry.node? a = some m ∧ Trail registry base node (before ++ [a]) a.document m ∧
      Trail registry a.document m after b n := by
  induction h generalizing after with
  | here => simp at he
  | @hop hops b n text target trail read follow ih =>
    rcases List.eq_nil_or_concat after with rfl | ⟨front, last, rfl⟩
    · obtain ⟨rfl, heq⟩ := List.append_inj' he rfl
      cases heq
      exact ⟨_, node?_of_follow? follow, trail.hop read follow, .here⟩
    · rw [List.concat_eq_append, ← List.cons_append, ← List.append_assoc] at he
      obtain ⟨hhops, heq⟩ := List.append_inj' he rfl
      cases heq
      obtain ⟨m, hm, hfront, hback⟩ := ih hhops
      rw [List.concat_eq_append]
      exact ⟨m, hm, hfront, hback.hop read follow⟩
  | apply _ read hrule hv ih =>
    obtain ⟨m, hm, hfront, hback⟩ := ih he
    exact ⟨m, hm, hfront, hback.apply read hrule hv⟩

/-- A trail that leads back can be followed over and over. -/
theorem again {a : Address} {after : List Address}
    (h : Trail registry base node (after ++ [a]) base node) (k : Nat) :
    ∃ hops, k ≤ hops.length ∧ Trail registry base node hops base node := by
  induction k with
  | zero => exact ⟨[], Nat.le_refl _, .here⟩
  | succ k ih =>
    obtain ⟨hops, hlength, trail⟩ := ih
    refine ⟨hops ++ (after ++ [a]), ?_, trail.trans h⟩
    rw [List.length_append, List.length_append, List.length_singleton]
    omega

/-- Where no trail is longer than a limit, none comes to an address twice. -/
theorem nodup {limit : Nat} (hshort : ∀ hops b n, Trail registry base node hops b n →
    hops.length ≤ limit) (h : Trail registry base node hops b n) : hops.Nodup := by
  induction h with
  | here => exact List.nodup_nil
  | @hop hops b n text target trail read follow ih =>
    refine List.nodup_append.mpr ⟨ih, List.nodup_singleton _, fun a ha c hc he => ?_⟩
    rw [List.mem_singleton.mp hc] at he
    subst he
    -- Between the two times there is a trail that leads back.
    obtain ⟨before, after, rfl⟩ := List.append_of_mem ha
    obtain ⟨m, hm, hfront, hback⟩ := trail.split rfl
    have hloop := hback.hop read follow
    rw [node?_of_follow? follow, Option.some.injEq] at hm
    rw [hm] at hloop
    obtain ⟨long, hlength, hlong⟩ := hloop.again (limit + 1)
    have hle := hshort _ _ _ (hfront.trans hlong)
    rw [List.length_append] at hle
    omega
  | apply _ _ _ _ ih => exact ih

end Registry.Trail

/-! ## The survey -/

/-- A schema and the schemas inside its rules have been read, and their references lead to known
addresses. -/
inductive Surveyed (registry : Registry) (known : Reached) (base : Uri) : Json → Prop
  /-- The schema accepts everything. -/
  | always {node : Json} (read : Node.read? node = some .always) :
    Surveyed registry known base node
  /-- The schema accepts nothing. -/
  | never {node : Json} (read : Node.read? node = some .never) :
    Surveyed registry known base node
  /-- The schema is a reference. -/
  | reference {node : Json} {text : String} {target : Target}
    (read : Node.read? node = some (.reference text))
    (follow : registry.follow? base text = some target) (mem : target.address ∈ known) :
    Surveyed registry known base node
  /-- The schema has rules. -/
  | rules {node : Json} {rules : List Rule} (read : Node.read? node = some (.rules rules))
    (below : ∀ v ∈ rules.flatMap Rule.subschemas, Surveyed registry known base v) :
    Surveyed registry known base node

/-- More addresses may be known. -/
theorem Surveyed.mono (h : Surveyed registry known base node) (hsub : known ⊆ known') :
    Surveyed registry known' base node := by
  induction h with
  | always read => exact .always read
  | never read => exact .never read
  | reference read follow mem => exact .reference read follow (hsub mem)
  | rules read _ ih => exact .rules read ih

/-- A reference that has been surveyed can be followed, and leads to a known address. -/
theorem Surveyed.follows (h : Surveyed registry known base node)
    (read : Node.read? node = some (.reference text)) :
    ∃ target, registry.follow? base text = some target ∧ target.address ∈ known := by
  cases h with
  | reference read' follow mem =>
    rw [read'] at read
    cases read
    exact ⟨_, follow, mem⟩
  | always read' | never read' | rules read' =>
    rw [read'] at read
    cases read

/-- The schemas inside a rule that has been surveyed have been surveyed. -/
theorem Surveyed.subschema (h : Surveyed registry known base node)
    (read : Node.read? node = some (.rules rules)) (hrule : rule ∈ rules)
    (hv : v ∈ rule.subschemas) : Surveyed registry known base v := by
  cases h with
  | rules read' below =>
    rw [read'] at read
    cases read
    exact below v (List.mem_flatMap.mpr ⟨rule, hrule, hv⟩)
  | always read' | never read' | reference read' =>
    rw [read'] at read
    cases read

/-- What is at an address has been surveyed. -/
def SurveyedAt (registry : Registry) (known : Reached) (a : Address) : Prop :=
  ∃ node, registry.node? a = some node ∧ Surveyed registry known a.document node

/-- A survey has gone on from some addresses to more: what is at the new ones has been surveyed. -/
structure Grown (registry : Registry) (known known' : Reached) : Prop where
  /-- No address is forgotten. -/
  subset : known ⊆ known'
  /-- What is at the new addresses has been surveyed. -/
  fresh : ∀ a ∈ known', a ∉ known → SurveyedAt registry known' a

/-- A survey may stay. -/
theorem Grown.refl (registry : Registry) (known : Reached) : Grown registry known known :=
  ⟨List.Subset.refl _, fun _ h hno => absurd h hno⟩

/-- A survey may go on. -/
theorem Grown.trans {known'' : Reached} (h : Grown registry known known')
    (h' : Grown registry known' known'') : Grown registry known known'' where
  subset := List.Subset.trans h.subset h'.subset
  fresh a ha hno := by
    by_cases hmem : a ∈ known'
    · obtain ⟨node, hnode, hsurveyed⟩ := h.fresh a hmem hno
      exact ⟨node, hnode, hsurveyed.mono h'.subset⟩
    · exact h'.fresh a ha hmem

/-- A visit surveys what it visits. -/
def VisitSurveys (registry : Registry) (base : Uri) (visit : Json → Reached → Option Reached) :
    Prop :=
  ∀ ⦃node known known'⦄, visit node known = some known' →
    Grown registry known known' ∧ Surveyed registry known' base node

/-- Visits one after the other survey all that they visit. -/
theorem visitAll_surveys {visit : Json → Reached → Option Reached}
    (hvisit : VisitSurveys registry base visit) {nodes : List Json}
    (h : visitAll visit nodes known = some known') :
    Grown registry known known' ∧ ∀ node ∈ nodes, Surveyed registry known' base node := by
  induction nodes generalizing known with
  | nil =>
    cases h
    exact ⟨.refl registry _, by simp⟩
  | cons node rest ih =>
    obtain ⟨between, hfirst, hrest⟩ := Option.bind_eq_some_iff.mp h
    obtain ⟨hgrown, hnode⟩ := hvisit hfirst
    obtain ⟨hgrown', hothers⟩ := ih hrest
    exact ⟨hgrown.trans hgrown',
      List.forall_mem_cons.mpr ⟨hnode.mono hgrown'.subset, hothers⟩⟩

-- Comparing the two sides must not take the lookup of the reference apart.
attribute [local irreducible] Registry.follow? in
/-- The survey with one more level. -/
theorem survey_succ (registry : Registry) (levels : Nat) (base : Uri) (node : Json)
    (reached : Reached) :
    survey registry (levels + 1) base node reached =
      match Node.read? node with
      | none => none
      | some .always => some reached
      | some .never => some reached
      | some (.reference text) =>
        match registry.follow? base text with
        | none => none
        | some target =>
          if target.address ∈ reached then some reached
          else
            survey registry levels target.address.document target.node (target.address :: reached)
      | some (.rules rules) =>
        visitAll (survey registry levels base) (rules.flatMap Rule.subschemas) reached := rfl

/-- The survey surveys what it visits: an address that was known before may still be visited, and
every other one is done when the visit is. -/
theorem survey_surveys (registry : Registry) (levels : Nat) (base : Uri) :
    VisitSurveys registry base (survey registry levels base) := by
  induction levels generalizing base with
  | zero =>
    intro node known known' h
    cases h
  | succ levels ih =>
    intro node known known' h
    rw [survey_succ] at h
    split at h
    · cases h
    · next read =>
      cases h
      exact ⟨.refl registry _, .always read⟩
    · next read =>
      cases h
      exact ⟨.refl registry _, .never read⟩
    · next text read =>
      split at h
      · cases h
      · next target follow =>
        split at h
        · next hmem =>
          cases h
          exact ⟨.refl registry _, .reference read follow hmem⟩
        · obtain ⟨hgrown, hsurveyed⟩ := ih _ h
          obtain ⟨hmem, hsub⟩ := List.cons_subset.mp hgrown.subset
          refine ⟨⟨hsub, fun a ha hno => ?_⟩, .reference read follow hmem⟩
          by_cases he : a = target.address
          · rw [he]
            exact ⟨_, Registry.node?_of_follow? follow, hsurveyed⟩
          · exact hgrown.fresh a ha fun hmem => (List.mem_cons.mp hmem).elim he hno
    · next rules read =>
      obtain ⟨hgrown, hbelow⟩ := visitAll_surveys (ih base) h
      exact ⟨hgrown, .rules read hbelow⟩

/-- A well-formed schema has been surveyed with all that its references lead to. -/
theorem surveyed_of_isWellFormed (hroot : registry.root? u = some root)
    (h : isWellFormed registry u root = true) :
    ∃ known, Surveyed registry known u root ∧ ∀ a ∈ known, SurveyedAt registry known a := by
  rw [isWellFormed, Option.isSome_iff_exists] at h
  obtain ⟨known, hknown⟩ := h
  obtain ⟨hgrown, hsurveyed⟩ := survey_surveys registry _ u hknown
  refine ⟨known, hsurveyed, fun a ha => ?_⟩
  by_cases he : a = ⟨u, []⟩
  · have hnode : registry.node? ⟨u, []⟩ = some root := by
      rw [Registry.node?, hroot]
      rfl
    rw [he]
    exact ⟨root, hnode, hsurveyed⟩
  · exact hgrown.fresh a ha fun hmem => he (List.mem_singleton.mp hmem)

/-- Every node on a trail through a well-formed schema has been surveyed. -/
theorem Registry.OnTrail.surveyed (hroot : registry.root? u = some root)
    (hwf : isWellFormed registry u root = true) (h : OnTrail registry u root hops b n) :
    ∃ known, Surveyed registry known b n := by
  obtain ⟨known, hstart, hclosed⟩ := surveyed_of_isWellFormed hroot hwf
  refine ⟨known, ?_⟩
  induction h using induction with
  | start => exact hstart
  | hop _ read follow ih =>
    obtain ⟨target, follow', mem⟩ := ih.follows read
    rw [follow] at follow'
    cases follow'
    obtain ⟨node, hnode, hsurveyed⟩ := hclosed _ mem
    rw [node?_of_follow? follow] at hnode
    cases hnode
    exact hsurveyed
  | apply _ read hrule hv ih => exact ih.subschema read hrule (Rule.mem_subschemas.mpr (.inl hv))
  | part _ read hrule hv ih => exact ih.subschema read hrule (Rule.mem_subschemas.mpr (.inr hv))

/-! ## Evaluation ends -/

/-- The steps that an evaluation has left at a place of the instance: it may go down in the value,
follow references to the remaining addresses, and go down in the node. -/
def room (registry : Registry) (hops : List Address) (node v : Json) : Nat :=
  v.height * registry.levels + (registry.addressBound - hops.length) * (registry.size + 1) +
    node.size

/-- At one value there is room for as many nodes as there are addresses, and for one more. -/
theorem levels_eq (registry : Registry) : registry.levels =
    registry.addressBound * (registry.size + 1) + (registry.size + 1) + 1 := by
  rw [Registry.levels, Nat.add_one_mul]

/-- A smaller node takes room. -/
theorem room_below (h : v.size < node.size) (w : Json) :
    room registry hops v w < room registry hops node w := by
  unfold room
  omega

/-- A reference takes room, whatever node it leads to. -/
theorem room_hop {a : Address} (hlength : hops.length < registry.addressBound)
    (h : v.size ≤ registry.size) (w : Json) :
    room registry (hops ++ [a]) v w < room registry hops node w := by
  have hsplit : registry.addressBound - hops.length =
      registry.addressBound - (hops.length + 1) + 1 := by omega
  have hmul := Nat.add_one_mul (registry.addressBound - (hops.length + 1)) (registry.size + 1)
  unfold room
  rw [List.length_append, List.length_singleton, hsplit]
  omega

/-- A lower value takes room, though all addresses remain again. -/
theorem room_part {w : Json} (hheight : w.height < v.height) (h : n.size ≤ registry.size) :
    room registry [] n w < room registry hops node v := by
  have hmul := Nat.mul_le_mul_right registry.levels (Nat.succ_le_of_lt hheight)
  rw [Nat.succ_mul, levels_eq] at hmul
  unfold room
  rw [List.length_nil, Nat.sub_zero, levels_eq]
  omega

/-- The levels of an evaluation are enough room to start with. -/
theorem room_start (h : root.size ≤ registry.size) (v : Json) :
    room registry [] root v < evaluationLevels registry v := by
  unfold room evaluationLevels
  rw [List.length_nil, Nat.sub_zero, Nat.add_one_mul, levels_eq]
  omega

/-- On trails that do not come to an address twice, an evaluation with as many levels as it has room
has a result. -/
theorem evaluate_isSome_of_room (hroot : registry.root? u = some root)
    (hwf : isWellFormed registry u root = true)
    (hdistinct : ∀ hops b n, registry.OnTrail u root hops b n → hops.Nodup) :
    ∀ levels {hops b n v place}, registry.OnTrail u root hops b n →
      room registry hops n v < levels → (evaluate same registry levels b n v place).isSome := by
  intro levels
  induction levels with
  | zero => exact fun _ hlevels => absurd hlevels (Nat.not_lt_zero _)
  | succ levels ih =>
    intro hops b n v place htrail hlevels
    obtain ⟨known, hsurveyed⟩ := htrail.surveyed hroot hwf
    unfold evaluate evaluateNode
    cases hsurveyed with
    | always read =>
      rw [read]
      rfl
    | never read =>
      rw [read]
      rfl
    | reference read follow =>
      rw [read]
      dsimp only
      rw [follow]
      have hnext := htrail.hop read follow
      -- The addresses on the trail are distinct, so there was room for one more.
      have hlength : hops.length < registry.addressBound := by
        have hle := ((hdistinct _ _ _ hnext).subperm (hnext.held hroot).2).length_le
        have hbound := registry.length_addresses_le
        rw [List.length_append, List.length_singleton] at hle
        omega
      exact ih hnext (Nat.lt_of_lt_of_le (room_hop hlength (hnext.held hroot).1.size_le v)
        (Nat.lt_succ_iff.mp hlevels))
    | rules read =>
      rw [read]
      refine gather?_isSome fun rule hrule => Rule.evaluate_isSome ?_ ?_
      · intro schema hs place
        have hsmaller := (beneath_of_read? read hrule (Rule.mem_subschemas.mpr (.inl hs))).2
        exact ih (htrail.apply read hrule hs)
          (Nat.lt_of_lt_of_le (room_below hsmaller v) (Nat.lt_succ_iff.mp hlevels))
      · intro schema hs w place hheight
        have hpart := htrail.part read hrule hs
        exact ih hpart (Nat.lt_of_lt_of_le (room_part hheight (hpart.held hroot).1.size_le)
          (Nat.lt_succ_iff.mp hlevels))

/-- On trails that do not come to an address twice, every instance is evaluated. -/
theorem evaluate_isSome (hroot : registry.root? u = some root)
    (hwf : isWellFormed registry u root = true)
    (hdistinct : ∀ hops b n, registry.OnTrail u root hops b n → hops.Nodup) (v : Json) :
    (evaluate same registry (evaluationLevels registry v) u root v .root).isSome :=
  evaluate_isSome_of_room hroot hwf hdistinct _ .start
    (room_start (Registry.Holds.size_le ⟨root, hroot, .here⟩) v)

end LinkedSchema.Draft7
