import LinkedSchema.Proofs.Parity
import LinkedSchema.Proofs.Survey

/-!
# The engine on checked references

The check of the reference graph and the draft-7 engine each go through a schema with a reading of
references of their own. Where all references are in a spelling that both readings share, every
trail of the engine is a trail of the graph with as many references (`OnTrail.matched`), and each of
its references leads where the check has followed it (`Agrees`). So what the check says of its own
trails is true of the engine: a chain of references is not longer than the limit, it comes to no
address twice, and every instance is evaluated (`follows_checked_references`).

Without this the check says nothing about the engine. A reference with an escaped letter leads the
two to different nodes (`escaped_reference_differs`).
-/

namespace LinkedSchema

open Loading

/-- All references in the documents at hand are in a spelling that both readings share. -/
def SharedReferences (files : Texts) (s : Store) : Prop :=
  ∀ l d, documentAt files s l none = .ok d →
    ∀ reference, d.root.Refers reference → SharedReference reference

/-- Shared references are plain. -/
theorem SharedReferences.plain {files : Texts} {s : Store} (h : SharedReferences files s) :
    PlainReferences files s :=
  fun l d hd reference hrefers => (h l d hd reference hrefers).plain_pointer

namespace Draft7

variable {files : Texts} {s : Store} {schema : Document} {limit : Nat} {u b : Uri}
  {registry : Registry} {hops : List Address} {n : Json} {text : String}

/-- The engine is built for a schema. -/
structure Builds (files : Texts) (s : Store) (schema : Document) (u : Uri) (registry : Registry) :
    Prop where
  /-- The schema has a URI. -/
  uri : Uri.ofFile? schema.location.names = some u
  /-- The documents are read. -/
  filled : (Registry.ofSchema files maxRounds schema u
    (.engineBuild schema.location)).outcome s = .ok registry
  /-- The schema is well formed. -/
  wellFormed : isWellFormed registry u schema.root = true

/-- What the engine follows from a node is what the reference leads to where the check has met the
node. -/
structure Agrees (files : Texts) (s : Store) (schema : Document) (registry : Registry) (b : Uri)
    (n : Json) (text : String) (context : Context) (target : LinkedSchema.Target)
    (found : Target) : Prop where
  /-- The check meets the node in the context. -/
  checked : ∃ ids, ReferenceGraph.OnTrail files s schema ids context n
  /-- The engine meets it in the same document. -/
  base : b = Uri.fileUri context.root.location.names
  /-- The engine follows the reference. -/
  follows : registry.follow? b text = some found
  /-- The reference leads to the same node. -/
  leads : LeadsTo files s context text target found.node
  /-- The node is in the same document. -/
  document : found.address.document = Uri.fileUri target.context.root.location.names

/-- A node on a trail of the engine is matched by a trail of the graph with as many references,
which leads to the same node if it is an object. -/
def Matched (files : Texts) (s : Store) (schema : Document) (hops : List Address) (b : Uri)
    (n : Json) : Prop :=
  ∃ ids context node, ReferenceGraph.OnTrail files s schema ids context node ∧
    ids.length = hops.length ∧ (n.isObject = true → node = n ∧
      b = Uri.fileUri context.root.location.names ∧ Placed files s context ∧
      context.root.root.Inside n)

/-- What a matched node with a reference follows. -/
theorem Matched.agrees (hrooted : Rooted files s schema) (hshared : SharedReferences files s)
    (hsound : Sound files s schema (Uri.fileUri schema.location.names) registry)
    (h : Matched files s schema hops b n) (read : Node.read? n = some (.reference text))
    {found : Target} (follow : registry.follow? b text = some found) :
    ∃ ids context target, ReferenceGraph.OnTrail files s schema ids context n ∧
      ids.length = hops.length ∧ Agrees files s schema registry b n text context target found ∧
      Placed files s target.context := by
  obtain ⟨members, rfl, href⟩ := inside_of_read?_reference read
  obtain ⟨ids, context, node, htrail, hlength, hobject⟩ := h
  obtain ⟨rfl, rfl, hplaced, hinside⟩ := hobject rfl
  have hreference := hshared _ _ hplaced.held.document text ⟨members, hinside, href⟩
  obtain ⟨target, leads, hdocument, hnext⟩ :=
    leadsTo_of_follow? hsound hrooted.held hrooted.normal hreference hplaced follow
  exact ⟨ids, context, target, htrail, hlength, ⟨⟨ids, htrail⟩, rfl, follow, leads, hdocument⟩,
    hnext⟩

/-- Every trail of the engine is matched. -/
theorem Registry.OnTrail.matched (hrooted : Rooted files s schema)
    (hshared : SharedReferences files s)
    (hsound : Sound files s schema (Uri.fileUri schema.location.names) registry)
    (h : registry.OnTrail (Uri.fileUri schema.location.names) schema.root hops b n) :
    Matched files s schema hops b n := by
  have hroot : ReferenceGraph.OnTrail files s schema [] (.ofDocument schema) schema.root :=
    ⟨_, _, .start, .here⟩
  -- Where the rules of a matched node lead, the names of members are distinct.
  have hdistinct : ∀ {members : Members} {context : Context}, Placed files s context →
      context.root.root.Inside (.obj members) → (members.map Prod.fst).Nodup :=
    fun hplaced hinside => (hplaced.held.distinct hrooted.store) _ hinside
  induction h using induction with
  | start =>
    exact ⟨[], _, _, hroot, rfl, fun _ => ⟨rfl, rfl, ⟨Context.held_ofDocument hrooted.held,
      hrooted.normal⟩, .here⟩⟩
  | hop _ read follow ih =>
    obtain ⟨ids, context, target, ⟨c', n', hreached, trail⟩, hlength, hagrees, hnext⟩ :=
      ih.agrees hrooted hshared hsound read follow
    obtain ⟨members, rfl, href⟩ := inside_of_read?_reference read
    refine ⟨ids ++ [target.identity], target.context, _,
      ⟨c', n', hreached, trail.hop href hagrees.leads⟩, ?_, fun _ => ⟨rfl, hagrees.document, hnext,
        hagrees.leads.reaches.inside⟩⟩
    rw [List.length_append, List.length_append, hlength]
    rfl
  | @apply hops b n v rules rule _ read hrule hv ih =>
    obtain ⟨members, rfl⟩ := obj_of_read?_rules read
    obtain ⟨ids, context, node, htrail, hlength, hobject⟩ := ih
    obtain ⟨rfl, rfl, hplaced, hinside⟩ := hobject rfl
    have happlies := (Rule.from_of_read? read hrule).applies v hv
    by_cases hv : v.isObject = true
    · obtain ⟨c', n', hreached, trail⟩ := htrail
      have hstep := happlies.inPlace (hdistinct hplaced hinside) hv
      exact ⟨ids, context, v, ⟨c', n', hreached, trail.apply hstep⟩, hlength, fun _ =>
        ⟨rfl, rfl, hplaced, hinside.trans happlies.beneath.inside⟩⟩
    · exact ⟨ids, context, _, htrail, hlength, fun hobject => absurd hobject hv⟩
  | @part hops b n v rules rule _ read hrule hv ih =>
    obtain ⟨members, rfl⟩ := obj_of_read?_rules read
    obtain ⟨ids, context, node, ⟨c', n', hreached, trail⟩, -, hobject⟩ := ih
    obtain ⟨rfl, rfl, hplaced, hinside⟩ := hobject rfl
    have hdescends := (Rule.from_of_read? read hrule).descends v hv
    by_cases hv : v.isObject = true
    · have hpart := hdescends.part (hdistinct hplaced hinside) hv
      exact ⟨[], context, v, ⟨context, v, hreached.part trail hpart, .here⟩, rfl, fun _ =>
        ⟨rfl, rfl, hplaced, hinside.trans hdescends.beneath.inside⟩⟩
    · exact ⟨[], _, _, hroot, rfl, fun hobject => absurd hobject hv⟩

/-- A validation with an engine that is built reports what the engine finds. -/
theorem validateBy_of_evaluate {same : Json → Json → Bool}
    (hcheck : (ReferenceGraph.check files schema limit).outcome s = .ok ())
    (hbuilds : Builds files ((ReferenceGraph.check files schema limit).after s) schema u registry)
    {v : Json} {findings : List Finding} (h : evaluate same registry (evaluationLevels registry v)
      u schema.root v .root = some findings) :
    (validateBy same files limit schema v).outcome s = .ok (reportOf v findings) := by
  unfold validateBy
  rw [outcome_bind_ok hcheck]
  dsimp only
  rw [hbuilds.uri]
  dsimp only
  rw [outcome_bind_ok hbuilds.filled, hbuilds.wellFormed, if_pos rfl, h]
  rfl

/-- On a schema that passes the check and for which the engine is built, where no document has a URI
of its own and all references are in a spelling that both readings share, the trails of the engine
are as short as those of the check and come to no address twice, every reference on them leads where
the check follows it, and every instance is evaluated. -/
theorem follows_checked_references (files : Texts) (s : Store) (schema : Document) (limit : Nat)
    (u : Uri) (registry : Registry) (hs : s.WellFormed)
    (hschema : s.find? schema.location = some schema) (hshared : SharedReferences files s)
    (hnoIds : NoIds files s schema u)
    (hcheck : (ReferenceGraph.check files schema limit).outcome s = .ok ())
    (hbuilds : Builds files ((ReferenceGraph.check files schema limit).after s) schema u registry) :
    (∀ hops b n, registry.OnTrail u schema.root hops b n → hops.Nodup ∧ hops.length ≤ limit ∧
      ∀ text, Node.read? n = some (.reference text) →
        ∃ context target found, Agrees files s schema registry b n text context target found) ∧
      ∀ v, ∃ report, (validate files limit schema v).outcome s = .ok report := by
  have hrooted : Rooted files s schema :=
    ⟨documentAt_of_find? hschema, hs.normal _ (Store.mem_of_find? hschema), hs⟩
  have hu := Uri.ofFile?_eq_some hrooted.normal hbuilds.uri
  -- What the check has read does not change what the engine reads.
  have hfilled := hbuilds.filled
  rw [(Registry.steady_ofSchema files maxRounds schema _ _).stays
    (ReferenceGraph.check_grows files schema limit s)] at hfilled
  have hsound := Registry.ofSchema_sound hnoIds hfilled
  have hroot := Registry.root?_of_ofSchema hfilled
  have hfollow := ReferenceGraph.followable_of_check hs hshared.plain hschema hcheck
  have hmatched : ∀ {hops b n}, registry.OnTrail u schema.root hops b n →
      Matched files s schema hops b n :=
    fun h => (hu ▸ h).matched hrooted hshared (hu ▸ hsound)
  have hshort : ∀ hops b n, registry.OnTrail u schema.root hops b n → hops.length ≤ limit := by
    intro hops b n h
    obtain ⟨ids, context, node, htrail, hlength, -⟩ := hmatched h
    exact hlength ▸ (hfollow _ _ _ htrail).short
  have hdistinct : ∀ hops b n, registry.OnTrail u schema.root hops b n → hops.Nodup :=
    fun hops b n ⟨base, node, hentered, trail⟩ =>
      trail.nodup fun hops' b' n' trail' => hshort hops' b' n' ⟨base, node, hentered, trail'⟩
  refine ⟨fun hops b n h => ⟨hdistinct _ _ _ h, hshort _ _ _ h, fun text read => ?_⟩, fun v => ?_⟩
  · obtain ⟨known, hsurveyed⟩ := h.surveyed hroot hbuilds.wellFormed
    obtain ⟨found, hfound, -⟩ := hsurveyed.follows read
    obtain ⟨ids, context, target, -, -, hagrees, -⟩ :=
      (hmatched h).agrees hrooted hshared (hu ▸ hsound) read hfound
    exact ⟨context, target, found, hagrees⟩
  · obtain ⟨findings, hfindings⟩ := Option.isSome_iff_exists.mp
      (evaluate_isSome hroot hbuilds.wellFormed hdistinct v)
    exact ⟨_, validateBy_of_evaluate hcheck hbuilds hfindings⟩

/-- The engine is built when its documents are read and make a well-formed schema. -/
theorem exists_builds (files : Texts) (s : Store) (schema : Document)
    (h : ((Uri.ofFile? schema.location.names).bind fun u =>
      ((Registry.ofSchema files maxRounds schema u (.engineBuild schema.location)).outcome
        s).toOption.map fun registry => isWellFormed registry u schema.root) = some true) :
    ∃ u registry, Builds files s schema u registry := by
  obtain ⟨u, hu, h⟩ := Option.bind_eq_some_iff.mp h
  obtain ⟨registry, hregistry, hwf⟩ := Option.map_eq_some_iff.mp h
  refine ⟨u, registry, hu, ?_, hwf⟩
  generalize (Registry.ofSchema files maxRounds schema u
    (.engineBuild schema.location)).outcome s = outcome at hregistry
  cases outcome with
  | error e => cases hregistry
  | ok r => exact congrArg Except.ok (Option.some.inj hregistry)

/-- The references of the schema of marks are shared. -/
theorem sharedReferences_markSchema : SharedReferences (.empty .root) ⟨[markSchema]⟩ := by
  rintro l d hd reference ⟨members, hin, href⟩
  rw [documentAt_markSchema hd] at hin
  have hmem := ReferenceGraph.mem_places_of_inside hin
  simp [markSchema, markMembers, mark, ReferenceGraph.places, ReferenceGraph.memberPlaces,
    ReferenceGraph.itemPlaces] at hmem
  obtain ⟨hhash, hfile⟩ := commonReferences_markSchema
  rcases hmem with rfl | rfl | rfl | rfl | rfl | rfl
  all_goals cases href
  · exact hhash.shared
  · exact hfile.shared

/-- On the schema of marks the engine follows the references to the root and to the mark, and
evaluates every instance. -/
theorem markSchema_followed :
    ∃ u registry, Builds (.empty .root)
        ((ReferenceGraph.check (.empty .root) markSchema 64).after ⟨[markSchema]⟩) markSchema u
        registry ∧
      (∀ hops b n, registry.OnTrail u markSchema.root hops b n → hops.length ≤ 64) ∧
      ∀ v, ∃ report, (validate (.empty .root) 64 markSchema v).outcome ⟨[markSchema]⟩ =
        .ok report := by
  obtain ⟨u, registry, hbuilds⟩ := exists_builds (.empty .root)
    ((ReferenceGraph.check (.empty .root) markSchema 64).after ⟨[markSchema]⟩) markSchema
    (by decide +kernel)
  obtain ⟨htrails, hreports⟩ := follows_checked_references (.empty .root) ⟨[markSchema]⟩ markSchema
    64 u registry rooted_markSchema.store (by rfl) sharedReferences_markSchema
    (noIds_markSchema u) (by rfl) hbuilds
  exact ⟨u, registry, hbuilds, fun hops b n h => (htrails hops b n h).2.1, hreports⟩

/-! ## An escaped letter -/

/-- A node with a reference in which a letter is escaped. -/
def escapedNode : Json := .obj [("$ref", .str "#/definitions/a%41")]

/-- A schema with a definition under the name as it is written, and one under the decoded name. -/
def escapedSchema (decoded : Json) : Document where
  location := ⟨["s", "escaped.json"]⟩
  root := .obj [("properties", .obj [("v", escapedNode)]), ("definitions", .obj
    [("a%41", .obj [("type", .str "string")]), ("aA", decoded)])]

/-- The location of the schema is normal. -/
theorem normal_escapedSchema (decoded : Json) : (escapedSchema decoded).location.Normal :=
  show Location.Normal ⟨["s", "escaped.json"]⟩ by decide

/-- The engine follows the reference to the definition under the decoded name. -/
theorem follow_escaped {decoded : Json}
    (hu : Uri.ofFile? (escapedSchema decoded).location.names = some u)
    (hroot : registry.root? u = some (escapedSchema decoded).root) :
    registry.follow? u "#/definitions/a%41" = some ⟨⟨u, ["definitions", "aA"]⟩, decoded⟩ := by
  have hread : UriReference.read? "#/definitions/a%41" =
    some ⟨none, none, "", none, some "/definitions/a%41"⟩ := by decide +kernel
  have hnames : Registry.fragmentNames? "/definitions/a%41" = some ["definitions", "aA"] := by
    decide +kernel
  have hresolve : UriReference.resolve u ⟨none, none, "", none, some "/definitions/a%41"⟩ = u := by
    rw [Uri.ofFile?_eq_some (normal_escapedSchema decoded) hu]
    exact UriReference.resolve_empty (normal_escapedSchema decoded) rfl rfl rfl rfl
  unfold Registry.follow?
  simp only [hread, Option.bind_eq_bind, Option.bind_some, Option.getD_some, hnames, hresolve,
    hroot]
  rfl

/-- A node that accepts numbers. -/
def numberNode : Json := .obj [("type", .str "number")]

/-- The objects in the schema have distinct names, none of them `$id`, and one reference. -/
theorem objects_escapedSchema {members : Members}
    (h : (escapedSchema numberNode).root.Inside (.obj members)) :
    (members.map Prod.fst).Nodup ∧ members.lookup "$id" = none ∧
      ∀ text, members.lookup "$ref" = some (.str text) → text = "#/definitions/a%41" := by
  have hmem := ReferenceGraph.mem_places_of_inside h
  simp [escapedSchema, escapedNode, numberNode, ReferenceGraph.places,
    ReferenceGraph.memberPlaces] at hmem
  rcases hmem with rfl | rfl | rfl | rfl | rfl | rfl <;>
    exact ⟨by decide, by decide, fun text ht => by cases ht <;> rfl⟩

/-- The reference in the schema is plain. -/
theorem plainReferences_escapedSchema :
    PlainReferences (.empty .root) ⟨[escapedSchema numberNode]⟩ := by
  refine plainReferences_empty fun d hd reference ⟨members, hin, href⟩ => ?_
  rw [List.mem_singleton.mp hd] at hin
  rw [(objects_escapedSchema hin).2.2 reference href]
  exact ⟨by decide, by decide⟩

/-- An escaped letter leads the engine to another node than the check: so not all references that
pass the check are followed to the same node. -/
theorem escaped_reference_differs :
    ¬∀ (files : Texts) (s : Store) (schema : Document) (limit : Nat) (u : Uri)
      (registry : Registry), s.WellFormed → s.find? schema.location = some schema →
      NoIds files s schema u → (ReferenceGraph.check files schema limit).outcome s = .ok () →
      Builds files ((ReferenceGraph.check files schema limit).after s) schema u registry →
      ∀ hops b n, registry.OnTrail u schema.root hops b n →
      ∀ text, Node.read? n = some (.reference text) →
        ∃ context target found, Agrees files s schema registry b n text context target found := by
  intro h
  obtain ⟨u, registry, hbuilds⟩ := exists_builds (.empty .root)
    ((ReferenceGraph.check (.empty .root) (escapedSchema numberNode) 64).after
      ⟨[escapedSchema numberNode]⟩) (escapedSchema numberNode) (by decide +kernel)
  have hstore : (Store.mk [escapedSchema numberNode]).WellFormed :=
    Store.wellFormed_singleton (fun _ hin => (objects_escapedSchema hin).1)
      (normal_escapedSchema numberNode)
  have hfind : (Store.mk [escapedSchema numberNode]).find? (escapedSchema numberNode).location =
      some (escapedSchema numberNode) := by rfl
  -- The reference stands at the member `v`.
  have hread : Node.read? (escapedSchema numberNode).root =
      some (.rules [.members [("v", escapedNode)]]) := by rfl
  have htrail : registry.OnTrail u (escapedSchema numberNode).root [] u escapedNode :=
    Registry.OnTrail.start.part hread (List.mem_singleton_self _) (List.mem_singleton_self _)
  obtain ⟨context, target, found, hagrees⟩ := h (Texts.empty .root) _ (escapedSchema numberNode) 64
    u registry hstore hfind (noIds_singleton (fun _ hin => (objects_escapedSchema hin).2.1) u)
    (by rfl) hbuilds _ _ _ htrail "#/definitions/a%41" (by rfl)
  -- The check looks the name up as it is written, the engine decodes it.
  obtain ⟨ids, hchecked⟩ := hagrees.checked
  obtain ⟨pointer, hstands⟩ := hchecked.stands hstore plainReferences_escapedSchema hfind
  have hcontext : context = .ofDocument (escapedSchema numberNode) := by
    rw [hstands.held.directory,
      List.mem_singleton.mp (mem_of_documentAt_empty hstands.held.document)]
  have hwritten : LeadsTo (.empty .root) ⟨[escapedSchema numberNode]⟩
      (.ofDocument (escapedSchema numberNode)) "#/definitions/a%41"
      ⟨.of (escapedSchema numberNode).location "#/definitions/a%41",
        .ofDocument (escapedSchema numberNode)⟩ (.obj [("type", .str "string")]) :=
    ⟨by rfl, by rfl⟩
  have hstring := (hwritten.unique (hcontext ▸ hagrees.leads)).2
  have hnumber := follow_escaped hbuilds.uri (Registry.root?_of_ofSchema hbuilds.filled)
  rw [hagrees.follows] at hnumber
  cases hnumber
  simp [numberNode] at hstring

/-- Where the definition under the decoded name is the reference again, the schema passes the check
and the engine is built, but no number of levels suffices to evaluate a value of the member. -/
theorem escaped_cycle_unbounded :
    (ReferenceGraph.check (.empty .root) (escapedSchema escapedNode) 64).outcome
        ⟨[escapedSchema escapedNode]⟩ = .ok () ∧
      ∃ u registry, Builds (.empty .root) ((ReferenceGraph.check (.empty .root)
          (escapedSchema escapedNode) 64).after ⟨[escapedSchema escapedNode]⟩)
          (escapedSchema escapedNode) u registry ∧
        ∀ same levels v place, evaluate same registry levels u escapedNode v place = none := by
  obtain ⟨u, registry, hbuilds⟩ := exists_builds (.empty .root)
    ((ReferenceGraph.check (.empty .root) (escapedSchema escapedNode) 64).after
      ⟨[escapedSchema escapedNode]⟩) (escapedSchema escapedNode) (by decide +kernel)
  refine ⟨by rfl, u, registry, hbuilds, fun same levels v place => ?_⟩
  have hfollow := follow_escaped hbuilds.uri (Registry.root?_of_ofSchema hbuilds.filled)
  have hread : Node.read? escapedNode = some (.reference "#/definitions/a%41") := by rfl
  induction levels with
  | zero => rfl
  | succ levels ih =>
    rw [evaluate, evaluateNode, hread]
    dsimp only
    rw [hfollow]
    exact ih

end Draft7

end LinkedSchema
