import LinkedSchema.Draft7.Engine
import LinkedSchema.Proofs.Bound
import LinkedSchema.Proofs.Closure
import LinkedSchema.Proofs.Nodes
import LinkedSchema.Proofs.SameValues

/-!
# Parity of the two validators

Within the common subset, both validators decide satisfaction, and they differ in one thing only:
the comparison by which `enum` looks for a value among the listed ones. The structural walk uses
`Json.equal`, and the comparison of the draft-7 engine is a parameter. The engine is followed by
induction on the levels that it has left: at a reference the registry leads where the reference
leads, and elsewhere the rules of the node find what satisfaction asks.

If the comparison decides which values are the same in the language of schemas, it says of listed
values and parts of the instance what `Json.equal` says, for their names are distinct and their
numbers exact. Then the instance satisfies the schema by the one comparison when it does so by the
other, and the two reports are empty together (`reports_agree`).
-/

namespace LinkedSchema

open Loading Structural

variable {files : Texts} {s : Store} {schema : Document} {context : Context} {node v : Json}

namespace Draft7

variable {registry : Registry} {same : Json → Json → Bool} {members : Members}

/-- A node with a reference alone asks what the target of the reference asks. -/
theorem satisfies_reference_iff {reference : String} {target : LinkedSchema.Target}
    (hr : members.lookup "$ref" = some (.str reference))
    (halone : ∀ p ∈ members, p.1 = "$ref")
    (leads : LeadsTo files s context reference target node) :
    Satisfies files s same context (.obj members) v ↔
      Satisfies files s same target.context node v := by
  -- Every other keyword is absent, and an absent keyword asks nothing.
  have hnone : ∀ {keyword x}, keyword ≠ "$ref" → members.lookup keyword ≠ some x :=
    fun hk hx => hk (halone _ (Json.mem_of_lookup hx))
  have hlimit : ∀ keyword within, keyword ≠ "$ref" → LimitHolds members keyword within :=
    fun _ _ hk _ hn => absurd hn (hnone hk)
  have hdeclared : ∀ {name x}, (declared members).lookup name ≠ some x := by
    intro name x hx
    obtain ⟨ds, hp, -⟩ := lookup_declared hx
    exact hnone (by decide) hp
  have htype : TypeHolds members v := by
    unfold TypeHolds
    split
    · next hx => exact absurd hx (hnone (by decide))
    · next hx => exact absurd hx (hnone (by decide))
    · trivial
  have henum : EnumHolds same members v := fun _ hx => absurd hx (hnone (by decide))
  have hkind : KindHolds members v := by
    cases v with
    | str text => exact ⟨hlimit _ _ (by decide), fun _ hx => absurd hx (hnone (by decide))⟩
    | num n => exact ⟨hlimit _ _ (by decide), hlimit _ _ (by decide)⟩
    | arr items => exact ⟨hlimit _ _ (by decide), hlimit _ _ (by decide)⟩
    | obj ms =>
      exact ⟨fun _ hx => absurd hx (hnone (by decide)), fun hx => absurd hx (hnone (by decide))⟩
    | null => trivial
    | bool b => trivial
  rw [satisfies_object_iff, behindReference_iff hr leads]
  constructor
  · exact fun h => h.1
  · intro h
    refine ⟨h, .absent fun _ => hnone (by decide), ⟨htype, henum, hkind⟩, ?_, ?_⟩
    · exact fun _ _ _ hx => absurd hx (hnone (by decide))
    · exact fun _ _ _ _ _ _ hx => absurd hx hdeclared

/-- A node with a reference is evaluated behind it. -/
theorem evaluate_reference {levels : Nat} {base : Uri} {place : Locator} {reference : String}
    {found : List Finding} (hr : members.lookup "$ref" = some (.str reference))
    (h : evaluate same registry (levels + 1) base (.obj members) v place = some found) :
    ∃ target, registry.follow? base reference = some target ∧
      evaluate same registry levels target.address.document target.node v place = some found := by
  have hread : Node.read? (.obj members) = some (.reference reference) := by
    simp only [Node.read?, hr]
    rfl
  rw [evaluate, evaluateNode, hread] at h
  dsimp only at h
  cases hf : registry.follow? base reference with
  | none =>
    rw [hf] at h
    cases h
  | some target =>
    rw [hf] at h
    exact ⟨target, rfl, h⟩

/-- A node without reference is evaluated by its rules. -/
theorem evaluate_rules {levels : Nat} {base : Uri} {place : Locator} {found : List Finding}
    (hr : members.lookup "$ref" = none)
    (h : evaluate same registry (levels + 1) base (.obj members) v place = some found) :
    ∃ rules, gather? (fun p : String × Json => Rule.read? members p.1 p.2) members = some rules ∧
      gather? (Rule.evaluate same (evaluate same registry levels base) v place) rules =
        some found := by
  have hread : Node.read? (.obj members) =
      (gather? (fun p : String × Json => Rule.read? members p.1 p.2) members).map .rules := by
    simp only [Node.read?, hr]
  rw [evaluate, evaluateNode, hread] at h
  cases hrules : gather? (fun p : String × Json => Rule.read? members p.1 p.2) members with
  | none =>
    rw [hrules] at h
    cases h
  | some rules =>
    rw [hrules] at h
    exact ⟨rules, rfl, h⟩

/-- The engine finds nothing exactly when the value satisfies the node by the same comparison. -/
theorem evaluate_finds (hrooted : Rooted files s schema) (hcommon : Common files s schema)
    (hsound : Sound files s schema (Uri.fileUri schema.location.names) registry) (levels : Nat)
    {context : Context} {node v : Json} (hused : Used files s schema context node)
    (hv : Ordinary v) (place : Locator) :
    Finds (evaluate same registry levels (Uri.fileUri context.root.location.names) node v place)
      (Satisfies files s same context node v) := by
  induction levels generalizing context node v place with
  | zero =>
    intro found h
    cases h
  | succ levels ih =>
    intro found h
    obtain ⟨members, rfl, hnode⟩ := hcommon.nodes context node hused
    obtain ⟨hplaced, hinside⟩ := hused.placed hrooted
    have hdistinct : Json.Distinct (.obj members) :=
      (hplaced.held.distinct hrooted.store).inside hinside
    cases hr : members.lookup "$ref" with
    | some x =>
      -- A reference stands alone: the node asks what its target asks.
      obtain ⟨reference, rfl, hreference⟩ := hnode.allowed _ _ (Json.mem_of_lookup hr)
      obtain ⟨found', hfollow, h⟩ := evaluate_reference hr h
      obtain ⟨target, leads, hdocument, -⟩ := leadsTo_of_follow? hsound hrooted.held hrooted.normal
        hreference.shared hplaced hfollow
      rw [satisfies_reference_iff hr (hnode.alone _ hr) leads]
      rw [hdocument] at h
      exact ih (.reference hused hr leads) hv place found h
    | none =>
      -- Otherwise its rules are evaluated, and what they check below is checked by the same engine.
      obtain ⟨rules, hrules, h⟩ := evaluate_rules hr h
      have hunreferenced : Unreferenced members := ⟨hnode, hr, hdistinct⟩
      refine hunreferenced.finds hv ⟨?_, ?_, ?_⟩ hrules found h
      · intro nodes hn alternative hmem
        exact ih (.alternative hused hn hmem) hv
      · rintro itemSchema hi vs rfl w hw
        exact ih (.items hused hi) (hv.inside (.item .here hw))
      · rintro ms rfl name w memberSchema hw hm
        obtain ⟨ds, hprops, hlookup⟩ := lookup_declared hm
        exact ih (.property hused hprops (Json.mem_of_lookup hlookup))
          (hv.inside (.member .here hw))

/-- A report is empty when nothing was found. -/
theorem reportOf_eq_nil {findings : List Finding} : reportOf v findings = [] ↔ findings = [] := by
  rw [reportOf, List.map_eq_nil_iff, ← List.length_eq_zero_iff, List.length_mergeSort,
    List.length_eq_zero_iff]

/-- A report of the engine comes from an evaluation with a registry that was filled from a store
that has grown. -/
theorem exists_evaluation (hnormal : schema.location.Normal) {maxRefChain : Nat} {report : Report}
    {t : Store} (ht : Store.Extends files s t)
    (h : (validateBy same files maxRefChain schema v).outcome t = .ok report) :
    ∃ fault registry levels findings,
      (Registry.ofSchema files maxRounds schema (Uri.fileUri schema.location.names) fault).outcome
        s = .ok registry ∧
      evaluate same registry levels (Uri.fileUri schema.location.names) schema.root v .root =
        some findings ∧
      report = reportOf v findings := by
  unfold validateBy at h
  cases hcheck : (ReferenceGraph.check files schema maxRefChain).outcome t with
  | error e =>
    rw [outcome_bind_error hcheck] at h
    cases h
  | ok =>
    have hgrown := ht.trans (ReferenceGraph.check_grows files schema maxRefChain t)
    rw [outcome_bind_ok hcheck] at h
    dsimp only at h
    split at h
    · cases h
    · next u hu =>
      have hfile := Uri.ofFile?_eq_some hnormal hu
      subst hfile
      have hsteady := Registry.steady_ofSchema files maxRounds schema
        (Uri.fileUri schema.location.names) (SchemaError.engineBuild schema.location)
      cases hfill : (Registry.ofSchema files maxRounds schema (Uri.fileUri schema.location.names)
          (SchemaError.engineBuild schema.location)).outcome
          ((ReferenceGraph.check files schema maxRefChain).after t) with
      | error e =>
        rw [outcome_bind_error hfill] at h
        cases h
      | ok registry =>
        rw [outcome_bind_ok hfill] at h
        rw [hsteady.stays hgrown] at hfill
        split at h
        · split at h
          · cases h
          · next findings hfindings =>
            exact ⟨_, registry, _, findings, hfill, hfindings, (Except.ok.inj h).symm⟩
        · cases h

/-- What the engine reports is empty exactly when the instance satisfies the schema by the same
comparison. -/
theorem validateBy_report_empty_iff (hrooted : Rooted files s schema)
    (hcommon : Common files s schema) (hv : Ordinary v) {maxRefChain : Nat} {report : Report}
    {t : Store} (ht : Store.Extends files s t)
    (h : (validateBy same files maxRefChain schema v).outcome t = .ok report) :
    report = [] ↔ Satisfies files s same (.ofDocument schema) schema.root v := by
  obtain ⟨fault, registry, levels, findings, hfill, hfindings, rfl⟩ :=
    exists_evaluation hrooted.normal ht h
  have hsound := Registry.ofSchema_sound hcommon.noIds hfill
  rw [reportOf_eq_nil]
  exact evaluate_finds hrooted hcommon hsound levels .root hv .root findings hfindings

end Draft7

/-! ## Both validators -/

/-- Where one comparison finds a listed value, another one finds it too. -/
def Implies (files : Texts) (s : Store) (schema : Document) (v : Json)
    (same same' : Json → Json → Bool) : Prop :=
  ∀ context members values w part, Used files s schema context (.obj members) →
    members.lookup "enum" = some (.arr values) → w ∈ values → v.Inside part →
    same part w = true → same' part w = true

/-- Satisfaction passes to a comparison that finds more: by induction on the derivation, whose nodes
all count and whose values all occur in the instance. -/
theorem Implies.satisfies {same same' : Json → Json → Bool}
    (himplies : Implies files s schema v same same') {part : Json}
    (h : Satisfies files s same context node part) (hused : Used files s schema context node)
    (hin : v.Inside part) : Satisfies files s same' context node part := by
  revert hused hin
  refine @Satisfies.rec files s same
    (fun context node part _ => Used files s schema context node → v.Inside part →
      Satisfies files s same' context node part)
    (fun context members part _ => Used files s schema context (.obj members) → v.Inside part →
      BehindReference files s same' context members part)
    (fun context members part _ => Used files s schema context (.obj members) → v.Inside part →
      SomeAlternative files s same' context members part)
    ?plain ?object ?noReference ?target ?noAlternatives ?empty ?met context node part h
  case plain => exact fun hno _ _ => .plain hno
  case object =>
    intro context members part _ _ own _ _ behind alternative items each hused hin
    -- Of the node's own keywords only `enum` compares.
    refine .object (behind hused hin) (alternative hused hin)
      ⟨own.type, fun values hx => ?_, own.kind⟩ ?_ ?_
    · obtain ⟨w, hw, he⟩ := own.enum values hx
      exact ⟨w, hw, himplies _ _ _ w part hused hx hw hin he⟩
    · rintro vs itemSchema rfl hi w hw
      exact items vs itemSchema rfl hi w hw (.items hused hi) (hin.item hw)
    · rintro ms rfl name w memberSchema hw hm
      obtain ⟨ds, hprops, hlookup⟩ := lookup_declared hm
      exact each ms rfl name w memberSchema hw hm
        (.property hused hprops (Json.mem_of_lookup hlookup)) (hin.member hw)
  case noReference => exact fun hno _ _ => .absent hno
  case target =>
    exact fun hr leads _ met hused hin => .target hr leads (met (.reference hused hr leads) hin)
  case noAlternatives => exact fun hno _ _ => .absent hno
  case empty => exact fun he _ _ => .empty he
  case met =>
    exact fun ha mem _ met hused hin => .met ha mem (met (.alternative hused ha mem) hin)

/-- Comparisons that decide which values are the same find the same listed values: what is listed
and what it is compared with have distinct names and exact numbers. -/
theorem implies_of_decidesSame {same same' : Json → Json → Bool} (h : Json.DecidesSame same)
    (h' : Json.DecidesSame same') (hrooted : Rooted files s schema)
    (hcommon : Common files s schema) (hv : Ordinary v) : Implies files s schema v same same' := by
  intro context members values w part hused hx hw hin hsame
  obtain ⟨members', he, hnode⟩ := hcommon.nodes _ _ hused
  cases he
  obtain ⟨hplaced, hinside⟩ := hused.placed hrooted
  have hlisted : (Json.obj members).Inside w :=
    .item (.member .here (Json.mem_of_lookup hx)) hw
  have hdistinct : w.Distinct :=
    (hplaced.held.distinct hrooted.store).inside (hinside.trans hlisted)
  have hexact : w.Exact := hnode.exact.inside hlisted
  have hpart : Ordinary part := hv.inside hin
  have hvalue : part.SameValue w :=
    (h part w hpart.distinct hdistinct hpart.exact hexact).mp hsame
  exact (h' part w hpart.distinct hdistinct hpart.exact hexact).mpr hvalue

/-- What the structural walk reports is empty exactly when the instance satisfies the schema,
whatever the order of members. -/
theorem Structural.validate_report_empty_iff {settings : Settings} {report : Report} {t : Store}
    (ht : Store.Extends files s t) (h : (validate files settings schema v).outcome t = .ok report) :
    report = [] ↔ Satisfies files s Json.equal (.ofDocument schema) schema.root v := by
  have hsteady : Steady files (validate files settings schema v) := walk_steady files settings _ ..
  rw [hsteady.stays ht] at h
  exact walk_decides files s settings _ v schema.root _ _ _ report h

/-- On the common subset, with an engine whose comparison decides which values are the same, the
report of one validator is empty exactly when that of the other is, and both are when the instance
satisfies the schema. Lengths count among the numbers of an instance that binary64 holds, as all
below `2⁵³` do. -/
theorem reports_agree (same : Json → Json → Bool) (hsame : Json.DecidesSame same) (files : FileTree)
    (s t t' : Store) (schema : Document) (v : Json) (hrooted : Rooted files s schema)
    (hcommon : Common files s schema) (hv : Ordinary v) (ht : Store.Extends files s t)
    (ht' : Store.Extends files s t') (maxRefChain : Nat) (settings : Settings)
    (found report : Report)
    (hengine : (Draft7.validateBy same files maxRefChain schema v).outcome t = .ok found)
    (hwalk : (Structural.validate files settings schema v).outcome t' = .ok report) :
    (found = [] ↔ report = []) ∧
      (report = [] ↔ Satisfies files s Json.equal (.ofDocument schema) schema.root v) := by
  have hfound := Draft7.validateBy_report_empty_iff hrooted hcommon hv ht hengine
  have hreport := Structural.validate_report_empty_iff ht' hwalk
  have hforth := implies_of_decidesSame hsame Json.decidesSame_equal hrooted hcommon hv
  have hback := implies_of_decidesSame Json.decidesSame_equal hsame hrooted hcommon hv
  have hboth : Satisfies files s same (.ofDocument schema) schema.root v ↔
      Satisfies files s Json.equal (.ofDocument schema) schema.root v :=
    ⟨fun h => hforth.satisfies h .root .here, fun h => hback.satisfies h .root .here⟩
  exact ⟨hfound.trans (hboth.trans hreport.symm), hreport⟩

/-! ## Marks -/

/-- A mark with its members in order. -/
def mark : Json := .obj [("x", .num (.int 1)), ("y", .num (.int 2))]

/-- A mark with another member `y`. -/
def strayMark : Json := .obj [("x", .num (.int 1)), ("y", .num (.int 3))]

/-- The node of a schema that lists the mark. -/
def markMembers : Members := [("enum", .arr [mark])]

/-- A schema of chains of marks, one of them listed. -/
def markSchema : Document where
  location := ⟨["s", "marks.json"]⟩
  root := .obj [("properties", .obj [("next", .obj [("$ref", .str "#")]),
    ("also", .obj [("$ref", .str "marks.json#/properties/mark")]), ("mark", .obj markMembers)])]

/-- A chain with a second mark and a list of notes. -/
def marks (second : Json) : Json :=
  .obj [("mark", mark), ("next", .obj [("also", second)]), ("notes", .arr [.str "first"])]

/-- The objects in the schema of marks have distinct names, none of them `$id`. -/
theorem objects_markSchema {members : Members} (h : markSchema.root.Inside (.obj members)) :
    (members.map Prod.fst).Nodup ∧ members.lookup "$id" = none := by
  have hmem := ReferenceGraph.mem_places_of_inside h
  simp [markSchema, markMembers, mark, ReferenceGraph.places, ReferenceGraph.memberPlaces,
    ReferenceGraph.itemPlaces] at hmem
  rcases hmem with rfl | rfl | rfl | rfl | rfl | rfl <;> decide

/-- The location of the schema of marks is normalized. -/
theorem normal_markSchema : markSchema.location.Normal := by decide

/-- The schema of marks is the only document of its store. -/
theorem rooted_markSchema : Rooted (.empty .root) ⟨[markSchema]⟩ markSchema where
  held := documentAt_of_find? (by rfl)
  normal := normal_markSchema
  store := Store.wellFormed_singleton (fun _ hin => (objects_markSchema hin).1) normal_markSchema

/-- Where only the schema of marks is held, there is no other document. -/
theorem documentAt_markSchema {l : Location} {d : Document}
    (h : documentAt (.empty .root) ⟨[markSchema]⟩ l none = .ok d) : d = markSchema :=
  List.mem_singleton.mp (mem_of_documentAt_empty h)

/-- The schema of marks gives no document a URI. -/
theorem noIds_markSchema (u : Uri) : Draft7.NoIds (.empty .root) ⟨[markSchema]⟩ markSchema u :=
  Draft7.noIds_singleton (fun _ hin => (objects_markSchema hin).2) u

/-- The numbers of the schema of marks are exact. -/
theorem exact_markSchema : markSchema.root.Exact := by
  intro n hin
  have hmem := ReferenceGraph.mem_places_of_inside hin
  simp [markSchema, markMembers, mark, ReferenceGraph.places, ReferenceGraph.memberPlaces,
    ReferenceGraph.itemPlaces] at hmem
  rcases hmem with rfl | rfl <;> decide +kernel

/-- The nodes of the schema of marks that count. -/
theorem used_markSchema (h : Used (.empty .root) ⟨[markSchema]⟩ markSchema context node) :
    context = .ofDocument markSchema ∧ (node = markSchema.root ∨ node = .obj [("$ref", .str "#")] ∨
      node = .obj [("$ref", .str "marks.json#/properties/mark")] ∨ node = .obj markMembers) := by
  have hroot : LeadsTo (.empty .root) ⟨[markSchema]⟩ (.ofDocument markSchema) "#"
      ⟨.of markSchema.location "#", .ofDocument markSchema⟩ markSchema.root :=
    ⟨by rfl, by rfl⟩
  have hmark : LeadsTo (.empty .root) ⟨[markSchema]⟩ (.ofDocument markSchema)
      "marks.json#/properties/mark"
      ⟨.of markSchema.location "#/properties/mark", .ofDocument markSchema⟩ (.obj markMembers) :=
    ⟨by rfl, by rfl⟩
  induction h with
  | root => exact ⟨rfl, .inl rfl⟩
  | reference _ hr leads ih =>
    obtain ⟨rfl, he | he | he | he⟩ := ih
    · cases he
      cases hr
    · cases he
      cases hr
      obtain ⟨rfl, rfl⟩ := hroot.unique leads
      exact ⟨rfl, .inl rfl⟩
    · cases he
      cases hr
      obtain ⟨rfl, rfl⟩ := hmark.unique leads
      exact ⟨rfl, .inr (.inr (.inr rfl))⟩
    · cases he
      cases hr
  | alternative _ ha _ ih =>
    obtain ⟨-, he | he | he | he⟩ := ih <;> cases he <;> cases ha
  | items _ hi ih =>
    obtain ⟨-, he | he | he | he⟩ := ih <;> cases he <;> cases hi
  | property _ hd mem ih =>
    obtain ⟨rfl, he | he | he | he⟩ := ih
    · cases he
      cases hd
      have hcase := by simpa using mem
      rcases hcase with ⟨-, rfl⟩ | ⟨-, rfl⟩ | ⟨-, rfl⟩
      · exact ⟨rfl, .inr (.inl rfl)⟩
      · exact ⟨rfl, .inr (.inr (.inl rfl))⟩
      · exact ⟨rfl, .inr (.inr (.inr rfl))⟩
    all_goals
      cases he
      cases hd

/-- The references of the schema of marks have the common form. -/
theorem commonReferences_markSchema :
    CommonReference "#" ∧ CommonReference "marks.json#/properties/mark" := by
  have hunreserved : ∀ segment : String, segment.toList.all Uri.isUnreserved = true →
      ∀ c ∈ segment.toList, Uri.isUnreserved c = true := fun _ h => List.all_eq_true.mp h
  constructor
  · exact ⟨by decide, .inl (by rfl), .inr ⟨[], by rfl, by simp, by simp⟩⟩
  · refine ⟨by decide, .inr ⟨["marks.json"], ?_⟩, .inr ⟨["properties", "mark"], ?_⟩⟩
    · refine ⟨by rfl, by simp, ⟨by simp, by simp⟩, fun segment hs => hunreserved segment ?_⟩
      rw [List.mem_singleton.mp hs]
      decide
    · refine ⟨by rfl, by simp, fun segment hs => hunreserved segment ?_⟩
      have hcase : segment = "properties" ∨ segment = "mark" := by simpa using hs
      rcases hcase with rfl | rfl <;> decide

/-- The schema of marks is within the common subset. -/
theorem common_markSchema : Common (.empty .root) ⟨[markSchema]⟩ markSchema where
  nodes context node h := by
    have hin := (h.placed rooted_markSchema).2
    obtain ⟨rfl, he⟩ := used_markSchema h
    have hexact := exact_markSchema.inside hin
    obtain ⟨hhash, hfile⟩ := commonReferences_markSchema
    rcases he with rfl | rfl | rfl | rfl
    · refine ⟨_, rfl, ⟨fun keyword w hmem => ?_, fun w hw => ?_, hexact⟩⟩
      · cases List.mem_singleton.mp hmem
        exact ⟨_, rfl⟩
      · cases hw
    · refine ⟨_, rfl, ⟨fun keyword w hmem => ?_, fun w hw p hp => ?_, hexact⟩⟩
      · cases List.mem_singleton.mp hmem
        exact ⟨_, rfl, hhash⟩
      · rw [List.mem_singleton.mp hp]
    · refine ⟨_, rfl, ⟨fun keyword w hmem => ?_, fun w hw p hp => ?_, hexact⟩⟩
      · cases List.mem_singleton.mp hmem
        exact ⟨_, rfl, hfile⟩
      · rw [List.mem_singleton.mp hp]
    · refine ⟨_, rfl, ⟨fun keyword w hmem => ?_, fun w hw => ?_, hexact⟩⟩
      · cases List.mem_singleton.mp hmem
        exact ⟨_, rfl⟩
      · cases hw
  noIds := noIds_markSchema _

/-- Chains of marks are ordinary. -/
theorem ordinary_marks {second : Json} (h : second = mark ∨ second = strayMark) :
    Ordinary (marks second) := by
  have hplaces : ∀ w, (marks second).Inside w →
      w = marks second ∨ w = .obj [("also", second)] ∨ w = mark ∨ w = strayMark ∨
        w = .arr [.str "first"] ∨ w = .str "first" ∨
        w = .num (.int 1) ∨ w = .num (.int 2) ∨ w = .num (.int 3) := by
    intro w hw
    have hmem := ReferenceGraph.mem_places_of_inside hw
    rcases h with rfl | rfl
    · simp [marks, mark, strayMark, ReferenceGraph.places, ReferenceGraph.memberPlaces,
        ReferenceGraph.itemPlaces] at hmem ⊢
      tauto
    · simp [marks, mark, strayMark, ReferenceGraph.places, ReferenceGraph.memberPlaces,
        ReferenceGraph.itemPlaces] at hmem ⊢
      tauto
  constructor
  · intro members hin
    have hmem := hplaces _ hin
    simp [marks, mark, strayMark] at hmem
    rcases hmem with rfl | rfl | rfl | rfl <;> simp
  · intro n hin
    have hmem := hplaces _ hin
    simp [marks, mark, strayMark] at hmem
    rcases hmem with rfl | rfl | rfl <;> decide +kernel
  · intro text hin
    have hmem := hplaces _ hin
    simp [marks, mark, strayMark] at hmem
    rw [hmem]
    exact countable_of_lt (by decide)
  · intro items hin
    have hmem := hplaces _ hin
    simp [marks, mark, strayMark] at hmem
    rw [hmem]
    exact countable_of_lt (by decide)

/-- A report of a known length. -/
theorem eq_ok_of_length {x : Except SchemaError Report} {n : Nat}
    (h : x.toOption.map List.length = some n) : ∃ report, x = .ok report ∧ report.length = n := by
  cases x with
  | error e => cases h
  | ok report => exact ⟨report, rfl, Option.some.inj h⟩

/-- A chain of listed marks is accepted by both validators, and one with another mark by neither.
Comparing members in order makes no difference on them. -/
theorem marks_judged :
    Json.DecidesSame Json.equal ∧
      (∀ second ∈ [mark, strayMark],
        (Draft7.validateBy Json.equal (.empty .root) 64 markSchema (marks second)).outcome
            ⟨[markSchema]⟩ =
          (Draft7.validate (.empty .root) 64 markSchema (marks second)).outcome ⟨[markSchema]⟩) ∧
      (Draft7.validateBy Json.equal (.empty .root) 64 markSchema (marks mark)).outcome
          ⟨[markSchema]⟩ = .ok [] ∧
      (Structural.validate (.empty .root) ⟨64, 512, false⟩ markSchema (marks mark)).outcome
          ⟨[markSchema]⟩ = .ok [] ∧
      ∃ found report,
        (Draft7.validateBy Json.equal (.empty .root) 64 markSchema (marks strayMark)).outcome
            ⟨[markSchema]⟩ = .ok found ∧
          (Structural.validate (.empty .root) ⟨64, 512, false⟩ markSchema
            (marks strayMark)).outcome ⟨[markSchema]⟩ = .ok report ∧
          found ≠ [] ∧ report ≠ [] := by
  -- The lengths of the reports of the engine are computed, those of the walk follow.
  have hwalk : ∀ second ∈ [mark, strayMark], ((Structural.validate (.empty .root) ⟨64, 512, false⟩
      markSchema (marks second)).outcome ⟨[markSchema]⟩).toOption.isSome := by
    decide +kernel
  have hagree : ∀ second ∈ [mark, strayMark], ∀ found,
      (Draft7.validateBy Json.equal (.empty .root) 64 markSchema (marks second)).outcome
        ⟨[markSchema]⟩ = .ok found →
      ∃ report, (Structural.validate (.empty .root) ⟨64, 512, false⟩ markSchema
        (marks second)).outcome ⟨[markSchema]⟩ = .ok report ∧ (found = [] ↔ report = []) := by
    intro second hmem found hengine
    have hsecond : second = mark ∨ second = strayMark := by simpa using hmem
    cases h : (Structural.validate (.empty .root) ⟨64, 512, false⟩ markSchema
        (marks second)).outcome ⟨[markSchema]⟩ with
    | error e =>
      have hsome := hwalk second hmem
      rw [h] at hsome
      cases hsome
    | ok report =>
      exact ⟨report, rfl, (reports_agree Json.equal Json.decidesSame_equal (.empty .root)
        ⟨[markSchema]⟩ _ _ markSchema (marks second) rooted_markSchema common_markSchema
        (ordinary_marks hsecond) (Store.Extends.refl _ _) (Store.Extends.refl _ _) 64 _ found report
        hengine h).1⟩
  obtain ⟨found, hfound, hnone⟩ := eq_ok_of_length (n := 0)
    (x := (Draft7.validateBy Json.equal (.empty .root) 64 markSchema (marks mark)).outcome
      ⟨[markSchema]⟩) (by decide +kernel)
  obtain ⟨stray, hstray, hone⟩ := eq_ok_of_length (n := 1)
    (x := (Draft7.validateBy Json.equal (.empty .root) 64 markSchema (marks strayMark)).outcome
      ⟨[markSchema]⟩) (by decide +kernel)
  obtain ⟨report, hreport, hiff⟩ := hagree mark (by simp) found hfound
  obtain ⟨strayReport, hstrayReport, hstrayIff⟩ := hagree strayMark (by simp) stray hstray
  have hnil : found = [] := List.length_eq_zero_iff.mp hnone
  have hne : stray ≠ [] := List.ne_nil_of_length_pos (by omega)
  refine ⟨Json.decidesSame_equal, by decide +kernel, hnil ▸ hfound, hiff.mp hnil ▸ hreport, stray,
    strayReport, hstray, hstrayReport, hne, fun h => hne (hstrayIff.mpr h)⟩

end LinkedSchema
