import LinkedSchema.Proofs.References
import LinkedSchema.Validation.ReferenceGraph

/-!
# Trails through schemas

A `Trail` is a sequence of steps in place: it follows references and goes into subschemas that
apply to the same value, and it records the identities that its references lead to. A location is
`Reached` when steps into parts of the value lead to it, each from the end of a trail. A schema is
`Followable` when on all trails from all locations every reference can be resolved, no identity
comes twice and no more than `limit` references follow each other; `Fault` says what else is met.

None of this mentions pointers or the order of a walk. The second half relates it to the pointers
that the walk builds: `Stands` says that a pointer leads to a node in its context, and the pointers
of all subschemas of a node that stands somewhere are right (`Stands.inPlace`, `Stands.part`).
-/

namespace LinkedSchema.ReferenceGraph

open Loading

/-! ## Steps between nodes -/

/-- A subschema is the value of a keyword, or an item of it if the value is a list. -/
inductive Under (schema : Members) (keyword : String) (v : Json) : Prop
  /-- The value itself. -/
  | value (h : schema.lookup keyword = some v) (single : ∀ items, v ≠ .arr items)
  /-- An item of a list. -/
  | item {items : List Json} (h : schema.lookup keyword = some (.arr items)) (mem : v ∈ items)

/-- A subschema is a member of a keyword that maps names to subschemas. -/
inductive Among (schema : Members) (keyword : String) (v : Json) : Prop
  /-- The member of some name. -/
  | member {members : Members} {name : String} (h : schema.lookup keyword = some (.obj members))
    (mem : (name, v) ∈ members)

/-- A subschema applies to the same value as the schema. -/
inductive InPlace (schema : Members) (v : Json) : Prop
  /-- It stands under a keyword that combines schemas. -/
  | under {keyword : String}
    (h : keyword ∈ ["allOf", "anyOf", "oneOf", "not", "if", "then", "else"])
    (hv : Under schema keyword v)
  /-- It is an object that some name depends on. -/
  | dependency (hv : Among schema "dependencies" v) (hobject : v.isObject = true)

/-- A subschema applies to parts of the value: its members, items or names. -/
inductive Part (schema : Members) (v : Json) : Prop
  /-- It is the schema of the members with some name. -/
  | member {keyword : String} (h : keyword ∈ ["properties", "patternProperties"])
    (hv : Among schema keyword v)
  /-- It stands under a keyword for members, items or names in general. -/
  | under {keyword : String} (h : keyword ∈
      ["additionalProperties", "items", "additionalItems", "contains", "propertyNames"])
    (hv : Under schema keyword v)

/-- A node occurs in the value of a keyword. -/
def Beneath (schema : Members) (v : Json) : Prop :=
  ∃ keyword w, (keyword, w) ∈ schema ∧ w.Inside v

/-- It occurs in the schema. -/
theorem Beneath.inside {schema : Members} {v : Json} (h : Beneath schema v) :
    (Json.obj schema).Inside v := by
  obtain ⟨keyword, w, mem, hw⟩ := h
  exact Json.Inside.trans (.member .here mem) hw

/-- It is lower than the schema. -/
theorem Beneath.height_lt {schema : Members} {v : Json} (h : Beneath schema v) :
    v.height < (Json.obj schema).height := by
  obtain ⟨keyword, w, mem, hw⟩ := h
  calc v.height
      ≤ w.height := hw.height_le
    _ < (Json.obj schema).height := Json.height_lt_of_mem_members mem

/-- What stands under a keyword occurs in its value. -/
theorem Under.beneath {schema : Members} {keyword : String} {v : Json}
    (h : Under schema keyword v) : Beneath schema v := by
  cases h with
  | value h => exact ⟨keyword, v, Json.mem_of_lookup h, .here⟩
  | item h mem => exact ⟨keyword, _, Json.mem_of_lookup h, .item .here mem⟩

/-- What is among the members of a keyword occurs in its value. -/
theorem Among.beneath {schema : Members} {keyword : String} {v : Json}
    (h : Among schema keyword v) : Beneath schema v := by
  cases h with
  | member h mem => exact ⟨keyword, _, Json.mem_of_lookup h, .member .here mem⟩

/-- What applies to the same value occurs in the value of a keyword. -/
theorem InPlace.beneath {schema : Members} {v : Json} (h : InPlace schema v) :
    Beneath schema v := by
  cases h with
  | under _ hv => exact hv.beneath
  | dependency hv => exact hv.beneath

/-- What applies to a part of the value occurs in the value of a keyword. -/
theorem Part.beneath {schema : Members} {v : Json} (h : Part schema v) : Beneath schema v := by
  cases h with
  | member _ hv => exact hv.beneath
  | under _ hv => exact hv.beneath

/-- A sequence of steps in place from a node to another, with the identities that its references
lead to. -/
inductive Trail (files : Texts) (s : Store) (context : Context) (node : Json) :
    List Identity → Context → Json → Prop
  /-- The sequence without steps. -/
  | here : Trail files s context node [] context node
  /-- One more reference. -/
  | hop {hops : List Identity} {c : Context} {schema : Members} {reference : String}
    {target : Target} {next : Json} (trail : Trail files s context node hops c (.obj schema))
    (h : schema.lookup "$ref" = some (.str reference))
    (leads : LeadsTo files s c reference target next) :
    Trail files s context node (hops ++ [target.identity]) target.context next
  /-- One more step into a subschema. -/
  | apply {hops : List Identity} {c : Context} {schema : Members} {v : Json}
    (trail : Trail files s context node hops c (.obj schema)) (h : InPlace schema v) :
    Trail files s context node hops c v

variable {files : Texts} {s : Store} {limit : Nat} {context : Context} {node : Json}

/-- A trail either stays, or starts with a reference, or with a step into a subschema. -/
theorem Trail.cases_start {hops : List Identity} {c : Context} {n : Json}
    (h : Trail files s context node hops c n) :
    (hops = [] ∧ c = context ∧ n = node) ∨
      (∃ schema reference target next rest, node = .obj schema ∧
        schema.lookup "$ref" = some (.str reference) ∧
        LeadsTo files s context reference target next ∧ hops = target.identity :: rest ∧
        Trail files s target.context next rest c n) ∨
      ∃ schema v, node = .obj schema ∧ InPlace schema v ∧ Trail files s context v hops c n := by
  induction h with
  | here => exact .inl ⟨rfl, rfl, rfl⟩
  | hop _ href leads ih =>
    right
    rcases ih with ⟨rfl, rfl, rfl⟩ | ⟨schema, r, t, next, rest, hn, hr, hl, rfl, ht⟩ |
      ⟨schema, v, hn, hv, ht⟩
    · exact .inl ⟨_, _, _, _, [], rfl, href, leads, rfl, .here⟩
    · exact .inl ⟨schema, r, t, next, _, hn, hr, hl, rfl, .hop ht href leads⟩
    · exact .inr ⟨schema, v, hn, hv, .hop ht href leads⟩
  | apply _ hstep ih =>
    right
    rcases ih with ⟨rfl, rfl, rfl⟩ | ⟨schema, r, t, next, rest, hn, hr, hl, rfl, ht⟩ |
      ⟨schema, v, hn, hv, ht⟩
    · exact .inr ⟨_, _, rfl, hstep, .here⟩
    · exact .inl ⟨schema, r, t, next, rest, hn, hr, hl, rfl, .apply ht hstep⟩
    · exact .inr ⟨schema, v, hn, hv, .apply ht hstep⟩

/-- A location: the node to start from, or a part of a node on a trail from a location. -/
inductive Reached (files : Texts) (s : Store) (context : Context) (node : Json) :
    Context → Json → Prop
  /-- The start. -/
  | start : Reached files s context node context node
  /-- A part of the value. -/
  | part {c c' : Context} {n v : Json} {hops : List Identity} {schema : Members}
    (reached : Reached files s context node c n) (trail : Trail files s c n hops c' (.obj schema))
    (h : Part schema v) : Reached files s context node c' v

/-- A node lies at the end of a trail from a location of a schema. -/
def OnTrail (files : Texts) (s : Store) (start : Document) (hops : List Identity) (c : Context)
    (n : Json) : Prop :=
  ∃ c' n', Reached files s (.ofDocument start) start.root c' n' ∧ Trail files s c' n' hops c n

/-! ## What is asked of trails -/

/-- A trail repeats no identity, is short enough, and if it ends at a node with a reference, this is
a string that is resolved. -/
structure Sound (files : Texts) (s : Store) (limit : Nat) (hops : List Identity) (c : Context)
    (n : Json) : Prop where
  /-- No identity comes twice. -/
  distinct : hops.Nodup
  /-- There are not too many references. -/
  short : hops.length ≤ limit
  /-- The reference at the end is resolved. -/
  resolves : ∀ schema reference, n = .obj schema → schema.lookup "$ref" = some reference →
    ∃ text target, reference = .str text ∧
      (resolveReference files text c).outcome s = .ok target

/-- All trails from all locations of a schema are sound. -/
def Followable (files : Texts) (s : Store) (limit : Nat) (start : Document) : Prop :=
  ∀ hops c n, OnTrail files s start hops c n → Sound files s limit hops c n

/-- An error is true of the reference at the end of a trail. -/
inductive Fault (files : Texts) (s : Store) (limit : Nat) (hops : List Identity) (c : Context)
    (schema : Members) : SchemaError → Prop
  /-- The reference is no string. -/
  | malformed {reference : Json} (h : schema.lookup "$ref" = some reference)
    (hno : ∀ text, reference ≠ .str text) :
    Fault files s limit hops c schema (.invalidReference reference.render .notAString)
  /-- The reference is not resolved. -/
  | unresolved {text : String} {e : SchemaError} (h : schema.lookup "$ref" = some (.str text))
    (he : (resolveReference files text c).outcome s = .error e) :
    Fault files s limit hops c schema e
  /-- The reference leads back to an identity of the trail. -/
  | cycle {text : String} {target : Target} {next : Json}
    (h : schema.lookup "$ref" = some (.str text)) (leads : LeadsTo files s c text target next)
    (again : target.identity ∈ hops) :
    Fault files s limit hops c schema (.cyclicReference (hops ++ [target.identity]))
  /-- The reference comes after as many as there may be. -/
  | tooLong {text : String} {target : Target} {next : Json}
    (h : schema.lookup "$ref" = some (.str text)) (leads : LeadsTo files s c text target next)
    (full : hops.length = limit) :
    Fault files s limit hops c schema (.referenceChainTooLong limit text)

/-- An error is true of some trail of a schema, which is sound but for the reference at its end. -/
def FaultOf (files : Texts) (s : Store) (limit : Nat) (start : Document) (e : SchemaError) :
    Prop :=
  ∃ hops c schema, OnTrail files s start hops c (.obj schema) ∧ hops.Nodup ∧ hops.length ≤ limit ∧
    Fault files s limit hops c schema e

/-! ## Nodes where pointers lead -/

/-- A pointer leads to a node of a document that is held. -/
structure Stands (files : Texts) (s : Store) (context : Context) (pointer : String)
    (node : Json) : Prop where
  /-- The document is held. -/
  held : context.Held files s
  /-- The pointer is normalized for good. -/
  plain : Pointer.Plain pointer
  /-- The pointer leads to the node. -/
  reaches : Pointer.Reaches context.root.root pointer node

variable {schema : Members} {pointer keyword : String} {v : Json}

/-- Where equal identities stand, there is one node. -/
theorem Stands.unique {context' : Context} {pointer' : String} {node' : Json}
    (h : Stands files s context pointer node) (h' : Stands files s context' pointer' node')
    (he : Identity.of context.root.location pointer = Identity.of context'.root.location pointer') :
    context = context' ∧ pointer = pointer' ∧ node = node' := by
  unfold Identity.of at he
  rw [h.plain.normalize_eq, h'.plain.normalize_eq] at he
  obtain ⟨hl, rfl⟩ := Identity.mk.inj he
  -- At one location there is one document, and its context is that of a held one.
  have hroot : context.root = context'.root := by
    have hd := h.held.document
    rw [hl, h'.held.document] at hd
    exact (Except.ok.inj hd).symm
  have hcontext : context = context' := by
    rw [h.held.directory, h'.held.directory, hroot]
  subst hcontext
  exact ⟨rfl, rfl, h.reaches.unique h'.reaches⟩

/-- The root of a document of the store stands at the empty pointer. -/
theorem Stands.root {d : Document} (h : s.find? d.location = some d) :
    Stands files s (.ofDocument d) "" d.root where
  held := Context.held_ofDocument (documentAt_of_find? h)
  plain := .empty
  reaches := .root d.root

/-- A node that stands somewhere occurs in the document. -/
theorem Stands.inside (h : Stands files s context pointer node) :
    context.root.root.Inside node := h.reaches.inside

/-- The reference of a node that stands somewhere has a plain pointer. -/
theorem Stands.plain_reference (hplain : PlainReferences files s)
    (h : Stands files s context pointer (.obj schema)) {reference : String}
    (href : schema.lookup "$ref" = some (.str reference)) :
    Pointer.Plain (Pointer.normalize (pointerPart reference)) :=
  hplain _ _ h.held.document reference ⟨schema, h.inside, href⟩

/-- A resolved reference leads to a node. -/
theorem Stands.leadsTo (hplain : PlainReferences files s)
    (h : Stands files s context pointer (.obj schema)) {reference : String}
    (href : schema.lookup "$ref" = some (.str reference)) {target : Target}
    (hresolved : (resolveReference files reference context).outcome s = .ok target) :
    ∃ next, LeadsTo files s context reference target next :=
  leadsTo_of_resolved (h.plain_reference hplain href) hresolved

/-- What a reference leads to stands at the pointer of its target. -/
theorem Stands.target (hplain : PlainReferences files s)
    (h : Stands files s context pointer (.obj schema)) {reference : String}
    (href : schema.lookup "$ref" = some (.str reference)) {target : Target} {next : Json}
    (leads : LeadsTo files s context reference target next) :
    Stands files s target.context target.identity.pointer next := by
  have hp := plain_of_resolved (h.plain_reference hplain href) leads.resolved
  refine ⟨held_of_resolved h.held leads.resolved, hp, ?_⟩
  have hreaches := leads.reaches
  rwa [hp.normalize_eq] at hreaches

/-- The name of a keyword is neither empty nor does it start with a hash. -/
structure IsKeyword (keyword : String) : Prop where
  /-- It is not empty. -/
  nonempty : keyword ≠ ""
  /-- It does not start with a hash. -/
  hash : keyword.toList.head? ≠ some '#'

/-- The keywords with subschemas are keywords. -/
theorem isKeyword_of_mem (h : keyword ∈ "dependencies" :: inPlaceKeywords ++ memberKeywords ++
    partKeywords) : IsKeyword keyword := by
  revert keyword
  suffices h : ∀ keyword ∈ "dependencies" :: inPlaceKeywords ++ memberKeywords ++ partKeywords,
      keyword ≠ "" ∧ keyword.toList.head? ≠ some '#' from
    fun keyword hmem => ⟨(h keyword hmem).1, (h keyword hmem).2⟩
  decide +kernel

/-- The value of a keyword stands one step down. -/
theorem Stands.valueOf (h : Stands files s context pointer (.obj schema)) (hk : IsKeyword keyword)
    (hv : schema.lookup keyword = some v) :
    Stands files s context (Pointer.child pointer keyword) v where
  held := h.held
  plain := h.plain.child fun _ => hk.hash
  reaches := h.reaches.down hv (.inr hk.nonempty)

/-- An item stands one step down from an array below the root. -/
theorem Stands.item {items : List Json} {i : Nat} (h : Stands files s context pointer (.arr items))
    (hp : pointer ≠ "") (hv : items[i]? = some v) :
    Stands files s context (Pointer.child pointer (toString i)) v where
  held := h.held
  plain := h.plain.child fun he => absurd he hp
  reaches := h.reaches.down (by rw [Pointer.down?, Pointer.index?_toString]; exact hv) (.inl hp)

/-- A member stands one step down from an object below the root. -/
theorem Stands.member {members : Members} {name : String} (hs : s.WellFormed)
    (h : Stands files s context pointer (.obj members)) (hp : pointer ≠ "")
    (hv : (name, v) ∈ members) : Stands files s context (Pointer.child pointer name) v where
  held := h.held
  plain := h.plain.child fun he => absurd he hp
  reaches := h.reaches.down
    (Json.lookup_of_mem ((h.held.distinct hs) members h.inside) hv) (.inl hp)

/-! ## The subschemas that the walk visits -/

/-- Numbered items are items with the pointers of their numbers. -/
theorem mem_numbered {i : Nat} {items : List Json} {q : String} :
    (q, v) ∈ numbered pointer i items ↔
      ∃ j, items[j]? = some v ∧ q = Pointer.child pointer (toString (i + j)) := by
  induction items generalizing i with
  | nil => simp [numbered]
  | cons w rest ih =>
    rw [numbered, List.mem_cons, ih]
    constructor
    · rintro (he | ⟨j, hj, rfl⟩)
      · cases he
        exact ⟨0, rfl, rfl⟩
      · exact ⟨j + 1, hj, by rw [Nat.add_right_comm, Nat.add_assoc]⟩
    · rintro ⟨j, hj, rfl⟩
      cases j with
      | zero =>
        cases hj
        exact .inl rfl
      | succ j => exact .inr ⟨j, hj, by rw [Nat.add_right_comm, Nat.add_assoc]⟩

/-- What stands under a keyword is what the walk finds there. -/
theorem under_iff : Under schema keyword v ↔ ∃ q, (q, v) ∈ subschemas schema pointer keyword := by
  unfold subschemas
  constructor
  · intro h
    cases h with
    | value h single =>
      refine ⟨Pointer.child pointer keyword, ?_⟩
      rw [h]
      cases v with
      | arr items => exact absurd rfl (single items)
      | _ => exact List.mem_singleton_self _
    | item h mem =>
      obtain ⟨j, hj⟩ := List.mem_iff_getElem?.mp mem
      rw [h]
      exact ⟨_, mem_numbered.mpr ⟨j, hj, rfl⟩⟩
  · rintro ⟨q, hq⟩
    dsimp only at hq
    split at hq
    · next items h =>
      obtain ⟨j, hj, -⟩ := mem_numbered.mp hq
      exact .item h (List.mem_of_getElem? hj)
    · next w hno h =>
      cases List.mem_singleton.mp hq
      exact .value h hno
    · cases hq

/-- What the walk finds under a keyword stands at the pointer that it builds. -/
theorem Stands.subschema (h : Stands files s context pointer (.obj schema)) (hk : IsKeyword keyword)
    {q : String} (hq : (q, v) ∈ subschemas schema pointer keyword) :
    Stands files s context q v := by
  unfold subschemas at hq
  dsimp only at hq
  split at hq
  · next items hv =>
    obtain ⟨j, hj, rfl⟩ := mem_numbered.mp hq
    rw [Nat.zero_add]
    exact (h.valueOf hk hv).item (Pointer.child_ne_empty (.inr hk.nonempty)) hj
  · next w _ hv =>
    cases List.mem_singleton.mp hq
    exact h.valueOf hk hv
  · cases hq

/-- The members of a keyword are what the walk finds there. -/
theorem among_iff :
    Among schema keyword v ↔ ∃ q, (q, v) ∈ memberSchemas schema pointer keyword := by
  unfold memberSchemas
  constructor
  · rintro ⟨h, mem⟩
    rw [h]
    exact ⟨_, List.mem_map.mpr ⟨_, mem, rfl⟩⟩
  · rintro ⟨q, hq⟩
    dsimp only at hq
    split at hq
    · next members h =>
      obtain ⟨⟨name, w⟩, mem, he⟩ := List.mem_map.mp hq
      cases he
      exact .member h mem
    · cases hq

/-- The members of a keyword stand at the pointers that the walk builds. -/
theorem Stands.memberSchema (hs : s.WellFormed) (h : Stands files s context pointer (.obj schema))
    (hk : IsKeyword keyword) {q : String} (hq : (q, v) ∈ memberSchemas schema pointer keyword) :
    Stands files s context q v := by
  unfold memberSchemas at hq
  dsimp only at hq
  split at hq
  · next members hv =>
    obtain ⟨⟨name, w⟩, mem, he⟩ := List.mem_map.mp hq
    cases he
    exact (h.valueOf hk hv).member hs (Pointer.child_ne_empty (.inr hk.nonempty)) mem
  · cases hq

/-- The steps in place are those of the walk. -/
theorem inPlace_iff (pointer : String) :
    InPlace schema v ↔ ∃ q, (q, v) ∈ inPlace schema pointer := by
  unfold inPlace
  simp only [List.mem_append, List.mem_flatMap, List.mem_filter]
  constructor
  · intro h
    cases h with
    | under hk hv =>
      obtain ⟨q, hq⟩ := under_iff.mp hv
      exact ⟨q, .inl ⟨_, hk, hq⟩⟩
    | dependency hv hobject =>
      obtain ⟨q, hq⟩ := among_iff.mp hv
      exact ⟨q, .inr ⟨hq, hobject⟩⟩
  · rintro ⟨q, ⟨keyword, hk, hq⟩ | ⟨hq, hobject⟩⟩
    · exact .under hk (under_iff.mpr ⟨q, hq⟩)
    · exact .dependency (among_iff.mpr ⟨q, hq⟩) hobject

/-- The steps into parts are those of the walk. -/
theorem part_iff (pointer : String) : Part schema v ↔ ∃ q, (q, v) ∈ parts schema pointer := by
  unfold parts
  simp only [List.mem_append, List.mem_flatMap]
  constructor
  · intro h
    cases h with
    | member hk hv =>
      obtain ⟨q, hq⟩ := among_iff.mp hv
      exact ⟨q, .inl ⟨_, hk, hq⟩⟩
    | under hk hv =>
      obtain ⟨q, hq⟩ := under_iff.mp hv
      exact ⟨q, .inr ⟨_, hk, hq⟩⟩
  · rintro ⟨q, ⟨keyword, hk, hq⟩ | ⟨keyword, hk, hq⟩⟩
    · exact .member hk (among_iff.mpr ⟨q, hq⟩)
    · exact .under hk (under_iff.mpr ⟨q, hq⟩)

/-- A subschema that applies to the same value stands at the pointer that the walk builds. -/
theorem Stands.inPlace (hs : s.WellFormed) (h : Stands files s context pointer (.obj schema))
    {q : String} (hq : (q, v) ∈ ReferenceGraph.inPlace schema pointer) :
    Stands files s context q v := by
  unfold ReferenceGraph.inPlace at hq
  rcases List.mem_append.mp hq with hq | hq
  · obtain ⟨keyword, hk, hq⟩ := List.mem_flatMap.mp hq
    exact h.subschema (isKeyword_of_mem (by simp [hk])) hq
  · exact h.memberSchema hs (isKeyword_of_mem (by simp)) (List.mem_filter.mp hq).1

/-- A subschema that applies to a part of the value stands at the pointer that the walk builds. -/
theorem Stands.part (hs : s.WellFormed) (h : Stands files s context pointer (.obj schema))
    {q : String} (hq : (q, v) ∈ parts schema pointer) : Stands files s context q v := by
  unfold parts at hq
  rcases List.mem_append.mp hq with hq | hq
  · obtain ⟨keyword, hk, hq⟩ := List.mem_flatMap.mp hq
    exact h.memberSchema hs (isKeyword_of_mem (by simp [hk])) hq
  · obtain ⟨keyword, hk, hq⟩ := List.mem_flatMap.mp hq
    exact h.subschema (isKeyword_of_mem (by simp [hk])) hq

/-- What lies on a trail from a node that stands somewhere stands somewhere. -/
theorem Trail.stands (hs : s.WellFormed) (hplain : PlainReferences files s)
    (h : Stands files s context pointer node) {hops : List Identity} {c : Context} {n : Json}
    (trail : Trail files s context node hops c n) : ∃ q, Stands files s c q n := by
  induction trail with
  | here => exact ⟨pointer, h⟩
  | hop _ href leads ih =>
    obtain ⟨q, hq⟩ := ih
    exact ⟨_, hq.target hplain href leads⟩
  | apply _ hstep ih =>
    obtain ⟨q, hq⟩ := ih
    obtain ⟨q', hq'⟩ := (inPlace_iff q).mp hstep
    exact ⟨q', hq.inPlace hs hq'⟩

/-- What lies on a trail from a location of a schema in the store stands somewhere. -/
theorem OnTrail.stands (hs : s.WellFormed) (hplain : PlainReferences files s) {start : Document}
    (hstart : s.find? start.location = some start) {hops : List Identity} {c : Context} {n : Json}
    (h : OnTrail files s start hops c n) : ∃ q, Stands files s c q n := by
  obtain ⟨c', n', hreached, trail⟩ := h
  suffices h : ∃ q, Stands files s c' q n' by
    obtain ⟨q, hq⟩ := h
    exact trail.stands hs hplain hq
  clear trail
  induction hreached with
  | start => exact ⟨"", .root hstart⟩
  | part _ trail hpart ih =>
    obtain ⟨q, hq⟩ := ih
    obtain ⟨q', hq'⟩ := trail.stands hs hplain hq
    obtain ⟨q'', hq''⟩ := (part_iff q').mp hpart
    exact ⟨q'', hq'.part hs hq''⟩

end LinkedSchema.ReferenceGraph
