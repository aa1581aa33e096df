import LinkedSchema.Proofs.Closure
import Mathlib.Data.List.Perm.Subperm

/-!
# The levels of the walk suffice

The walk through the reference graph ends by itself, without its levels. All identities that it can
expand are in the finite list `candidates`: they are the places inside the schema and inside the
targets of the references that are written in some document, whatever their spelling. So there are
at most `levels` steps below each other: a location is expanded once, the references of a chain are
bounded, and every other step leads to a smaller value. `room` counts what is left of all three, and
every step takes some of it.
-/

namespace LinkedSchema.ReferenceGraph

open Loading

/-! ## Places inside a value -/

mutual

/-- All values inside a value, with their pointers below a given one. -/
def places (pointer : String) : Json → List (String × Json)
  | .arr items => (pointer, .arr items) :: itemPlaces pointer 0 items
  | .obj members => (pointer, .obj members) :: memberPlaces pointer members
  | v => [(pointer, v)]

/-- The places inside items, which are counted from a number. -/
def itemPlaces (pointer : String) (i : Nat) : List Json → List (String × Json)
  | [] => []
  | v :: rest => places (Pointer.child pointer (toString i)) v ++ itemPlaces pointer (i + 1) rest

/-- The places inside members. -/
def memberPlaces (pointer : String) : Members → List (String × Json)
  | [] => []
  | (name, v) :: rest => places (Pointer.child pointer name) v ++ memberPlaces pointer rest

end

mutual

/-- There are as many places as values. -/
theorem length_places (pointer : String) : ∀ v : Json, (places pointer v).length = v.size
  | .null | .bool _ | .num _ | .str _ => rfl
  | .arr items => by rw [places, List.length_cons, length_itemPlaces pointer 0 items, Json.size]
  | .obj members => by rw [places, List.length_cons, length_memberPlaces pointer members, Json.size]

/-- There are as many places inside items as values. -/
theorem length_itemPlaces (pointer : String) (i : Nat) :
    ∀ items, (itemPlaces pointer i items).length = Json.sizeItems items
  | [] => rfl
  | v :: rest => by
    rw [itemPlaces, List.length_append, length_places _ v, length_itemPlaces pointer (i + 1) rest,
      Json.sizeItems]

/-- There are as many places inside members as values. -/
theorem length_memberPlaces (pointer : String) :
    ∀ members, (memberPlaces pointer members).length = Json.sizeMembers members
  | [] => rfl
  | (name, v) :: rest => by
    rw [memberPlaces, List.length_append, length_places _ v, length_memberPlaces pointer rest,
      Json.sizeMembers]

end

variable {pointer q : String} {v w : Json}

/-- A value is the first of its places. -/
theorem mem_places_self (pointer : String) (v : Json) : (pointer, v) ∈ places pointer v := by
  cases v <;> simp [places]

/-- The places inside an item are places. -/
theorem places_subset_itemPlaces {items : List Json} {i j : Nat} (h : items[j]? = some v) :
    places (Pointer.child pointer (toString (i + j))) v ⊆ itemPlaces pointer i items := by
  induction items generalizing i j with
  | nil => cases h
  | cons w rest ih =>
    intro p hp
    rw [itemPlaces, List.mem_append]
    cases j with
    | zero =>
      cases h
      exact .inl hp
    | succ j =>
      rw [← Nat.add_assoc, Nat.add_right_comm] at hp
      exact .inr (ih h hp)

/-- The places inside a member are places. -/
theorem places_subset_memberPlaces {members : Members} {name : String} (h : (name, v) ∈ members) :
    places (Pointer.child pointer name) v ⊆ memberPlaces pointer members := by
  induction members with
  | nil => cases h
  | cons p rest ih =>
    obtain ⟨k, w⟩ := p
    intro p hp
    rw [memberPlaces, List.mem_append]
    rcases List.mem_cons.mp h with he | h
    · cases he
      exact .inl hp
    · exact .inr (ih h hp)

/-- The places inside an item of an array. -/
theorem places_item {items : List Json} {i : Nat} (h : items[i]? = some v) :
    places (Pointer.child pointer (toString i)) v ⊆ places pointer (.arr items) := by
  have hsub : places (Pointer.child pointer (toString (0 + i))) v ⊆ itemPlaces pointer 0 items :=
    places_subset_itemPlaces h
  rw [Nat.zero_add] at hsub
  rw [places]
  exact List.subset_cons_of_subset _ hsub

/-- The places inside a member of an object. -/
theorem places_member {members : Members} {name : String} (h : (name, v) ∈ members) :
    places (Pointer.child pointer name) v ⊆ places pointer (.obj members) := by
  rw [places]
  exact List.subset_cons_of_subset _ (places_subset_memberPlaces h)

/-- Every value inside has a place, and the places inside it are places. -/
theorem places_of_inside {root : Json} (h : root.Inside v) (pointer : String) :
    ∃ q, places q v ⊆ places pointer root := by
  induction h with
  | here => exact ⟨pointer, List.Subset.refl _⟩
  | item _ mem ih =>
    obtain ⟨q, hq⟩ := ih
    obtain ⟨i, hi⟩ := List.mem_iff_getElem?.mp mem
    exact ⟨_, List.Subset.trans (places_item hi) hq⟩
  | member _ mem ih =>
    obtain ⟨q, hq⟩ := ih
    exact ⟨_, List.Subset.trans (places_member mem) hq⟩

/-- Every value inside is one of the places. -/
theorem mem_places_of_inside {root : Json} (h : root.Inside v) :
    v ∈ (places "" root).map Prod.snd := by
  obtain ⟨q, hq⟩ := places_of_inside h ""
  exact List.mem_map.mpr ⟨(q, v), hq (mem_places_self q v), rfl⟩

/-! ## Subschemas as places -/

/-- A subschema occurs in its schema and is smaller, and its places are places of the schema. -/
structure Below (pointer : String) (v : Json) (q : String) (w : Json) : Prop where
  /-- It occurs in the schema. -/
  inside : v.Inside w
  /-- It is smaller. -/
  smaller : w.size < v.size
  /-- Its places are places of the schema. -/
  places : places q w ⊆ places pointer v

variable {schema : Members} {keyword : String}

/-- The value of a keyword is below. -/
theorem below_of_lookup (pointer : String) (h : schema.lookup keyword = some v) :
    Below pointer (.obj schema) (Pointer.child pointer keyword) v :=
  have mem := Json.mem_of_lookup h
  ⟨.member .here mem, Json.size_lt_of_mem_members mem, places_member mem⟩

/-- What the walk finds under a keyword is below. -/
theorem below_of_mem_subschemas (h : (q, v) ∈ subschemas schema pointer keyword) :
    Below pointer (.obj schema) q v := by
  unfold subschemas at h
  dsimp only at h
  split at h
  · next items hv =>
    obtain ⟨j, hj, rfl⟩ := mem_numbered.mp h
    rw [Nat.zero_add]
    have hb := below_of_lookup pointer hv
    have mem := List.mem_of_getElem? hj
    exact ⟨.item hb.inside mem, Nat.lt_trans (Json.size_lt_of_mem_items mem) hb.smaller,
      List.Subset.trans (places_item hj) hb.places⟩
  · next w _ hv =>
    cases List.mem_singleton.mp h
    exact below_of_lookup pointer hv
  · cases h

/-- The members of a keyword are below. -/
theorem below_of_mem_memberSchemas (h : (q, v) ∈ memberSchemas schema pointer keyword) :
    Below pointer (.obj schema) q v := by
  unfold memberSchemas at h
  dsimp only at h
  split at h
  · next members hv =>
    obtain ⟨⟨name, w⟩, mem, he⟩ := List.mem_map.mp h
    cases he
    have hb := below_of_lookup pointer hv
    exact ⟨.member hb.inside mem, Nat.lt_trans (Json.size_lt_of_mem_members mem) hb.smaller,
      List.Subset.trans (places_member mem) hb.places⟩
  · cases h

/-- The subschemas that apply to the same value are below. -/
theorem below_of_mem_inPlace (h : (q, v) ∈ inPlace schema pointer) :
    Below pointer (.obj schema) q v := by
  rcases List.mem_append.mp h with h | h
  · obtain ⟨_, -, h⟩ := List.mem_flatMap.mp h
    exact below_of_mem_subschemas h
  · exact below_of_mem_memberSchemas (List.mem_filter.mp h).1

/-- The subschemas that apply to a part of the value are below. -/
theorem below_of_mem_parts (h : (q, v) ∈ parts schema pointer) :
    Below pointer (.obj schema) q v := by
  rcases List.mem_append.mp h with h | h
  · obtain ⟨_, -, h⟩ := List.mem_flatMap.mp h
    exact below_of_mem_memberSchemas h
  · obtain ⟨_, -, h⟩ := List.mem_flatMap.mp h
    exact below_of_mem_subschemas h

/-! ## The candidates for expansion -/

/-- The documents that can be read from the files. -/
def readable (files : Texts) : List Document :=
  files.places.filterMap fun l =>
    match files.readValue l none with
    | .ok v => some ⟨l, v⟩
    | .error _ => none

/-- The documents that a walk can come to: its schema, those of the store and those of the files. -/
def available (files : Texts) (s : Store) (start : Document) : List Document :=
  start :: s.documents ++ readable files

/-- Where the reference of a node leads, unless there is no node or one that is too large. -/
def target? (files : Texts) (s : Store) (bound : Nat) (context : Context) (v : Json) :
    Option (Target × Json) :=
  match v.member? "$ref" with
  | some (.str reference) =>
    match (resolveReference files reference context).outcome s with
    | .error _ => none
    | .ok target =>
      match target.node with
      | .error _ => none
      | .ok node => if node.size ≤ bound then some (target, node) else none
  | _ => none

/-- Where the reference of a node leads is a target, unless the node there is too large. -/
theorem target?_eq_some {files : Texts} {s : Store} {bound : Nat} {context : Context}
    {target : Target} {node : Json} :
    target? files s bound context v = some (target, node) ↔
      (∃ reference, v.member? "$ref" = some (.str reference) ∧
        LeadsTo files s context reference target node) ∧ node.size ≤ bound := by
  unfold target?
  constructor
  · intro h
    split at h
    · next reference href =>
      split at h
      · cases h
      · next hresolved =>
        split at h
        · cases h
        · next hfound =>
          split at h
          · next hle =>
            cases h
            exact ⟨⟨reference, href, hresolved, hfound⟩, hle⟩
          · cases h
    · cases h
  · rintro ⟨⟨reference, href, leads⟩, hle⟩
    simp only [href, leads.resolved, leads.found, if_pos hle]

/-- The identities of all places inside a node. -/
def identities (context : Context) (pointer : String) (v : Json) : List Identity :=
  (places pointer v).map fun (q, _) => .of context.root.location q

/-- The identities of all places inside the targets of a document. -/
def targetIdentities (files : Texts) (s : Store) (bound : Nat) (d : Document) : List Identity :=
  ((places "" d.root).filterMap fun p => target? files s bound (.ofDocument d) p.2).flatMap
    fun p => identities p.1.context p.1.identity.pointer p.2

/-- How many values the schema, the store and the files hold. -/
def total (files : Texts) (s : Store) (start : Document) : Nat :=
  weight files s + start.root.size

/-- All identities that a walk from a schema can expand. -/
def candidates (files : Texts) (s : Store) (start : Document) : List Identity :=
  identities (.ofDocument start) "" start.root ++
    (available files s start).flatMap (targetIdentities files s (total files s start))

/-- The sum of a number for each element of a list. -/
def sumOf {α : Type} (f : α → Nat) (l : List α) : Nat := (l.map f).foldr (· + ·) 0

/-- The first element of a list adds its own number. -/
@[simp]
theorem sumOf_cons {α : Type} (f : α → Nat) (a : α) (l : List α) :
    sumOf f (a :: l) = f a + sumOf f l := rfl

/-- Sums of lists one behind the other are added. -/
theorem sumOf_append {α : Type} (f : α → Nat) (l k : List α) :
    sumOf f (l ++ k) = sumOf f l + sumOf f k := by
  induction l with
  | nil => exact (Nat.zero_add _).symm
  | cons a rest ih => rw [List.cons_append, sumOf_cons, sumOf_cons, ih, Nat.add_assoc]

/-- Counting one for each element gives the length. -/
theorem sumOf_one {α : Type} (l : List α) : sumOf (fun _ => 1) l = l.length := by
  induction l with
  | nil => rfl
  | cons a rest ih => rw [sumOf_cons, ih, List.length_cons, Nat.add_comm]

/-- Lists that are bounded one by one are bounded together. -/
theorem length_flatMap_le {α β : Type} {f : α → List β} {g : α → Nat} {bound : Nat} {l : List α}
    (h : ∀ a ∈ l, (f a).length ≤ g a * bound) : (l.flatMap f).length ≤ sumOf g l * bound := by
  induction l with
  | nil => simp
  | cons a rest ih =>
    have ha := h a List.mem_cons_self
    have hrest := ih fun b hb => h b (List.mem_cons_of_mem _ hb)
    rw [List.flatMap_cons, List.length_append, sumOf_cons, Nat.add_mul]
    omega

/-- The size of a document. -/
def rootSize (d : Document) : Nat := d.root.size

/-- The weight counts the documents of the store and those that can be read. -/
theorem weight_eq (files : Texts) (s : Store) :
    weight files s = sumOf rootSize s.documents + sumOf rootSize (readable files) := by
  unfold weight readable
  refine congrArg (sumOf rootSize s.documents + ·) ?_
  induction files.places with
  | nil => rfl
  | cons l rest ih =>
    rw [List.map_cons, List.foldr_cons, ih, List.filterMap_cons]
    cases hv : files.readValue l none <;> simp [rootSize]

/-- The available documents hold all values together. -/
theorem sumOf_available (files : Texts) (s : Store) (start : Document) :
    sumOf rootSize (available files s start) = total files s start := by
  rw [available, total, weight_eq, List.cons_append, sumOf_cons, sumOf_append, Nat.add_comm]
  rfl

variable {files : Texts} {s : Store} {start : Document}

/-- A document that is available holds no more than all documents. -/
theorem size_le_total {d : Document} (h : d ∈ available files s start) :
    d.root.size ≤ total files s start := by
  obtain ⟨before, after, hsplit⟩ := List.append_of_mem h
  rw [← sumOf_available, hsplit, sumOf_append, sumOf_cons]
  change rootSize d ≤ _
  omega

/-- The identities in the targets of a document are as many as its values, times the bound. -/
theorem length_targetIdentities_le (files : Texts) (s : Store) (bound : Nat) (d : Document) :
    (targetIdentities files s bound d).length ≤ d.root.size * bound := by
  have hone : ∀ p ∈ (places "" d.root).filterMap fun p =>
      target? files s bound (.ofDocument d) p.2,
      (identities p.1.context p.1.identity.pointer p.2).length ≤ 1 * bound := by
    intro p hp
    obtain ⟨_, -, hv⟩ := List.mem_filterMap.mp hp
    rw [identities, List.length_map, length_places, Nat.one_mul]
    exact (target?_eq_some.mp hv).2
  have hlen := length_flatMap_le (g := fun _ => 1) hone
  have hcount := List.length_filterMap_le (fun p : String × Json =>
    target? files s bound (.ofDocument d) p.2) (places "" d.root)
  rw [length_places] at hcount
  rw [sumOf_one] at hlen
  exact Nat.le_trans hlen (Nat.mul_le_mul_right _ hcount)

/-- There are no more candidates than pairs of values. -/
theorem length_candidates_le (files : Texts) (s : Store) (start : Document) :
    (candidates files s start).length ≤ (total files s start + 1) * (total files s start + 1) := by
  have hstart : start.root.size ≤ total files s start := size_le_total (by simp [available])
  have hrest := length_flatMap_le (l := available files s start) (g := rootSize)
    fun d _ => length_targetIdentities_le files s (total files s start) d
  rw [sumOf_available] at hrest
  rw [candidates, List.length_append, identities, List.length_map, length_places, Nat.add_mul,
    Nat.one_mul, Nat.mul_add]
  omega

/-! ## Where a walk can come to -/

/-- A normal location has only available documents. -/
theorem mem_available (hlisted : files.Listed) {l : Location} {d : Document} (hl : l.Normal)
    (h : documentAt files s l none = .ok d) : d ∈ available files s start := by
  unfold available
  rcases documentAt_eq_ok.mp h with hfind | ⟨-, v, hv, rfl⟩
  · exact List.mem_append_left _ (List.mem_cons_of_mem _ (Store.mem_of_find? hfind))
  · obtain ⟨text, hread, -⟩ := Texts.readValue_eq_ok.mp hv
    refine List.mem_append_right _ (List.mem_filterMap.mpr ⟨l, hlisted l text hl hread, ?_⟩)
    simp only [hv]

/-- A walk from a schema can come to a node with a pointer. -/
structure Sited (files : Texts) (s : Store) (start : Document) (context : Context)
    (pointer : String) (v : Json) : Prop where
  /-- Whatever can be read is listed. -/
  listed : files.Listed
  /-- The directory is that of the document. -/
  directory : context = .ofDocument context.root
  /-- The document is available. -/
  available : context.root ∈ available files s start
  /-- The location of the document is normal. -/
  normal : context.root.location.Normal
  /-- The node occurs in the document. -/
  inside : context.root.root.Inside v
  /-- The places inside the node can be expanded. -/
  known : identities context pointer v ⊆ candidates files s start

variable {context : Context}

/-- A walk starts at the root. -/
theorem Sited.root (hlisted : files.Listed) (h : start.location.Normal) :
    Sited files s start (.ofDocument start) "" start.root where
  listed := hlisted
  directory := rfl
  available := by simp [Context.ofDocument, ReferenceGraph.available]
  normal := h
  inside := .here
  known := List.subset_append_left _ _

/-- The node itself can be expanded. -/
theorem Sited.mem (h : Sited files s start context pointer v) :
    Identity.of context.root.location pointer ∈ candidates files s start :=
  h.known (List.mem_map.mpr ⟨(pointer, v), mem_places_self pointer v, rfl⟩)

/-- A node is no larger than all documents. -/
theorem Sited.size_le (h : Sited files s start context pointer v) :
    v.size ≤ total files s start :=
  Nat.le_trans h.inside.size_le (size_le_total h.available)

/-- A walk can come from a schema to its subschemas. -/
theorem Sited.below (h : Sited files s start context pointer v) (hb : Below pointer v q w) :
    Sited files s start context q w where
  listed := h.listed
  directory := h.directory
  available := h.available
  normal := h.normal
  inside := h.inside.trans hb.inside
  known := List.Subset.trans (List.map_subset _ hb.places) h.known

variable {reference : String} {next : Json}

/-- The target of a reference lies in an available document. -/
theorem Sited.targetDocument {target : Target} (h : Sited files s start context pointer v)
    (leads : LeadsTo files s context reference target next) :
    target.context = .ofDocument target.context.root ∧
      target.context.root ∈ ReferenceGraph.available files s start ∧
      target.context.root.location.Normal := by
  obtain ⟨c, hbehind, -, rfl⟩ := resolveReference_eq_ok.mp leads.resolved
  have hnormal := hbehind.normal h.directory h.normal
  cases hbehind with
  | same => exact ⟨h.directory, h.available, h.normal⟩
  | document _ _ hd =>
    have hl := location_of_documentAt hd
    exact ⟨rfl, mem_available h.listed (hl ▸ hnormal) hd, hnormal⟩

/-- The reference of a node is written in an available document, so its target was counted there. -/
theorem Sited.counted {target : Target} (h : Sited files s start context pointer (.obj schema))
    (href : schema.lookup "$ref" = some (.str reference))
    (leads : LeadsTo files s context reference target next) :
    ∃ p ∈ ReferenceGraph.places "" context.root.root,
      target? files s (total files s start) (.ofDocument context.root) p.2 =
        some (target, next) := by
  obtain ⟨-, havailable, -⟩ := h.targetDocument leads
  have hsize := Nat.le_trans leads.reaches.inside.size_le (size_le_total havailable)
  obtain ⟨q, hq⟩ := places_of_inside h.inside ""
  exact ⟨(q, .obj schema), hq (mem_places_self q _),
    target?_eq_some.mpr ⟨⟨reference, href, h.directory ▸ leads⟩, hsize⟩⟩

/-- A walk can come from a schema to the target of its reference. -/
theorem Sited.target {target : Target} (h : Sited files s start context pointer (.obj schema))
    (href : schema.lookup "$ref" = some (.str reference))
    (leads : LeadsTo files s context reference target next) :
    Sited files s start target.context target.identity.pointer next := by
  obtain ⟨hdirectory, havailable, hnormal⟩ := h.targetDocument leads
  obtain ⟨p, hp, htarget⟩ := h.counted href leads
  refine ⟨h.listed, hdirectory, havailable, hnormal, leads.reaches.inside, fun i hi => ?_⟩
  refine List.mem_append_right _ (List.mem_flatMap.mpr ⟨context.root, h.available, ?_⟩)
  exact List.mem_flatMap.mpr ⟨(target, next), List.mem_filterMap.mpr ⟨p, hp, htarget⟩, hi⟩

/-! ## Room for the walk -/

/-- The expanded locations are some of the candidates, each of them once. -/
structure Within (files : Texts) (s : Store) (start : Document) (expanded : Expanded) :
    Prop where
  /-- No location comes twice. -/
  distinct : expanded.Nodup
  /-- The locations are candidates. -/
  known : expanded ⊆ candidates files s start

/-- There are no more expanded locations than candidates. -/
theorem Within.length_le {expanded : Expanded} (h : Within files s start expanded) :
    expanded.length ≤ (candidates files s start).length :=
  (List.subperm_of_subset h.distinct h.known).length_le

/-- The steps that a walk has left at a node: it may expand the remaining candidates, follow the
remaining references of the chain, and go down in the node. -/
def room (files : Texts) (s : Store) (start : Document) (limit : Nat) (expanded : Expanded)
    (chain : Chain) (v : Json) : Nat :=
  ((candidates files s start).length - expanded.length) *
      ((limit + 1) * (total files s start + 1)) +
    (limit - chain.visited.length) * (total files s start + 1) + v.size

variable {limit : Nat} {expanded expanded' : Expanded} {chain chain' : Chain}

/-- More expanded locations leave no more room. -/
theorem room_mono (hexpanded : expanded.length ≤ expanded'.length) :
    room files s start limit expanded' chain v ≤ room files s start limit expanded chain v := by
  have hrest := Nat.mul_le_mul_right ((limit + 1) * (total files s start + 1))
    (Nat.sub_le_sub_left hexpanded (candidates files s start).length)
  unfold room
  omega

/-- A smaller node takes room. -/
theorem room_below (hsmaller : w.size < v.size) :
    room files s start limit expanded chain w < room files s start limit expanded chain v := by
  unfold room
  omega

/-- A reference takes room, whatever node it leads to. -/
theorem room_enter (hchain : chain'.visited.length = chain.visited.length + 1)
    (hshort : chain.visited.length < limit) (hw : w.size ≤ total files s start) :
    room files s start limit expanded chain' w < room files s start limit expanded chain v := by
  -- One reference less is worth as much as the largest node and one more.
  have hleft : limit - chain.visited.length = limit - chain'.visited.length + 1 := by omega
  have hmul := Nat.add_one_mul (limit - chain'.visited.length) (total files s start + 1)
  unfold room
  rw [hleft]
  omega

/-- Expanding a location takes room, though the chain is empty again. -/
theorem room_expand {i : Identity} (hroom : expanded.length < (candidates files s start).length)
    (hw : w.size ≤ total files s start) :
    room files s start limit (i :: expanded) (.start limit) w <
      room files s start limit expanded chain v := by
  have hleft : (candidates files s start).length - expanded.length =
      (candidates files s start).length - (expanded.length + 1) + 1 := by omega
  have hmul := Nat.add_one_mul ((candidates files s start).length - (expanded.length + 1))
    ((limit + 1) * (total files s start + 1))
  have hchain := Nat.add_one_mul limit (total files s start + 1)
  have hstart : limit - (Chain.start limit).visited.length = limit := rfl
  unfold room
  rw [List.length_cons, hleft, hstart]
  omega

/-! ## The walk ends -/

/-- The walk does not run out of levels, and when it succeeds, there are more expanded locations
than before, all of them candidates. -/
structure Ends (files : Texts) (s : Store) (start : Document) (expanded : Expanded)
    (outcome : Except SchemaError Expanded) : Prop where
  /-- The levels suffice. -/
  stops : ∀ n place, outcome ≠ .error (.depthExceeded n place)
  /-- The expanded locations. -/
  within : ∀ {expanded'}, outcome = .ok expanded' →
    Within files s start expanded' ∧ expanded.length ≤ expanded'.length

/-- The walk may stay. -/
theorem Ends.refl (h : Within files s start expanded) :
    Ends files s start expanded (.ok expanded) where
  stops := by simp
  within he := by
    cases he
    exact ⟨h, Nat.le_refl _⟩

/-- The walk may fail for another reason. -/
theorem Ends.error {e : SchemaError} (h : ∀ n place, e ≠ .depthExceeded n place) :
    Ends files s start expanded (.error e) where
  stops n place he := h n place (Except.error.inj he)
  within he := by cases he

/-- Fewer locations may have been expanded before. -/
theorem Ends.of_le {outcome : Except SchemaError Expanded}
    (h : Ends files s start expanded' outcome) (hle : expanded.length ≤ expanded'.length) :
    Ends files s start expanded outcome where
  stops := h.stops
  within he := ⟨(h.within he).1, Nat.le_trans hle (h.within he).2⟩

/-- The walk may go on. -/
theorem Ends.bind {x : Loading Expanded} {f : Expanded → Loading Expanded} (hx : Steady files x)
    (hf : ∀ expanded, Steady files (f expanded)) (h : Ends files s start expanded (x.outcome s))
    (h' : ∀ {expanded'}, Within files s start expanded' → expanded.length ≤ expanded'.length →
      Ends files s start expanded' ((f expanded').outcome s)) :
    Ends files s start expanded ((x >>= f).outcome s) := by
  rw [outcome_bind hx hf]
  cases hr : x.outcome s with
  | error e =>
    rw [hr] at h
    exact .error fun n place he => h.stops n place (congrArg Except.error he)
  | ok expanded' =>
    obtain ⟨hwithin, hle⟩ := h.within hr
    exact (h' hwithin hle).of_le hle

/-- Whenever the walk goes on below a node with enough levels, it ends. -/
def VisitEnds (files : Texts) (s : Store) (start : Document) (limit levels : Nat)
    (visit : Visit) : Prop :=
  ∀ ⦃v context pointer chain expanded⦄, Sited files s start context pointer v → chain.Fair limit →
    Within files s start expanded → room files s start limit expanded chain v ≤ levels →
    Ends files s start expanded ((visit v context pointer chain expanded).outcome s)

/-- Looking something up does not run out of levels. -/
theorem ne_depthExceeded_of_isLookup {e : SchemaError} (h : e.IsLookup) (n : Nat)
    (place : Locator) : e ≠ .depthExceeded n place := by
  rintro rfl
  exact h

/-- Entering a chain does not run out of levels. -/
theorem enter_ne_depthExceeded {i : Identity} {reference : String} {e : SchemaError}
    (h : chain.enter i reference = .error e) (n : Nat) (place : Locator) :
    e ≠ .depthExceeded n place := by
  unfold Chain.enter at h
  split at h
  · cases h
    simp
  · split at h <;> cases h
    simp

variable {visit : Visit} {levels : Nat}

/-- Following the reference of a node ends. -/
theorem followReference_ends (hsteady : SteadyVisit files visit)
    (hvisit : VisitEnds files s start limit levels visit)
    (h : Sited files s start context pointer (.obj schema)) (hfair : chain.Fair limit)
    (hwithin : Within files s start expanded)
    (hroom : room files s start limit expanded chain (.obj schema) ≤ levels + 1) :
    Ends files s start expanded
      ((followReference files visit schema context chain expanded).outcome s) := by
  -- Behind the reference there is less room, whatever it leads to.
  have hbelow : ∀ {text target chain' next},
      FollowsTo files s context schema chain text target chain' next →
      Ends files s start expanded
        ((visit next target.context target.identity.pointer chain' expanded).outcome s) := by
    intro text target chain' next follows
    have hsited := h.target follows.reference follows.leads
    obtain ⟨-, hshort, he⟩ := Chain.enter_eq_ok.mp follows.entered
    have hlength : chain'.visited.length = chain.visited.length + 1 := by
      rw [he, List.length_append, List.length_singleton]
    have hless : room files s start limit expanded chain' next <
        room files s start limit expanded chain (.obj schema) :=
      room_enter hlength (hfair.ceiling ▸ hshort) hsited.size_le
    exact hvisit hsited (hfair.enter follows.entered) hwithin
      (Nat.lt_succ_iff.mp (Nat.lt_of_lt_of_le hless hroom))
  constructor
  · intro n place hr
    cases followReference_eq_error hsteady hr with
    | text href he => exact ne_depthExceeded_of_isLookup (referenceText_isLookup he) n place rfl
    | resolve href he =>
      exact ne_depthExceeded_of_isLookup (resolveReference_isLookup he) n place rfl
    | enter href htarget he => exact enter_ne_depthExceeded he n place rfl
    | node href htarget he => exact ne_depthExceeded_of_isLookup (find_isLookup he) n place rfl
    | below follows he => exact (hbelow follows).stops n place he
  · intro expanded' hr
    rcases followReference_eq_ok hsteady hr with ⟨-, rfl, -⟩ | ⟨_, _, _, _, follows, hvisited, -⟩
    · exact ⟨hwithin, Nat.le_refl _⟩
    · exact (hbelow follows).within hvisited

/-- Visiting subschemas one after the other ends. -/
theorem each_ends {visit : String → Json → Expanded → Loading Expanded}
    (hsteady : ∀ q v expanded, Steady files (visit q v expanded)) :
    ∀ {subschemas : List (String × Json)} {expanded : Expanded},
      Within files s start expanded →
      (∀ {q v expanded'}, (q, v) ∈ subschemas → Within files s start expanded' →
        expanded.length ≤ expanded'.length →
        Ends files s start expanded' ((visit q v expanded').outcome s)) →
      Ends files s start expanded ((each visit subschemas expanded).outcome s)
  | [], _, hwithin, _ => .refl hwithin
  | (q, v) :: rest, expanded, hwithin, hvisit =>
    (hvisit List.mem_cons_self hwithin (Nat.le_refl _)).bind (hsteady q v expanded)
      (fun _ => each_steady hsteady rest _) fun hwithin' hle =>
        each_ends hsteady hwithin' fun hmem hw hle' =>
          hvisit (List.mem_cons_of_mem _ hmem) hw (Nat.le_trans hle hle')

/-- Expanding a location ends. -/
theorem expand_ends (hvisit : VisitEnds files s start limit levels visit)
    (h : Sited files s start context pointer w) (hwithin : Within files s start expanded)
    (hroom : room files s start limit expanded chain v ≤ levels + 1) :
    Ends files s start expanded ((expand visit w context pointer limit expanded).outcome s) := by
  unfold expand
  dsimp only
  split
  · exact .refl hwithin
  · next hnew =>
    have hwithin' : Within files s start (.of context.root.location pointer :: expanded) :=
      ⟨List.nodup_cons.mpr ⟨hnew, hwithin.distinct⟩, List.cons_subset.mpr ⟨h.mem, hwithin.known⟩⟩
    -- The location is a candidate that was not expanded before.
    have hless : room files s start limit (.of context.root.location pointer :: expanded)
        (.start limit) w < room files s start limit expanded chain v :=
      room_expand hwithin'.length_le h.size_le
    exact (hvisit h (.start limit) hwithin'
      (Nat.lt_succ_iff.mp (Nat.lt_of_lt_of_le hless hroom))).of_le (Nat.le_succ _)

/-- The walk through one object ends. -/
theorem visitNode_ends (hsteady : SteadyVisit files visit)
    (hvisit : VisitEnds files s start limit levels visit)
    (h : Sited files s start context pointer (.obj schema)) (hfair : chain.Fair limit)
    (hwithin : Within files s start expanded)
    (hroom : room files s start limit expanded chain (.obj schema) ≤ levels + 1) :
    Ends files s start expanded
      ((visitNode files visit schema context pointer chain expanded).outcome s) := by
  have hinPlace := eachInPlace_steady hsteady context chain
  have hparts := eachPart_steady hsteady context chain.limit
  unfold visitNode
  refine (followReference_ends hsteady hvisit h hfair hwithin hroom).bind
    (followReference_steady hsteady) (fun _ => (hinPlace _ _).bind fun _ => hparts _ _) ?_
  intro first hfirst hle
  refine Ends.bind (hinPlace _ _) (fun _ => hparts _ _) ?_ ?_
  · refine each_ends (fun _ _ _ => hsteady ..) hfirst fun hmem hw hle' => ?_
    have hb := below_of_mem_inPlace hmem
    have hless := Nat.lt_of_lt_of_le (room_below hb.smaller)
      (Nat.le_trans (room_mono (Nat.le_trans hle hle')) hroom)
    exact hvisit (h.below hb) hfair hw (Nat.lt_succ_iff.mp hless)
  · intro second hsecond hle'
    rw [hfair.ceiling]
    refine each_ends (fun _ _ _ => expand_steady hsteady) hsecond fun hmem hw hle'' => ?_
    exact expand_ends hvisit (h.below (below_of_mem_parts hmem)) hw
      (Nat.le_trans (room_mono (Nat.le_trans (Nat.le_trans hle hle') hle'')) hroom)

/-- A walk with as many levels as it has room ends. -/
theorem walk_ends (files : Texts) (s : Store) (start : Document) (limit : Nat) :
    ∀ levels, VisitEnds files s start limit levels (walk files levels)
  | 0 => fun v context pointer chain expanded _ _ _ hroom => by
    have := v.size_pos
    unfold room at hroom
    omega
  | levels + 1 => fun v context pointer chain expanded h hfair hwithin hroom => by
    unfold walk
    split
    · exact visitNode_ends (walk_steady files levels) (walk_ends files s start limit levels) h hfair
        hwithin hroom
    · exact .refl hwithin

/-- The levels of the check are enough room to start with. -/
theorem room_start_le (files : Texts) (s : Store) (start : Document) (limit : Nat) :
    room files s start limit [] (.start limit) .null ≤
      ReferenceGraph.levels (total files s start) limit + 1 := by
  have hlen := Nat.mul_le_mul_right ((limit + 1) * (total files s start + 1))
    (length_candidates_le files s start)
  have hfull := Nat.add_one_mul ((total files s start + 1) * (total files s start + 1))
    ((limit + 1) * (total files s start + 1))
  have hchain := Nat.add_one_mul limit (total files s start + 1)
  simp only [room, ReferenceGraph.levels, Chain.start, List.length_nil, Nat.sub_zero, Json.size]
  omega

/-- The check does not run out of levels. -/
theorem check_ne_depthExceeded (hlisted : files.Listed) (s : Store) {start : Document}
    (h : start.location.Normal) (limit n : Nat) (place : Locator) :
    (check files start limit).outcome s ≠ .error (.depthExceeded n place) := by
  have hexpand : Ends files s start [] ((expand (walk files (levels (total files s start) limit))
      start.root (.ofDocument start) "" limit []).outcome s) := by
    refine expand_ends (walk_ends files s start limit _) (.root hlisted h) ⟨List.nodup_nil, by simp⟩
      (room_start_le files s start limit)
  unfold outcome
  rw [check_runOn]
  intro hr
  rcases (outcome_bind_eq_error (expand_steady (walk_steady files _)) fun _ =>
    Steady.pure ()).mp hr with hr | ⟨_, -, hr⟩
  · exact hexpand.stops n place hr
  · cases hr

end LinkedSchema.ReferenceGraph
