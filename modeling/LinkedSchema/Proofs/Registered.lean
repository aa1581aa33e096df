import LinkedSchema.Draft7.Registry
import LinkedSchema.Proofs.References

/-!
# Registered documents

Which documents a registry holds, and under which URIs. `Linked` says it without the rounds: the
schema is linked under its own URI, and so is each document that a text inside a linked one names,
under the URI to which the text resolves there. A registry is `Sound` when it holds linked documents
only. Filling the registry starts with the schema, and every round keeps it sound, as the sources of
a round are parts of linked documents (`complete_sound`). This is where `$id` matters: a document
that gives itself another URI would be registered under it too, so no linked document may have one.
-/

namespace LinkedSchema.Draft7

open Loading

variable {files : Texts} {s : Store} {schema : Document} {u base : Uri} {root node : Json}

/-- A function has results on all elements of a list: every element has one, and there are no
others. -/
theorem mem_of_mapM_eq_some {α β : Type} {f : α → Option β} {xs : List α} {ys : List β}
    (h : xs.mapM f = some ys) :
    (∀ x ∈ xs, ∃ y ∈ ys, f x = some y) ∧ ∀ y ∈ ys, ∃ x ∈ xs, f x = some y := by
  induction xs generalizing ys with
  | nil =>
    cases h
    simp
  | cons x rest ih =>
    rw [List.mapM_cons] at h
    obtain ⟨y, hy, h⟩ := Option.bind_eq_some_iff.mp h
    obtain ⟨others, ho, h⟩ := Option.bind_eq_some_iff.mp h
    cases h
    obtain ⟨hfirst, hsecond⟩ := ih ho
    constructor
    · intro w hw
      rcases List.mem_cons.mp hw with rfl | hw
      · exact ⟨y, List.mem_cons_self .., hy⟩
      · obtain ⟨z, hz, hwz⟩ := hfirst w hw
        exact ⟨z, List.mem_cons_of_mem _ hz, hwz⟩
    · intro z hz
      rcases List.mem_cons.mp hz with rfl | hz
      · exact ⟨x, List.mem_cons_self .., hy⟩
      · obtain ⟨w, hw, hwz⟩ := hsecond z hz
        exact ⟨w, List.mem_cons_of_mem _ hw, hwz⟩

/-! ## Texts that name documents -/

/-- A text stands in a value as a reference, or as the language of a schema. -/
def Mentions (root : Json) (text : String) : Prop :=
  ∃ node, root.Inside node ∧
    (keywordText? node "$ref" = some text ∨ keywordText? node "$schema" = some text)

/-- A node that is looked up along names occurs in the value. -/
theorem inside_of_descend {names : List String}
    (h : (Pointer.descend root names).toOption = some node) : root.Inside node := by
  cases hd : Pointer.descend root names with
  | error e => rw [hd] at h; cases h
  | ok w =>
    rw [hd] at h
    cases h
    exact Pointer.inside_of_downAlong? (Pointer.downAlong?_of_descend hd)

/-- A local reference leads to a node inside. -/
theorem inside_of_localNode? {text : String} (h : localNode? root text = some node) :
    root.Inside node := by
  unfold localNode? at h
  split at h
  · cases h
    exact .here
  · exact inside_of_descend h
  · cases h

mutual

/-- The schemas inside a value are inside. -/
theorem inside_of_mem_subschemas : ∀ {v : Json}, node ∈ subschemas v → v.Inside node
  | .obj members, h => by
    rw [subschemas] at h
    rcases List.mem_cons.mp h with rfl | h
    · exact .here
    · exact inside_of_mem_keywordSubschemas h .here fun _ hp => hp
  | .arr items, h => by
    rw [List.mem_singleton.mp h]
    exact .here
  | .null, h | .bool _, h | .num _, h | .str _, h => by
    rw [List.mem_singleton.mp h]
    exact .here

/-- The schemas inside keywords are inside the object of the keywords. -/
theorem inside_of_mem_keywordSubschemas : ∀ {members all : Members} {v : Json},
    node ∈ keywordSubschemas members → v.Inside (.obj all) → members ⊆ all → v.Inside node
  | [], _, _, h, _, _ => by cases h
  | (keyword, w) :: rest, all, v, h, hv, hsub => by
    rw [keywordSubschemas.eq_def] at h
    dsimp only at h
    have hw : v.Inside w := hv.member (hsub (List.mem_cons_self ..))
    rcases List.mem_append.mp h with h | h
    · split at h
      · exact inside_of_mem_itemSubschemas h hw fun _ hp => hp
      · exact inside_of_mem_itemSubschemas h hw fun _ hp => hp
      · exact inside_of_mem_memberSubschemas h hw fun _ hp => hp
      · exact hw.trans (inside_of_mem_subschemas h)
      · exact hw.trans (inside_of_mem_subschemas h)
      · cases h
    · exact inside_of_mem_keywordSubschemas h hv fun _ hp => hsub (List.mem_cons_of_mem _ hp)

/-- The schemas inside items are inside the array of the items. -/
theorem inside_of_mem_itemSubschemas : ∀ {items all : List Json} {v : Json},
    node ∈ itemSubschemas items → v.Inside (.arr all) → items ⊆ all → v.Inside node
  | [], _, _, h, _, _ => by cases h
  | w :: rest, all, v, h, hv, hsub => by
    rw [itemSubschemas] at h
    rcases List.mem_append.mp h with h | h
    · exact (hv.item (hsub (List.mem_cons_self ..))).trans (inside_of_mem_subschemas h)
    · exact inside_of_mem_itemSubschemas h hv fun _ hp => hsub (List.mem_cons_of_mem _ hp)

/-- The schemas inside members are inside the object of the members. -/
theorem inside_of_mem_memberSubschemas : ∀ {members all : Members} {v : Json},
    node ∈ memberSubschemas members → v.Inside (.obj all) → members ⊆ all → v.Inside node
  | [], _, _, h, _, _ => by cases h
  | (name, w) :: rest, all, v, h, hv, hsub => by
    rw [memberSubschemas] at h
    rcases List.mem_append.mp h with h | h
    · exact (hv.member (hsub (List.mem_cons_self ..))).trans (inside_of_mem_subschemas h)
    · exact inside_of_mem_memberSubschemas h hv fun _ hp => hsub (List.mem_cons_of_mem _ hp)

end

/-- The references to other documents are mentioned. -/
theorem mentions_of_mem_foreignReferences {hops : Nat} {text : String} (hn : root.Inside node)
    (h : text ∈ foreignReferences root hops node) : Mentions root text := by
  induction hops generalizing node with
  | zero => cases h
  | succ hops ih =>
    rw [foreignReferences] at h
    rcases List.mem_append.mp h with h | h
    · split at h
      · cases h
      · next found hfound =>
        split at h
        · cases h
        · split at h
          · split at h
            · cases h
            · next target htarget => exact ih (inside_of_localNode? htarget) h
          · rw [List.mem_singleton.mp h]
            exact ⟨node, hn, .inl hfound⟩
    · split at h
      · cases h
      · next found hfound =>
        split at h
        · cases h
        · rw [List.mem_singleton.mp h]
          exact ⟨node, hn, .inr hfound⟩

/-- What a node inside a document mentions, the document mentions. -/
theorem Mentions.of_inside {text : String} (h : Mentions node text) (hn : root.Inside node) :
    Mentions root text := by
  obtain ⟨w, hw, htext⟩ := h
  exact ⟨w, hn.trans hw, htext⟩

/-! ## Linked documents -/

/-- A document is linked from a schema with a URI under a URI of its own. -/
inductive Linked (files : Texts) (s : Store) (schema : Document) (u : Uri) : Uri → Json → Prop
  /-- The schema itself. -/
  | schema : Linked files s schema u u schema.root
  /-- The document that a text inside a linked one names. -/
  | mentioned {base : Uri} {root : Json} {text : String} {r : UriReference} {l : Location}
    {d : Document} (h : Linked files s schema u base root) (mention : Mentions root text)
    (read : UriReference.read? text = some r)
    (location : Registry.location? schema.location.parent (r.resolve base) = some l)
    (document : documentAt files s l none = .ok d) :
    Linked files s schema u (r.resolve base) d.root

/-- No linked document has an object with a URI of its own. -/
def NoIds (files : Texts) (s : Store) (schema : Document) (u : Uri) : Prop :=
  ∀ base root, Linked files s schema u base root →
    ∀ members, root.Inside (.obj members) → members.lookup "$id" = none

/-- A linked document other than the schema stands at the location of its URI. -/
theorem Linked.document (h : Linked files s schema u base root) :
    base = u ∧ root = schema.root ∨ ∃ l d, Registry.location? schema.location.parent base = some l ∧
      documentAt files s l none = .ok d ∧ d.root = root := by
  cases h with
  | schema => exact .inl ⟨rfl, rfl⟩
  | mentioned _ _ _ hl hd => exact .inr ⟨_, _, hl, hd, rfl⟩

/-- Where a document is the only one, its own root is all that is linked. -/
theorem Linked.eq_root {workingDirectory : Location}
    (h : Linked (.empty workingDirectory) ⟨[schema]⟩ schema u base root) : root = schema.root := by
  rcases h.document with ⟨-, hr⟩ | ⟨l, d, -, hd, hr⟩
  · exact hr
  · rw [← hr, List.mem_singleton.mp (mem_of_documentAt_empty hd)]

/-- Where a document is the only one, no other can have a URI of its own. -/
theorem noIds_singleton {workingDirectory : Location}
    (h : ∀ members, schema.root.Inside (.obj members) → members.lookup "$id" = none) (u : Uri) :
    NoIds (.empty workingDirectory) ⟨[schema]⟩ schema u := by
  intro base root hlinked members hin
  rw [hlinked.eq_root] at hin
  exact h members hin

/-- A registry holds linked documents only. -/
def Sound (files : Texts) (s : Store) (schema : Document) (u : Uri) (r : Registry) : Prop :=
  ∀ base root, (base, root) ∈ r.documents → Linked files s schema u base root

/-- A source is a part of a linked document. -/
def Source.Sound (files : Texts) (s : Store) (schema : Document) (u : Uri) (source : Source) :
    Prop :=
  ∃ root, Linked files s schema u source.base root ∧ root.Inside source.node

/-- A URI is that of a text inside a linked document. -/
def Named (files : Texts) (s : Store) (schema : Document) (u named : Uri) : Prop :=
  ∃ base root text r, Linked files s schema u base root ∧ Mentions root text ∧
    UriReference.read? text = some r ∧ named = r.resolve base

/-- A linked document may be added to a registry that holds linked documents only. -/
theorem Sound.add {r : Registry} (h : Sound files s schema u r)
    (hr : Linked files s schema u base root) : Sound files s schema u (r.add base root) := by
  intro b w hb
  rcases List.mem_append.mp hb with hb | hb
  · exact h b w hb
  · cases List.mem_singleton.mp hb
    exact hr

/-- What is found in a sound registry is linked. -/
theorem Sound.root? {r : Registry} (h : Sound files s schema u r) (hr : r.root? base = some root) :
    Linked files s schema u base root := by
  obtain ⟨before, after, he, -⟩ := List.lookup_eq_some_iff.mp hr
  exact h base root (by rw [he]; simp)

/-! ## Filling the registry -/

/-- Without `$id` a source keeps the URI of its document. -/
theorem Source.uri?_eq {source : Source} (hno : NoIds files s schema u)
    (h : source.Sound files s schema u) : source.uri? = some source.base := by
  obtain ⟨root, hlinked, hin⟩ := h
  have hid : keywordText? source.node "$id" = none := by
    unfold keywordText?
    cases hn : source.node with
    | obj members =>
      have hnone := hno _ _ hlinked members (hn ▸ hin)
      simp only [Json.member?, hnone, Option.bind_none]
    | _ => rfl
  unfold Source.uri?
  rw [hid]
  cases source.node.member? "$ref" <;> rfl

/-- What is named in a part of a linked document. -/
theorem Source.named_of_named? {source : Source} (h : source.Sound files s schema u)
    {named : List (Uri × String)} (hn : source.named? source.base = some named) :
    ∀ p ∈ named, Named files s schema u p.1 := by
  obtain ⟨root, hlinked, hin⟩ := h
  intro p hp
  unfold Source.named? at hn
  obtain ⟨text, htext, hread⟩ := (mem_of_mapM_eq_some hn).2 p hp
  obtain ⟨r, hr, rfl⟩ := Option.map_eq_some_iff.mp hread
  obtain ⟨part, hpart, htext⟩ := List.mem_flatMap.mp htext
  have hmentions := mentions_of_mem_foreignReferences (inside_of_mem_subschemas hpart) htext
  exact ⟨source.base, root, text, r, hlinked, hmentions.of_inside hin, hr, rfl⟩

/-- Without `$id` no source registers itself. -/
theorem Registry.enlist?_eq (hno : NoIds files s schema u) {sources : List Source} {r r' : Registry}
    {named : List (Uri × String)} (h : ∀ source ∈ sources, source.Sound files s schema u)
    (he : enlist? sources r = some (r', named)) :
    r' = r ∧ ∀ p ∈ named, Named files s schema u p.1 := by
  induction sources generalizing r r' named with
  | nil =>
    cases he
    simp
  | cons source rest ih =>
    obtain ⟨hsource, hrest⟩ := List.forall_mem_cons.mp h
    rw [enlist?, Source.uri?_eq hno hsource] at he
    obtain ⟨base, hbase, he⟩ := Option.bind_eq_some_iff.mp he
    cases hbase
    obtain ⟨first, hfirst, he⟩ := Option.bind_eq_some_iff.mp he
    rw [if_pos rfl] at he
    obtain ⟨⟨r'', others⟩, hothers, he⟩ := Option.bind_eq_some_iff.mp he
    cases he
    obtain ⟨rfl, hnamed⟩ := ih hrest hothers
    refine ⟨rfl, fun p hp => ?_⟩
    rcases List.mem_append.mp hp with hp | hp
    · exact Source.named_of_named? hsource hfirst p hp
    · exact hnamed p hp

/-- A computation whose result is mapped and whose failures become a given one. -/
theorem runOn_guarded {α β : Type} (x : Loading α) (f : α → β) (fault : SchemaError) (s : Store) :
    Loading.runOn (tryCatch (ExceptT.map f x) fun _ => throw fault) s =
      (match x.outcome s with
        | .ok a => .ok (f a)
        | .error _ => .error fault, x.after s) := by
  unfold outcome after
  have hx : ∀ y : Loading α, y.runOn s = y s := fun _ => rfl
  rw [hx]
  cases h : x s with
  | mk r t =>
    simp only [runOn, tryCatch, tryCatchThe, MonadExceptOf.tryCatch, ExceptT.tryCatch, ExceptT.map,
      ExceptT.mk, bind, StateT.bind, h]
    cases r <;> rfl

/-- Mapping the result and replacing the failures of a steady computation is steady. -/
theorem steady_guarded {α β : Type} {x : Loading α} (hx : Steady files x) (f : α → β)
    (fault : SchemaError) :
    Steady files (tryCatch (ExceptT.map f x) fun _ => throw fault : Loading β) where
  grows s := by
    rw [after, runOn_guarded]
    exact hx.grows s
  stays {s s'} hs := by
    have ho := congrArg Prod.fst (runOn_guarded x f fault s)
    have ho' := congrArg Prod.fst (runOn_guarded x f fault s')
    rw [hx.stays hs] at ho'
    exact Eq.trans ho' ho.symm

namespace Registry

variable {fetch : Uri → Loading Json} {fault : SchemaError}

/-- Fetching the document of a URI is steady. -/
theorem steady_fetch (files : Texts) (directory : Location) (fault : SchemaError) (u : Uri) :
    Steady files (Registry.fetch files directory fault u) := by
  unfold Registry.fetch
  split
  · exact Steady.throw _
  · exact steady_guarded (Steady.loadDocument files _ _) _ _

/-- What is read for a URI is the document at the location of the URI. -/
theorem document_of_fetch {directory : Location}
    (h : (Registry.fetch files directory fault u).outcome s = .ok root) :
    ∃ l d, location? directory u = some l ∧ documentAt files s l none = .ok d ∧ d.root = root := by
  unfold Registry.fetch at h
  split at h
  · cases h
  · next l hl =>
    rw [outcome, runOn_guarded, outcome_loadDocument] at h
    cases hd : documentAt files s l (some u.render) with
    | error e => rw [hd] at h; cases h
    | ok d =>
      rw [hd] at h
      exact ⟨l, d, hl, documentAt_ok hd none, Except.ok.inj h⟩

/-- Adding the documents of a list of URIs is steady when fetching is. -/
theorem steady_extend (hf : ∀ u, Steady files (fetch u)) :
    ∀ named r, Steady files (extend fetch named r) := by
  intro named
  induction named with
  | nil => exact fun _ => Steady.pure _
  | cons p rest ih =>
    intro r
    unfold extend
    split
    · exact ih r
    · exact (hf _).bind fun _ => (ih _).bind fun _ => Steady.pure _

/-- Completing a registry is steady when fetching is, in any number of rounds. -/
theorem steady_complete (hf : ∀ u, Steady files (fetch u)) :
    ∀ rounds sources r, Steady files (complete fetch fault rounds sources r) := by
  intro rounds
  induction rounds with
  | zero =>
    intro sources r
    unfold complete
    exact Steady.pure _
  | succ rounds ih =>
    intro sources r
    unfold complete
    split
    · exact Steady.pure _
    · exact Steady.pure _
    · next rounds' _ hr _ =>
      cases hr
      split
      · exact Steady.throw _
      · exact (steady_extend hf _ _).bind fun _ => ih _ _

/-- Reading what URIs name. -/
def Reads (files : Texts) (s : Store) (schema : Document) (fetch : Uri → Loading Json) : Prop :=
  ∀ named root, (fetch named).outcome s = .ok root →
    ∃ l d, location? schema.location.parent named = some l ∧ documentAt files s l none = .ok d ∧
      d.root = root

/-- Documents that are named by linked ones keep the registry sound, and become sound sources. -/
theorem extend_sound (hf : ∀ u, Steady files (fetch u)) (hreads : Reads files s schema fetch)
    {named : List (Uri × String)} {r r' : Registry} {sources : List Source}
    (hnamed : ∀ p ∈ named, Named files s schema u p.1) (hr : Sound files s schema u r)
    (h : (extend fetch named r).outcome s = .ok (r', sources)) :
    Sound files s schema u r' ∧ ∀ source ∈ sources, source.Sound files s schema u := by
  induction named generalizing r r' sources with
  | nil =>
    cases h
    exact ⟨hr, by simp⟩
  | cons p rest ih =>
    obtain ⟨hp, hrest⟩ := List.forall_mem_cons.mp hnamed
    unfold extend at h
    split at h
    · exact ih hrest hr h
    · obtain ⟨root, hroot, h⟩ := (outcome_bind_eq_ok (hf _) fun _ =>
        (steady_extend hf _ _).bind fun _ => Steady.pure _).mp h
      obtain ⟨⟨r'', others⟩, hothers, h⟩ := (outcome_bind_eq_ok (steady_extend hf _ _) fun _ =>
        Steady.pure _).mp h
      -- The document is linked, as what names it is, and it becomes a source.
      obtain ⟨l, d, hl, hd, rfl⟩ := hreads _ _ hroot
      obtain ⟨base, holder, text, reference, hlinked, hmention, hread, hbase⟩ := hp
      have hdocument : Linked files s schema u p.1 d.root := by
        rw [hbase] at hl ⊢
        exact .mentioned hlinked hmention hread hl hd
      obtain ⟨hr'', hsources⟩ := ih hrest (hr.add hdocument) hothers
      cases h
      refine ⟨hr'', fun source hsource => ?_⟩
      rcases List.mem_cons.mp hsource with rfl | hsource
      · exact ⟨d.root, hdocument, .here⟩
      rcases List.mem_append.mp hsource with hsource | hsource
      · -- So does the part of it to which the fragment leads.
        unfold partSource at hsource
        split at hsource
        · cases hsource
        · split at hsource
          · cases hsource
          · next node hnode =>
            rw [List.mem_singleton.mp hsource]
            exact ⟨d.root, hdocument, inside_of_localNode? hnode⟩
      · exact hsources source hsource

/-- Every round keeps the registry sound. -/
theorem complete_sound (hf : ∀ u, Steady files (fetch u)) (hreads : Reads files s schema fetch)
    (hno : NoIds files s schema u) {rounds : Nat} {sources : List Source} {r r' : Registry}
    (hsources : ∀ source ∈ sources, source.Sound files s schema u)
    (hr : Sound files s schema u r)
    (h : (complete fetch fault rounds sources r).outcome s = .ok r') :
    Sound files s schema u r' := by
  induction rounds generalizing sources r with
  | zero =>
    cases h
    exact hr
  | succ rounds ih =>
    cases sources with
    | nil =>
      cases h
      exact hr
    | cons source others =>
      rw [complete.eq_def] at h
      dsimp only at h
      split at h
      · cases h
      · next r'' named he =>
        -- Enlisting the sources only tells what they name; reading that makes the next sources.
        obtain ⟨rfl, hnamed⟩ := enlist?_eq hno hsources he
        obtain ⟨⟨grown, next⟩, hgrown, h⟩ := (outcome_bind_eq_ok (steady_extend hf _ _) fun _ =>
          steady_complete hf _ _ _).mp h
        obtain ⟨hsound, hnext⟩ := extend_sound hf hreads hnamed hr hgrown
        exact ih hnext hsound h

/-- Enlisting sources adds documents at the end. -/
theorem enlist?_appends {sources : List Source} {r r' : Registry} {named : List (Uri × String)}
    (h : enlist? sources r = some (r', named)) : r.documents <+: r'.documents := by
  induction sources generalizing r r' named with
  | nil =>
    cases h
    exact List.prefix_rfl
  | cons source rest ih =>
    obtain ⟨base, -, h⟩ := Option.bind_eq_some_iff.mp h
    obtain ⟨first, -, h⟩ := Option.bind_eq_some_iff.mp h
    obtain ⟨⟨r'', others⟩, hothers, h⟩ := Option.bind_eq_some_iff.mp h
    cases h
    have hrest := ih hothers
    split at hrest
    · exact hrest
    · exact (List.prefix_append ..).trans hrest

/-- Reading documents adds them at the end. -/
theorem extend_appends (hf : ∀ u, Steady files (fetch u)) {named : List (Uri × String)}
    {r r' : Registry} {sources : List Source}
    (h : (extend fetch named r).outcome s = .ok (r', sources)) : r.documents <+: r'.documents := by
  induction named generalizing r r' sources with
  | nil =>
    cases h
    exact List.prefix_rfl
  | cons p rest ih =>
    unfold extend at h
    split at h
    · exact ih h
    · obtain ⟨root, -, h⟩ := (outcome_bind_eq_ok (hf _) fun _ =>
        (steady_extend hf _ _).bind fun _ => Steady.pure _).mp h
      obtain ⟨⟨r'', others⟩, hothers, h⟩ := (outcome_bind_eq_ok (steady_extend hf _ _) fun _ =>
        Steady.pure _).mp h
      cases h
      exact (List.prefix_append ..).trans (ih hothers)

/-- Every round adds documents at the end. -/
theorem complete_appends (hf : ∀ u, Steady files (fetch u)) {rounds : Nat} {sources : List Source}
    {r r' : Registry} (h : (complete fetch fault rounds sources r).outcome s = .ok r') :
    r.documents <+: r'.documents := by
  induction rounds generalizing sources r with
  | zero =>
    cases h
    exact List.prefix_rfl
  | succ rounds ih =>
    cases sources with
    | nil =>
      cases h
      exact List.prefix_rfl
    | cons source others =>
      rw [complete.eq_def] at h
      dsimp only at h
      split at h
      · cases h
      · next r'' named he =>
        obtain ⟨⟨grown, next⟩, hgrown, h⟩ := (outcome_bind_eq_ok (steady_extend hf _ _) fun _ =>
          steady_complete hf _ _ _).mp h
        exact (enlist?_appends he).trans ((extend_appends hf hgrown).trans (ih h))

/-- Building the registry of a schema is steady. -/
theorem steady_ofSchema (files : Texts) (rounds : Nat) (schema : Document) (u : Uri)
    (fault : SchemaError) : Steady files (ofSchema files rounds schema u fault) :=
  steady_complete (steady_fetch files _ _) _ _ _

/-- The registry of a schema holds linked documents only. -/
theorem ofSchema_sound {rounds : Nat} {r : Registry} (hno : NoIds files s schema u)
    (h : (ofSchema files rounds schema u fault).outcome s = .ok r) :
    Sound files s schema u r := by
  refine complete_sound (steady_fetch files _ _) (fun _ _ => document_of_fetch) hno ?_ ?_ h
  · intro source hsource
    rw [List.mem_singleton.mp hsource]
    exact ⟨schema.root, .schema, .here⟩
  · intro base root hb
    cases List.mem_singleton.mp hb
    exact .schema

/-- The registry of a schema holds the schema under its own URI. -/
theorem root?_of_ofSchema {rounds : Nat} {r : Registry}
    (h : (ofSchema files rounds schema u fault).outcome s = .ok r) :
    r.root? u = some schema.root := by
  obtain ⟨more, he⟩ := complete_appends (steady_fetch files _ _) h
  rw [root?, ← he]
  exact List.lookup_cons_self

end Registry

end LinkedSchema.Draft7
