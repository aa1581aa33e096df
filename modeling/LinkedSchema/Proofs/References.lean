import LinkedSchema.Proofs.Loading
import LinkedSchema.Proofs.Locations
import LinkedSchema.Proofs.Pointers
import LinkedSchema.Proofs.Values

/-!
# Where references lead

`resolveReference_eq_ok` says all that following a reference does: it picks a context, which is the
one it starts from or that of the document its file part names, and looks up its pointer part there.
A context is `Held` when its document is the one that the store or the files hold at its location,
and its directory is that of the document; following references stays among held contexts.

The pointer of a target is normalized once more when the target is looked up. Where that changes
nothing, a reference that is resolved leads to the node that its own pointer names
(`leadsTo_of_resolved`).
-/

namespace LinkedSchema

open Loading

variable {files : Texts} {s t : Store} {context : Context} {reference : String}
  {target target' : Target}

/-- The part of a reference in front of its first hash, which names a file. -/
def filePart (reference : String) : String := (Text.cutBefore '#' reference).1

/-- The part of a reference from its first hash on, which is a pointer. -/
def pointerPart (reference : String) : String := (Text.cutBefore '#' reference).2

/-- A reference that starts with a hash is all pointer. -/
theorem pointerPart_of_hash (h : reference.toList.head? = some '#') :
    pointerPart reference = reference := by
  unfold pointerPart Text.cutBefore
  cases hl : reference.toList with
  | nil => rw [hl] at h; cases h
  | cons c rest =>
    rw [hl, List.head?_cons, Option.some.injEq] at h
    subst h
    rw [List.dropWhile_cons_of_neg (by simp), ← hl, String.ofList_toList]

/-- A reference without a file part is looked up where it stands. -/
theorem resolveReference_hash (h : reference.toList.head? = some '#') :
    resolveReference files reference context = (do
      let _ ← ExceptT.mk (pure (context.root.find (pointerPart reference)))
      pure ⟨.of context.root.location (pointerPart reference), context⟩) := by
  rw [pointerPart_of_hash h]
  unfold resolveReference
  dsimp only
  rw [if_pos h]

/-- A reference with neither hash nor file part is refused. -/
theorem resolveReference_empty (h : reference.toList.head? ≠ some '#')
    (hfile : filePart reference = "") :
    resolveReference files reference context = throw (.invalidReference reference .emptyFile) := by
  have hempty : (Text.cutBefore '#' reference).1.isEmpty = true := String.isEmpty_iff.mpr hfile
  unfold resolveReference
  dsimp only
  rw [if_neg h, if_pos hempty]

/-- A reference with a file part is looked up in the document that the file part names. -/
theorem resolveReference_file (h : reference.toList.head? ≠ some '#')
    (hfile : filePart reference ≠ "") :
    resolveReference files reference context = (do
      let d ← loadDocument files (context.baseDirectory.resolve (filePart reference))
        (some (reference ++ " in " ++ context.root.location.render))
      let _ ← ExceptT.mk (pure (d.find (pointerPart reference)))
      pure ⟨.of d.location (pointerPart reference), .ofDocument d⟩) := by
  have hempty : ¬(Text.cutBefore '#' reference).1.isEmpty = true := fun he =>
    hfile (String.isEmpty_iff.mp he)
  unfold resolveReference
  dsimp only
  rw [if_neg h, if_neg hempty]
  rfl

/-- The context that a reference is looked up in: the one that it stands in, or that of the document
that its file part names. -/
inductive ContextBehind (files : Texts) (s : Store) (context : Context) (reference : String) :
    Context → Prop
  /-- The reference has no file part. -/
  | same (h : reference.toList.head? = some '#') : ContextBehind files s context reference context
  /-- The reference names a file. -/
  | document {d : Document} (h : reference.toList.head? ≠ some '#')
    (hfile : filePart reference ≠ "")
    (hd : documentAt files s (context.baseDirectory.resolve (filePart reference)) none = .ok d) :
    ContextBehind files s context reference (.ofDocument d)

/-- A lookup that names what was found. -/
theorem outcome_lookup {d : Document} {pointer : String} :
    outcome (do let _ ← ExceptT.mk (pure (d.find pointer)); pure target) s = .ok target' ↔
      (∃ node, d.find pointer = .ok node) ∧ target' = target := by
  cases hfind : d.find pointer with
  | error e =>
    rw [outcome_bind_error (outcome_lift (.error e))]
    simp
  | ok node =>
    rw [outcome_bind_ok (outcome_lift (.ok node)), outcome_pure]
    simp [eq_comm]

/-- A reference is resolved when its pointer is found in the context behind it. -/
theorem resolveReference_eq_ok :
    (resolveReference files reference context).outcome s = .ok target ↔
      ∃ c, ContextBehind files s context reference c ∧
        (∃ node, c.root.find (pointerPart reference) = .ok node) ∧
        target = ⟨.of c.root.location (pointerPart reference), c⟩ := by
  -- The three forms of a reference: one of them has no context, and the others have one each.
  by_cases hhash : reference.toList.head? = some '#'
  · rw [resolveReference_hash hhash, outcome_lookup]
    constructor
    · rintro ⟨hnode, h⟩
      exact ⟨context, .same hhash, hnode, h⟩
    · rintro ⟨c, hc, hnode, h⟩
      cases hc with
      | same => exact ⟨hnode, h⟩
      | document hno => exact absurd hhash hno
  · by_cases hfile : filePart reference = ""
    · rw [resolveReference_empty hhash hfile]
      constructor
      · intro h
        cases h
      · rintro ⟨c, hc, -⟩
        cases hc with
        | same hyes => exact absurd hyes hhash
        | document _ hno => exact absurd hfile hno
    · rw [resolveReference_file hhash hfile, outcome_bind_eq_ok (Steady.loadDocument files _ _)
        fun d => (Steady.lift _).bind fun _ => Steady.pure _]
      constructor
      · rintro ⟨d, hd, h⟩
        rw [outcome_loadDocument] at hd
        obtain ⟨hnode, h⟩ := outcome_lookup.mp h
        exact ⟨.ofDocument d, .document hhash hfile (documentAt_ok hd none), hnode, h⟩
      · rintro ⟨c, hc, hnode, h⟩
        cases hc with
        | same hyes => exact absurd hyes hhash
        | @document d _ _ hd =>
          refine ⟨d, ?_, outcome_lookup.mpr ⟨hnode, h⟩⟩
          rw [outcome_loadDocument]
          exact documentAt_ok hd _

/-- The text of a reference is that of a string. -/
theorem referenceText_eq_ok {reference : Json} {text : String} :
    referenceText reference = .ok text ↔ reference = .str text := by
  cases reference <;> simp [referenceText]

/-- A chain may be entered by an identity that it does not hold, while it is short enough. -/
theorem Chain.enter_eq_ok {chain chain' : Chain} {i : Identity} {reference : String} :
    chain.enter i reference = .ok chain' ↔ i ∉ chain.visited ∧ chain.visited.length < chain.limit ∧
      chain' = { chain with visited := chain.visited ++ [i] } := by
  unfold enter
  split
  · next h => simp [h]
  · next h =>
    split
    · next hfull => simp [Nat.not_lt.mpr hfull]
    · next hfull =>
      rw [Except.ok.injEq]
      exact ⟨fun he => ⟨h, Nat.not_le.mp hfull, he.symm⟩, fun he => he.2.2.symm⟩

/-- A reference leads from a context to a node in a context of its own. -/
structure LeadsTo (files : Texts) (s : Store) (context : Context) (reference : String)
    (target : Target) (node : Json) : Prop where
  /-- The reference is resolved. -/
  resolved : (resolveReference files reference context).outcome s = .ok target
  /-- The target is found. -/
  found : target.node = .ok node

/-- A reference leads to one node. -/
theorem LeadsTo.unique {node node' : Json}
    (h : LeadsTo files s context reference target node)
    (h' : LeadsTo files s context reference target' node') : target = target' ∧ node = node' := by
  have ht : target = target' := Except.ok.inj (h.resolved.symm.trans h'.resolved)
  subst ht
  exact ⟨rfl, Except.ok.inj (h.found.symm.trans h'.found)⟩

/-! ## Failures of looking up -/

/-- A failure to look something up: there is no such document, or it cannot be read or parsed, a
pointer leads nowhere, or a reference is malformed. -/
def SchemaError.IsLookup : SchemaError → Prop
  | documentNotFound .. | documentRead .. | documentParse .. | unresolvedPointer ..
  | invalidReference .. => True
  | _ => False

/-- The text of a reference fails by looking up. -/
theorem referenceText_isLookup {reference : Json} {e : SchemaError}
    (h : referenceText reference = .error e) : e.IsLookup := by
  unfold referenceText at h
  split at h <;> cases h
  trivial

/-- A pointer fails by looking up. -/
theorem find_isLookup {d : Document} {pointer : String} {e : SchemaError}
    (h : d.find pointer = .error e) : e.IsLookup := by
  unfold Document.find at h
  split at h <;> cases h
  trivial

/-- Reading a document fails by looking up. -/
theorem readValue_isLookup {l : Location} {r : Option String} {e : SchemaError}
    (h : files.readValue l r = .error e) : e.IsLookup := by
  unfold Texts.readValue at h
  split at h
  · cases h
    trivial
  · cases h
    trivial
  · split at h <;> cases h
    trivial

/-- The document of a location fails by looking up. -/
theorem documentAt_isLookup {l : Location} {r : Option String} {e : SchemaError}
    (h : documentAt files s l r = .error e) : e.IsLookup := by
  unfold documentAt at h
  split at h
  · cases h
  · cases hv : files.readValue l r with
    | ok v => rw [hv] at h; cases h
    | error e' =>
      rw [hv] at h
      cases h
      exact readValue_isLookup hv

/-- Following a reference fails by looking up. -/
theorem resolveReference_isLookup {e : SchemaError}
    (h : (resolveReference files reference context).outcome s = .error e) : e.IsLookup := by
  -- Wherever the document comes from, its pointer is looked up last.
  have hlookup : ∀ {d : Document} {target : Target}, outcome (do
      let _ ← ExceptT.mk (pure (d.find (pointerPart reference)))
      pure target) s = .error e → e.IsLookup := by
    intro d target h
    cases hfind : d.find (pointerPart reference) with
    | error e' =>
      rw [hfind, outcome_bind_error (outcome_lift _)] at h
      cases h
      exact find_isLookup hfind
    | ok node =>
      rw [hfind, outcome_bind_ok (outcome_lift _)] at h
      cases h
  by_cases hhash : reference.toList.head? = some '#'
  · rw [resolveReference_hash hhash] at h
    exact hlookup h
  · by_cases hfile : filePart reference = ""
    · rw [resolveReference_empty hhash hfile] at h
      cases h
      trivial
    · rw [resolveReference_file hhash hfile] at h
      rcases (outcome_bind_eq_error (Steady.loadDocument files _ _) fun d =>
        (Steady.lift _).bind fun _ => Steady.pure _).mp h with h | ⟨d, -, h⟩
      · rw [outcome_loadDocument] at h
        exact documentAt_isLookup h
      · exact hlookup h

/-! ## Held contexts -/

/-- A context belongs to a document that the store or the files hold. -/
structure Context.Held (files : Texts) (s : Store) (c : Context) : Prop where
  /-- The directory is that of the document. -/
  directory : c = .ofDocument c.root
  /-- The document is the one at its location. -/
  document : documentAt files s c.root.location none = .ok c.root

/-- The context of a document that is held. -/
theorem Context.held_ofDocument {l : Location} {r : Option String} {d : Document}
    (h : documentAt files s l r = .ok d) : (Context.ofDocument d).Held files s where
  directory := rfl
  document := by
    have hl := location_of_documentAt h
    subst hl
    exact documentAt_ok h none

/-- A document in the store is the one at its location. -/
theorem documentAt_of_find? {d : Document} (h : s.find? d.location = some d) :
    documentAt files s d.location none = .ok d := by
  unfold documentAt
  rw [h]

/-- Following references stays among held contexts. -/
theorem ContextBehind.held {c : Context} (h : ContextBehind files s context reference c)
    (hc : context.Held files s) : c.Held files s := by
  cases h with
  | same => exact hc
  | document _ _ hd => exact Context.held_ofDocument hd

/-- Following references stays among normal locations. -/
theorem ContextBehind.normal {c : Context} (h : ContextBehind files s context reference c)
    (hdirectory : context = .ofDocument context.root) (hn : context.root.location.Normal) :
    c.root.location.Normal := by
  cases h with
  | same => exact hn
  | document _ _ hd =>
    have hl : (context.baseDirectory.resolve (filePart reference)).Normal := by
      rw [hdirectory]
      exact hn.parent.resolve _
    rw [← location_of_documentAt hd] at hl
    exact hl

/-- The target of a reference is in a held context. -/
theorem held_of_resolved (hc : context.Held files s)
    (h : (resolveReference files reference context).outcome s = .ok target) :
    target.context.Held files s := by
  obtain ⟨c, hbehind, -, rfl⟩ := resolveReference_eq_ok.mp h
  exact hbehind.held hc

/-- The identity of a target names the document of its context. -/
theorem document_of_resolved
    (h : (resolveReference files reference context).outcome s = .ok target) :
    target.identity.document = target.context.root.location := by
  obtain ⟨c, -, -, rfl⟩ := resolveReference_eq_ok.mp h
  rfl

/-- The documents of a store have distinct names and normal locations. -/
structure Store.WellFormed (s : Store) : Prop where
  /-- The names of members are distinct. -/
  distinct : ∀ d ∈ s.documents, d.root.Distinct
  /-- The locations are normal. -/
  normal : ∀ d ∈ s.documents, d.location.Normal

/-- A store with a single document is as well formed as the document. -/
theorem Store.wellFormed_singleton {d : Document} (hd : d.root.Distinct) (hl : d.location.Normal) :
    (Store.mk [d]).WellFormed where
  distinct d' h := by rwa [List.mem_singleton.mp h]
  normal d' h := by rwa [List.mem_singleton.mp h]

/-- The documents that a well-formed store and the files hold have distinct names. -/
theorem Context.Held.distinct (h : context.Held files s) (hs : s.WellFormed) :
    context.root.root.Distinct := by
  rcases documentAt_eq_ok.mp h.document with hfind | ⟨-, v, hv, he⟩
  · exact hs.distinct _ (Store.mem_of_find? hfind)
  · rw [he]
    exact Texts.distinct_of_readValue hv

/-- The node that a reference leads to is reached by the pointer of its target and found in its
document. -/
theorem LeadsTo.reaches {node : Json} (h : LeadsTo files s context reference target node) :
    Pointer.Reaches target.context.root.root (Pointer.normalize target.identity.pointer) node := by
  have hf := h.found
  unfold Target.node Document.find at hf
  split at hf
  · cases hf
  · next hv =>
    cases hf
    exact .of_find hv

/-- What lies on a way down occurs in the value. -/
theorem Pointer.inside_of_downAlong? {names : List String} {v w : Json}
    (h : downAlong? v names = some w) : v.Inside w := by
  induction names generalizing v with
  | nil =>
    cases h
    exact .here
  | cons name rest ih =>
    obtain ⟨u, hu, hw⟩ := Option.bind_eq_some_iff.mp h
    have hin : v.Inside u := by
      cases v with
      | obj members => exact .member .here (Json.mem_of_lookup hu)
      | arr items =>
        obtain ⟨i, -, hi⟩ := Option.bind_eq_some_iff.mp hu
        exact .item .here (List.mem_of_getElem? hi)
      | _ => cases hu
    exact hin.trans (ih hw)

/-- What a pointer reaches occurs in the document. -/
theorem Pointer.Reaches.inside {root v : Json} {pointer : String} (h : Reaches root pointer v) :
    root.Inside v := inside_of_downAlong? h

/-! ## Documents that references lead to -/

/-- A reference is written in a value. -/
def Json.Refers (root : Json) (reference : String) : Prop :=
  ∃ schema, root.Inside (.obj schema) ∧ schema.lookup "$ref" = some (.str reference)

/-- A document is a given one, or references lead to it. -/
inductive ReferredTo (files : Texts) (s : Store) (start : Document) : Document → Prop
  /-- The given document. -/
  | start : ReferredTo files s start start
  /-- The document behind a reference. -/
  | reference {d : Document} {reference : String} {target : Target}
    (referred : ReferredTo files s start d) (refers : d.root.Refers reference)
    (resolved : (resolveReference files reference (.ofDocument d)).outcome s = .ok target) :
    ReferredTo files s start target.context.root

/-! ## Plain references -/

/-- No reference in a document has a pointer that, once normalized, could be normalized further. -/
def PlainReferences (files : Texts) (s : Store) : Prop :=
  ∀ l d, documentAt files s l none = .ok d →
    ∀ reference, d.root.Refers reference → Pointer.Plain (Pointer.normalize (pointerPart reference))

/-- Nothing is read where there are only directories. -/
theorem Texts.readValue_empty {workingDirectory l : Location} {r : Option String} {v : Json} :
    (empty workingDirectory).readValue l r ≠ .ok v := by
  intro h
  obtain ⟨text, hread, -⟩ := Texts.readValue_eq_ok.mp h
  exact FileTree.readText_empty hread

/-- Where there are only directories, all documents are stored. -/
theorem mem_of_documentAt_empty {workingDirectory l : Location} {r : Option String} {d : Document}
    (h : documentAt (.empty workingDirectory) s l r = .ok d) : d ∈ s.documents := by
  rcases documentAt_eq_ok.mp h with hfind | ⟨-, v, hv, -⟩
  · exact Store.mem_of_find? hfind
  · exact absurd hv Texts.readValue_empty

/-- Where there are only directories, the references of the stored documents count. -/
theorem plainReferences_empty {workingDirectory : Location}
    (h : ∀ d ∈ s.documents, ∀ reference, d.root.Refers reference →
      Pointer.Plain (Pointer.normalize (pointerPart reference))) :
    PlainReferences (.empty workingDirectory) s :=
  fun _ d hd => h d (mem_of_documentAt_empty hd)

/-- Looking up depends on the normalized pointer alone. -/
theorem Pointer.find_congr {root : Json} {pointer pointer' : String}
    (h : normalize pointer = normalize pointer') : find root pointer = find root pointer' := by
  unfold find
  rw [h]

/-- A pointer that is plain once it is normalized finds the same node after that. -/
theorem Document.find_normalize {d : Document} {pointer : String} {node : Json}
    (hplain : Pointer.Plain (Pointer.normalize pointer)) (h : d.find pointer = .ok node) :
    d.find (Pointer.normalize pointer) = .ok node := by
  have hfind : Pointer.find d.root (Pointer.normalize pointer) = Pointer.find d.root pointer :=
    Pointer.find_congr hplain.normalize_eq
  unfold Document.find at h ⊢
  rw [hfind]
  cases hv : Pointer.find d.root pointer with
  | error name =>
    rw [hv] at h
    cases h
  | ok v =>
    rw [hv] at h
    exact h

/-- A reference with a plain pointer leads to a node as soon as it is resolved. -/
theorem leadsTo_of_resolved (hplain : Pointer.Plain (Pointer.normalize (pointerPart reference)))
    (h : (resolveReference files reference context).outcome s = .ok target) :
    ∃ node, LeadsTo files s context reference target node := by
  obtain ⟨c, -, ⟨node, hnode⟩, rfl⟩ := resolveReference_eq_ok.mp h
  -- The target is looked up by the pointer as it was normalized once, which is plain.
  exact ⟨node, h, Document.find_normalize hplain hnode⟩

/-- The pointer of a target of a plain reference is plain. -/
theorem plain_of_resolved (hplain : Pointer.Plain (Pointer.normalize (pointerPart reference)))
    (h : (resolveReference files reference context).outcome s = .ok target) :
    Pointer.Plain target.identity.pointer := by
  obtain ⟨c, -, -, rfl⟩ := resolveReference_eq_ok.mp h
  exact hplain

/-! ## What following a reference does to the store -/

/-- A store that gets a document it holds does not change. -/
theorem Store.add_of_find? {d : Document} (h : s.find? d.location = some d) : s.add d = (d, s) := by
  unfold Store.add
  rw [h]

/-- Looking up a pointer in a document and then naming what was found leaves the store. -/
theorem after_lookup {d : Document} {pointer : String} {α : Type} (a : α) :
    after (do let _ ← ExceptT.mk (pure (d.find pointer)); pure a) s = s := by
  cases d.find pointer with
  | error e => rw [after_bind_error (outcome_lift _), after_lift]
  | ok node =>
    rw [after_bind_ok (outcome_lift _)]
    rfl

/-- Following a reference to a document of the store leaves the store as it is. -/
theorem after_resolveReference_of_find?
    (h : (resolveReference files reference context).outcome s = .ok target)
    (hheld : s.find? target.context.root.location = some target.context.root) :
    (resolveReference files reference context).after s = s := by
  obtain ⟨c, hbehind, ⟨node, hnode⟩, rfl⟩ := resolveReference_eq_ok.mp h
  cases hbehind with
  | same hhash =>
    rw [resolveReference_hash hhash]
    exact after_lookup _
  | @document d hhash hfile hd =>
    have hd := documentAt_ok hd (some (reference ++ " in " ++ context.root.location.render))
    have hadd : (s.add d).2 = s := congrArg Prod.snd (Store.add_of_find? hheld)
    rw [resolveReference_file hhash hfile,
      after_bind_ok ((outcome_loadDocument files _ _ s).trans hd), after_loadDocument, hd]
    dsimp only
    rw [hadd]
    exact after_lookup _

/-- Following a reference from a document of the store leaves the document it leads to in the
store. -/
theorem find?_after_resolveReference
    (h : (resolveReference files reference context).outcome s = .ok target)
    (hheld : s.find? context.root.location = some context.root) :
    ((resolveReference files reference context).after s).find? target.context.root.location =
      some target.context.root := by
  obtain ⟨c, hbehind, ⟨node, hnode⟩, rfl⟩ := resolveReference_eq_ok.mp h
  cases hbehind with
  | same hhash => exact ((Steady.resolveReference files reference context).grows s).keeps hheld
  | @document d hhash hfile hd =>
    have hl := location_of_documentAt hd
    have hfound := find?_add_documentAt hd
    have hd := documentAt_ok hd (some (reference ++ " in " ++ context.root.location.render))
    rw [resolveReference_file hhash hfile,
      after_bind_ok ((outcome_loadDocument files _ _ s).trans hd), after_loadDocument, hd]
    dsimp only
    rw [← hl] at hfound
    rw [after_lookup]
    exact hfound

/-- Loading changes what the store holds at no other location. -/
theorem find?_after_loadDocument {l m : Location} {r : Option String} (h : m ≠ l) :
    ((loadDocument files l r).after s).find? m = s.find? m := by
  rw [after_loadDocument]
  cases hd : documentAt files s l r with
  | error e => rfl
  | ok d =>
    have hl : d.location ≠ m := by
      rw [location_of_documentAt hd]
      exact Ne.symm h
    cases hfind : s.find? d.location with
    | some c => simp only [Store.add, hfind]
    | none =>
      simp only [Store.add, hfind]
      rw [Store.find?_append hfind, if_neg hl]

/-- Following a reference changes what the store holds at no location but the one that the file part
of the reference names from the directory. -/
theorem find?_after_resolveReference_or (files : Texts) (s : Store) (context : Context)
    (reference : String) (l : Location) :
    ((resolveReference files reference context).after s).find? l = s.find? l ∨
      reference.toList.head? ≠ some '#' ∧ filePart reference ≠ "" ∧
        l = context.baseDirectory.resolve (filePart reference) := by
  by_cases hhash : reference.toList.head? = some '#'
  · rw [resolveReference_hash hhash, after_lookup]
    exact .inl rfl
  · by_cases hfile : filePart reference = ""
    · rw [resolveReference_empty hhash hfile]
      exact .inl rfl
    · by_cases hl : l = context.baseDirectory.resolve (filePart reference)
      · exact .inr ⟨hhash, hfile, hl⟩
      · -- Looking up the pointer leaves the store in which the document was loaded.
        have hload : ((loadDocument files (context.baseDirectory.resolve (filePart reference))
            (some (reference ++ " in " ++ context.root.location.render))).after s).find? l =
            s.find? l := find?_after_loadDocument hl
        rw [resolveReference_file hhash hfile]
        left
        cases hd : (loadDocument files (context.baseDirectory.resolve (filePart reference))
            (some (reference ++ " in " ++ context.root.location.render))).outcome s with
        | error e => rw [after_bind_error hd, hload]
        | ok d => rw [after_bind_ok hd, after_lookup, hload]

end LinkedSchema
