import LinkedSchema.Proofs.Locations
import LinkedSchema.Proofs.Reordering

/-!
# The order of members carries no meaning

Two sets of documents are compared that hold, path by path, the same values up to the order of
members, and so are two instances. A reference is read against the same directory on both sides, and
its pointer leads to reordered nodes, so the contexts stay related (`ContextsReordered`). Members of
the instance are visited in different orders: as loading is steady, each of them is checked as on
the stores of the start, whatever was visited before, and the reports are put together in another
order. So the findings are the same up to their order (`SameFindings`). Where only the schemas are
reordered, nothing is visited in another order, and the reports are the same.

Which failure is met first may depend on the order, so all failures count as the same.
-/

namespace LinkedSchema

open Loading

variable {α β γ : Type} {files files' : Texts} {s s' : Store}
  {E : SchemaError → SchemaError → Prop}

/-! ## Failures and stores -/

/-- All failures count as the same. -/
def AnyFailure (_ _ : SchemaError) : Prop := True

/-- Where all failures count as the same, agreement can be chained. -/
theorem Agree.trans {P : α → β → Prop} {Q : β → γ → Prop} {T : α → γ → Prop}
    {r : Except SchemaError α} {r' : Except SchemaError β} {r'' : Except SchemaError γ}
    (h : Agree AnyFailure P r r') (h' : Agree AnyFailure Q r' r'')
    (hT : ∀ a b c, P a b → Q b c → T a c) : Agree AnyFailure T r r'' := by
  cases h with
  | error =>
    cases h' with
    | error => exact .error trivial
  | ok hab =>
    cases h' with
    | ok hbc => exact .ok (hT _ _ _ hab hbc)

/-- Both stores have grown, each by what was read from its files. -/
def Grown (files files' : Texts) (s s' t t' : Store) : Prop :=
  Store.Extends files s t ∧ Store.Extends files' s' t'

/-- Steady computations compare on stores that have grown when they agree on the stores of the
start. -/
theorem Compares.of_steady {P : α → β → Prop} {x : Loading α} {y : Loading β}
    (hx : Steady files x) (hy : Steady files' y) (h : Agree E P (x.outcome s) (y.outcome s')) :
    Compares (Grown files files' s s') E P x y := by
  rintro t t' ⟨ht, ht'⟩
  rw [hx.stays ht, hy.stays ht']
  exact ⟨h, ht.trans (hx.grows t), ht'.trans (hy.grows t')⟩

/-- What compares on stores that have grown agrees on the stores of the start. -/
theorem Compares.agree {P : α → β → Prop} {x : Loading α} {y : Loading β}
    (h : Compares (Grown files files' s s') E P x y) : Agree E P (x.outcome s) (y.outcome s') :=
  (h ⟨.refl files s, .refl files' s'⟩).1

/-! ## Documents and references -/

/-- At every path there are documents on both sides, with the same value up to the order of members,
or there is none on either side. -/
def DocumentsReordered (files files' : Texts) (s s' : Store) : Prop :=
  ∀ l : Location, l.Normal → Agree AnyFailure (fun d d' => d.root.Reordered d'.root)
    (documentAt files s l none) (documentAt files' s' l none)

/-- The contexts of documents with one location and the same value up to the order of members. -/
structure ContextsReordered (context context' : Context) : Prop where
  /-- The first one is that of its document. -/
  directory : context = .ofDocument context.root
  /-- So is the second one. -/
  directory' : context' = .ofDocument context'.root
  /-- The location is the same. -/
  location : context'.root.location = context.root.location
  /-- The location is normal. -/
  normal : context.root.location.Normal
  /-- The value is the same up to the order of members. -/
  root : context.root.root.Reordered context'.root.root

/-- A document that cannot be loaded for one reader cannot be loaded for another. -/
theorem documentAt_error {l : Location} {r : Option String} {e : SchemaError}
    (h : documentAt files s l r = .error e) (q : Option String) :
    ∃ e', documentAt files s l q = .error e' := by
  cases hq : documentAt files s l q with
  | error e' => exact ⟨e', rfl⟩
  | ok d => cases h.symm.trans (documentAt_ok hq r)

/-- Loading a document leads to reordered documents. -/
theorem loadDocument_compares (h : DocumentsReordered files files' s s') {l : Location}
    (hl : l.Normal) (r r' : Option String) :
    Compares (Grown files files' s s') AnyFailure
      (fun d d' => ContextsReordered (.ofDocument d) (.ofDocument d'))
      (loadDocument files l r) (loadDocument files' l r') := by
  refine .of_steady (.loadDocument files l r) (.loadDocument files' l r') ?_
  rw [outcome_loadDocument, outcome_loadDocument]
  have hagree := h l hl
  cases hd : documentAt files s l none with
  | error e =>
    rw [hd] at hagree
    cases hd' : documentAt files' s' l none with
    | ok d' =>
      rw [hd'] at hagree
      cases hagree
    | error e' =>
      obtain ⟨_, he⟩ := documentAt_error hd r
      obtain ⟨_, he'⟩ := documentAt_error hd' r'
      rw [he, he']
      exact .error trivial
  | ok d =>
    rw [hd] at hagree
    cases hd' : documentAt files' s' l none with
    | error e' =>
      rw [hd'] at hagree
      cases hagree
    | ok d' =>
      rw [hd'] at hagree
      cases hagree with
      | ok hroot =>
        have hlocation := location_of_documentAt hd
        have hlocation' := location_of_documentAt hd'
        rw [documentAt_ok hd r, documentAt_ok hd' r']
        exact .ok ⟨rfl, rfl, hlocation'.trans hlocation.symm, hlocation.symm ▸ hl, hroot⟩

/-- A pointer leads to reordered nodes in reordered documents. -/
theorem ContextsReordered.find {context context' : Context} (h : ContextsReordered context context')
    (pointer : String) : Agree AnyFailure Json.Reordered (context.root.find pointer)
      (context'.root.find pointer) := by
  unfold Document.find
  rcases Pointer.find_reordered h.root pointer with ⟨v, w, hv, hw, hvw⟩ | ⟨name, hv, hw⟩
  · rw [hv, hw]
    exact .ok hvw
  · rw [hv, hw]
    exact .error trivial

/-- A reference leads to the same place in reordered documents. -/
theorem resolveReference_reordered (hdocuments : DocumentsReordered files files' s s')
    {context context' : Context} (text : String) (h : ContextsReordered context context') :
    Compares (Grown files files' s s') AnyFailure
      (fun target target' => target'.identity = target.identity ∧
        ContextsReordered target.context target'.context)
      (resolveReference files text context) (resolveReference files' text context') := by
  by_cases hhash : text.toList.head? = some '#'
  · rw [resolveReference_hash hhash, resolveReference_hash hhash]
    refine (Compares.lift (h.find _)).bind fun _ _ _ => .pure ⟨?_, h⟩
    rw [h.location]
  · by_cases hfile : filePart text = ""
    · rw [resolveReference_empty hhash hfile, resolveReference_empty hhash hfile]
      exact .lift (.error trivial)
    · rw [resolveReference_file hhash hfile, resolveReference_file hhash hfile]
      have hdirectory : context'.baseDirectory = context.baseDirectory := by
        rw [h.directory, h.directory']
        exact congrArg Location.parent h.location
      have hnormal : (context.baseDirectory.resolve (filePart text)).Normal := by
        rw [h.directory]
        exact h.normal.parent.resolve _
      rw [hdirectory]
      refine (loadDocument_compares hdocuments hnormal _ _).bind fun d d' hd => ?_
      refine (Compares.lift (hd.find _)).bind fun _ _ _ => .pure ⟨?_, hd⟩
      exact congrArg (Identity.of · _) hd.location

/-- References have the same text in reordered nodes. -/
theorem referenceText_reordered {w w' : Json} (h : w.Reordered w') :
    Agree AnyFailure Eq (referenceText w) (referenceText w') := by
  rcases Json.keepsShape_reordered.cases h with ⟨-, rfl⟩ | ⟨_, _, rfl, rfl, -⟩ | ⟨_, _, rfl, rfl, -⟩
  · exact .refl (fun _ => trivial) _
  · exact .error trivial
  · exact .error trivial

namespace Structural

/-! ## Reports with the same findings -/

/-- What a violation finds: its place and its kind, without the wording. -/
def finding (violation : Violation) : Locator × ViolationKind := (violation.place, violation.kind)

/-- Reports have the same findings, each of them as often, in any order. -/
def SameFindings (r r' : Report) : Prop := (r.map finding).Perm (r'.map finding)

/-- Reports with the same findings can be put together. -/
theorem sameFindings_congruence : Congruence SameFindings where
  nil := .nil
  append {r r' q q'} hr hq := by
    unfold SameFindings
    rw [List.map_append, List.map_append]
    exact hr.append hq
  isEmpty {r r'} h := by
    have hlength := h.length_eq
    rw [List.length_map, List.length_map] at hlength
    rw [Bool.eq_iff_iff, List.isEmpty_iff_length_eq_zero, List.isEmpty_iff_length_eq_zero, hlength]

/-- Branches have the same findings when the reports on the alternatives do. -/
theorem sameFindings_branchReports {reports reports' : List Report}
    (h : List.Forall₂ SameFindings reports reports') (i : Nat) :
    SameFindings (branchReports i reports) (branchReports i reports') := by
  induction h generalizing i with
  | nil => exact .nil
  | @cons r r' _ _ hr _ ih =>
    refine sameFindings_congruence.append ?_ (ih (i + 1))
    have hmarked := hr.map fun found : Locator × ViolationKind =>
      (found.1, ViolationKind.anyOfBranch)
    unfold SameFindings
    rw [List.map_map] at hmarked ⊢
    rw [List.map_map] at hmarked ⊢
    exact hmarked

/-- The reports on alternatives have the same findings when those of the alternatives do. -/
theorem sameFindings_anyOfReport (verbose : Bool) (place : Locator)
    {reports reports' : Option (List Report)}
    (h : Option.Rel (List.Forall₂ SameFindings) reports reports') :
    SameFindings (anyOfReport verbose place reports) (anyOfReport verbose place reports') := by
  cases h with
  | none => exact .nil
  | some h =>
    have hbranches := sameFindings_branchReports h 0
    cases h with
    | nil => exact .nil
    | cons =>
      cases verbose with
      | true => exact hbranches.cons _
      | false => exact .refl _

/-! ## Members in another order -/

variable {check : String → Json → Loading Report} {members members' : Members}

/-- Members are checked one after the other, each as on the store of the start. -/
theorem outcome_eachMember_cons (h : ∀ name w, Steady files (check name w)) (p : String × Json)
    (rest : Members) :
    (eachMember check (p :: rest)).outcome s = (do
      let report ← (check p.1 p.2).outcome s
      let others ← (eachMember check rest).outcome s
      pure (report ++ others)) := by
  have hrest := eachMember_steady h rest
  have hcons : eachMember check (p :: rest) = (do
      let report ← check p.1 p.2
      let others ← eachMember check rest
      pure (report ++ others)) := rfl
  rw [hcons, outcome_bind (h p.1 p.2) fun _ => hrest.bind fun _ => .pure _]
  refine congrArg ((check p.1 p.2).outcome s >>= ·) (funext fun report => ?_)
  rw [outcome_bind hrest fun _ => .pure _]
  rfl

/-- Checking members in another order finds the same in another order. -/
theorem eachMember_perm (h : ∀ name w, Steady files (check name w)) (hperm : members.Perm members') :
    Agree AnyFailure List.Perm ((eachMember check members).outcome s)
      ((eachMember check members').outcome s) := by
  induction hperm with
  | nil => exact .ok .nil
  | cons p _ ih =>
    rw [outcome_eachMember_cons h, outcome_eachMember_cons h]
    refine (Agree.refl (fun _ => trivial) _).bind fun report _ he => ?_
    subst he
    exact ih.bind fun _ _ hothers => .ok (hothers.append_left report)
  | swap p q rest =>
    simp only [outcome_eachMember_cons h]
    generalize (check p.1 p.2).outcome s = rp, (check q.1 q.2).outcome s = rq,
      (eachMember check rest).outcome s = rest
    -- All three succeed, or both sides fail.
    cases rp with
    | error => cases rq <;> exact .error trivial
    | ok =>
      cases rq with
      | error => exact .error trivial
      | ok =>
        cases rest with
        | error => exact .error trivial
        | ok => exact .ok (List.perm_append_comm_assoc ..)
  | trans _ _ ih ih' => exact ih.trans ih' fun _ _ _ h h' => h.trans h'

/-- Reordered objects are checked with the same findings when their members are. -/
theorem eachMember_reordered {check' : String → Json → Loading Report}
    (hmembers : (Json.obj members).Reordered (.obj members'))
    (hsteady : ∀ name w, Steady files (check name w))
    (hsteady' : ∀ name w, Steady files' (check' name w))
    (h : ∀ name (w w' : Json), w.Reordered w' →
      Compares (Grown files files' s s') AnyFailure SameFindings (check name w) (check' name w')) :
    Compares (Grown files files' s s') AnyFailure SameFindings (eachMember check members)
      (eachMember check' members') := by
  obtain ⟨ks, hks, hperm⟩ := hmembers.aligned
  -- First the members are compared in one order, then the order is changed on one side.
  have hpair : ∀ p q : String × Json, p.1 = q.1 ∧ p.2.Reordered q.2 →
      Compares (Grown files files' s s') AnyFailure SameFindings (check p.1 p.2)
        (check' q.1 q.2) := by
    rintro p q ⟨hname, hvalue⟩
    rw [← hname]
    exact h p.1 p.2 q.2 hvalue
  have horder := eachMember_compares sameFindings_congruence (hks.imp hpair)
  have hagree := horder.agree.trans (eachMember_perm hsteady' hperm)
    fun _ _ _ hr hp => hr.trans (hp.map finding)
  exact .of_steady (eachMember_steady hsteady _) (eachMember_steady hsteady' _) hagree

/-! ## Whole walks -/

/-- Walks over reordered documents with reordered instances compare. -/
theorem reordering (hdocuments : DocumentsReordered files files' s s') (settings : Settings) :
    Comparison files files' settings settings (Grown files files' s s') AnyFailure Json.Reordered
      Json.Reordered ContextsReordered SameFindings where
  toCongruence := sameFindings_congruence
  instances := Json.keepsShape_reordered
  nodes := Json.keepsShape_reordered
  equal {_ _ w _} hv hw := (hw.equal_right _).trans (hv.equal_left w)
  failure _ := trivial
  ceiling := rfl
  reference := referenceText_reordered
  resolve := resolveReference_reordered hdocuments
  find pointer h := h.find pointer
  same _ := .refl _
  enum _ _ := .refl _
  anyOf place h := sameFindings_anyOfReport settings.verboseAnyOf place h
  eachMember := eachMember_reordered

/-- Being the same is a congruence. -/
theorem congruence_eq : Congruence Eq where
  nil := rfl
  append hr hq := by rw [hr, hq]
  isEmpty h := by rw [h]

/-- Walks over reordered documents with the same instance compare, and nothing about their reports
differs. -/
theorem schemaReordering (hdocuments : DocumentsReordered files files' s s') (settings : Settings) :
    Comparison files files' settings settings (Grown files files' s s') AnyFailure Eq
      Json.Reordered ContextsReordered Eq where
  toCongruence := congruence_eq
  instances := Json.keepsShape_eq
  nodes := Json.keepsShape_reordered
  equal hv hw := by rw [hv, hw.equal_right]
  failure _ := trivial
  ceiling := rfl
  reference := referenceText_reordered
  resolve := resolveReference_reordered hdocuments
  find pointer h := h.find pointer
  same _ := rfl
  enum _ h := by rw [h]
  anyOf place h := by
    cases h with
    | none => rfl
    | some h =>
      rw [List.forall₂_eq_eq_eq] at h
      rw [h]
  eachMember hm _ _ h := by
    cases hm
    exact eachMember_compares congruence_eq (List.forall₂_same.mpr fun p _ => h p.1 p.2 p.2 rfl)

/-- Validation has the same outcome on documents and instances that agree up to the order of
members: it fails on both sides, or both reports are empty, or neither is, and they have the same
findings, each as often. Where only the documents are reordered, the reports are the same. -/
theorem validateNode_reordered {files files' : FileTree} {s s' : Store}
    (hdocuments : DocumentsReordered files files' s s') {context context' : Context}
    (hcontext : ContextsReordered context context') {node node' : Json}
    (hnode : node.Reordered node') (settings : Settings) (v v' : Json) (place : Locator) :
    (v.Reordered v' →
      Agree AnyFailure (fun report report' => report.isValid = report'.isValid ∧
          (report.map finding).Perm (report'.map finding))
        ((validateNode files settings v node context place).outcome s)
        ((validateNode files' settings v' node' context' place).outcome s')) ∧
    Agree AnyFailure Eq ((validateNode files settings v node context place).outcome s)
      ((validateNode files' settings v node' context' place).outcome s') := by
  constructor
  · intro hv
    have hwalk := (reordering hdocuments settings).walk_compares (settings.maxDepth + 1) place
      (.start settings.maxRefChain) hv hnode hcontext
    exact hwalk.agree.mono fun _ _ h => ⟨(sameFindings_congruence.isEmpty h).symm, h⟩
  · exact ((schemaReordering hdocuments settings).walk_compares (settings.maxDepth + 1) place
      (.start settings.maxRefChain) (rfl : v = v) hnode hcontext).agree

/-- A schema of pairs. -/
def pairSchema : Document where
  location := ⟨["s", "pair.json"]⟩
  root := .obj [("type", .str "object"), ("properties",
    .obj [("left", .obj [("type", .str "string")]), ("right", .obj [("type", .str "number")])])]

/-- The same schema with its members in another order. -/
def swappedSchema : Document where
  location := ⟨["s", "pair.json"]⟩
  root := .obj [("properties",
    .obj [("right", .obj [("type", .str "number")]), ("left", .obj [("type", .str "string")])]),
    ("type", .str "object")]

/-- A pair that is wrong in both parts. -/
def wrongPair : Json := .obj [("left", .null), ("right", .null)]

/-- The same pair with its members in the other order. -/
def swappedPair : Json := .obj [("right", .null), ("left", .null)]

/-- Two members may be swapped. -/
theorem reordered_swap {a b : String} {v v' w w' : Json} (hne : a ≠ b) (hv : v.Reordered v')
    (hw : w.Reordered w') : (Json.obj [(a, v), (b, w)]).Reordered (.obj [(b, w'), (a, v')]) := by
  refine .obj (by simp [hne]) (.swap ..) fun name u u' hu hu' => ?_
  simp only [List.mem_cons, Prod.mk.injEq, List.not_mem_nil, or_false] at hu hu'
  rcases hu with ⟨rfl, rfl⟩ | ⟨rfl, rfl⟩
  · rcases hu' with ⟨he, -⟩ | ⟨-, rfl⟩
    · exact absurd he hne
    · exact hv
  · rcases hu' with ⟨-, rfl⟩ | ⟨he, -⟩
    · exact hw
    · exact absurd he.symm hne

/-- The two schemas are the same up to the order of members. -/
theorem pairSchema_reordered : pairSchema.root.Reordered swappedSchema.root := by
  have htype : ∀ name, (Json.obj [("type", .str name)]).Reordered (.obj [("type", .str name)]) :=
    fun name => .refl (Json.distinct_obj ⟨List.nodup_singleton _, fun p hp => by
      cases List.mem_singleton.mp hp
      exact Json.distinct_scalar trivial⟩)
  exact reordered_swap (by decide) (.scalar trivial)
    (reordered_swap (by decide) (htype "string") (htype "number"))

/-- Stores with one of the schemas each have reordered documents. -/
theorem documentsReordered_pairSchema :
    DocumentsReordered (FileTree.empty .root) (FileTree.empty .root) ⟨[pairSchema]⟩
      ⟨[swappedSchema]⟩ := by
  intro l _
  by_cases hl : l = ⟨["s", "pair.json"]⟩
  · subst hl
    exact .ok pairSchema_reordered
  · have hnone : ∀ d : Document, d.location = ⟨["s", "pair.json"]⟩ →
        ∃ e, documentAt (FileTree.empty .root) ⟨[d]⟩ l none = .error e := by
      intro d hd
      cases he : documentAt (FileTree.empty .root) ⟨[d]⟩ l none with
      | error e => exact ⟨e, rfl⟩
      | ok c =>
        cases List.mem_singleton.mp (mem_of_documentAt_empty he)
        exact absurd ((location_of_documentAt he).symm.trans hd) hl
    obtain ⟨e, he⟩ := hnone pairSchema rfl
    obtain ⟨e', he'⟩ := hnone swappedSchema rfl
    rw [he, he']
    exact .error trivial

/-- A pair that is wrong in both parts is reported in the order of its members, whatever the order
in the schema. -/
theorem wrongPair_reordered :
    ∃ report report',
      (validateNode (FileTree.empty .root) ⟨1, 3, false⟩ wrongPair pairSchema.root
        (.ofDocument pairSchema) .root).outcome ⟨[pairSchema]⟩ = .ok report ∧
      (validateNode (FileTree.empty .root) ⟨1, 3, false⟩ wrongPair swappedSchema.root
        (.ofDocument swappedSchema) .root).outcome ⟨[swappedSchema]⟩ = .ok report ∧
      (validateNode (FileTree.empty .root) ⟨1, 3, false⟩ swappedPair swappedSchema.root
        (.ofDocument swappedSchema) .root).outcome ⟨[swappedSchema]⟩ = .ok report' ∧
      report ≠ report' ∧ (report.map finding).Perm (report'.map finding) := by
  have hreport : (validateNode (FileTree.empty .root) ⟨1, 3, false⟩ wrongPair pairSchema.root
      (.ofDocument pairSchema) .root).outcome ⟨[pairSchema]⟩ =
        .ok [⟨Locator.root.property "left", .type, "expected type string"⟩,
          ⟨Locator.root.property "right", .type, "expected type number"⟩] := by rfl
  have hreport' : (validateNode (FileTree.empty .root) ⟨1, 3, false⟩ swappedPair swappedSchema.root
      (.ofDocument swappedSchema) .root).outcome ⟨[swappedSchema]⟩ =
        .ok [⟨Locator.root.property "right", .type, "expected type number"⟩,
          ⟨Locator.root.property "left", .type, "expected type string"⟩] := by rfl
  have hpair : wrongPair.Reordered swappedPair :=
    reordered_swap (by decide) (.scalar trivial) (.scalar trivial)
  have hcontext : ContextsReordered (.ofDocument pairSchema) (.ofDocument swappedSchema) :=
    ⟨rfl, rfl, rfl, by decide, pairSchema_reordered⟩
  obtain ⟨hboth, hsame⟩ := validateNode_reordered documentsReordered_pairSchema hcontext
    pairSchema_reordered ⟨1, 3, false⟩ wrongPair swappedPair .root
  have hfindings := hboth hpair
  rw [hreport, hreport'] at hfindings
  rw [hreport] at hsame
  generalize (validateNode (FileTree.empty .root) ⟨1, 3, false⟩ wrongPair swappedSchema.root
    (.ofDocument swappedSchema) .root).outcome ⟨[swappedSchema]⟩ = r at hsame ⊢
  cases hsame with
  | ok he =>
    cases hfindings with
    | ok h => exact ⟨_, _, hreport, congrArg Except.ok he.symm, hreport', by decide, h.2⟩

end Structural

end LinkedSchema
