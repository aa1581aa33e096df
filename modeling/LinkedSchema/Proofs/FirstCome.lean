import LinkedSchema.Proofs.Loading
import LinkedSchema.Proofs.Locations
import LinkedSchema.Validation.Session
import Mathlib.Data.List.Dedup

/-!
# The first document of a place stays

A store may be asked for a document in two ways: it loads the file at a path, or it is handed a
value for a path. Either way the place that the path names decides. A free place is taken by what
the request brings, and a place that is taken answers with the document it has, whatever is brought
and whatever the file holds by now (`Session.answer_eq`). Between the requests the files may change
in any way, and the store may be emptied.

A `Course` puts next to a session the record of what its store has granted since it was last
emptied. The record knows nothing of the store. Every step keeps them together
(`Course.Faithful.next`): what is held at a place is what was granted there first. So a document
stays where it is until the store is emptied, two spellings of one place share one document, and
there are as many documents as places that were asked for with success.
-/

namespace LinkedSchema

/-! ## Requests -/

/-- What asks the store of a session for a document. -/
inductive StoreRequest where
  /-- The file at a path is loaded; a reference may have asked for it. -/
  | load (path : String) (referencedFrom : Option String)
  /-- A value is put at a path. -/
  | insert (path : String) (root : Json)

namespace StoreRequest

/-- The path as the request spells it. -/
def path : StoreRequest → String
  | load path _ | insert path _ => path

/-- The value that a request brings along: what the file holds now, or the value that is put. -/
def value (files : FileTree) : StoreRequest → Except SchemaError Json
  | load path referencedFrom => Document.readValue files (files.locate path) referencedFrom
  | insert _ root => .ok root

end StoreRequest

/-- What happens to the store of a session and to the files. -/
inductive StoreOperation where
  /-- A document is asked for. -/
  | ask (request : StoreRequest)
  /-- The store is emptied. -/
  | clear
  /-- The files and directories become any others. -/
  | edit (entries : List (Location × Entry))

namespace Session

/-- The answer to a request, and the session after it. -/
def answer (s : Session) : StoreRequest → Except SchemaError Document × Session
  | .load path referencedFrom => s.load path referencedFrom
  | .insert path root => (s.insert path root).map .ok id

/-- The session with other files in the same working directory. -/
def edit (s : Session) (entries : List (Location × Entry)) : Session :=
  { s with files := { s.files with entries := entries } }

/-- The session after an operation. -/
def operate (s : Session) : StoreOperation → Session
  | .ask request => (s.answer request).2
  | .clear => s.clear
  | .edit entries => s.edit entries

/-- The store of a session has got one more document. -/
def withDocument (s : Session) (d : Document) : Session :=
  { s with own := ⟨s.own.documents ++ [d]⟩ }

/-- The new document is held at its location, and nothing else has changed. -/
theorem find?_withDocument {s : Session} {l : Location} (h : s.own.find? l = none) (root : Json)
    (l' : Location) : (s.withDocument ⟨l, root⟩).own.find? l' =
      if l = l' then some ⟨l, root⟩ else s.own.find? l' :=
  Store.find?_append (d := ⟨l, root⟩) h l'

/-- A request for a place that is taken is answered with its document. A free place is taken by the
value that the request brings, if it brings one. -/
theorem answer_eq (s : Session) (request : StoreRequest) :
    s.answer request =
      let l := s.files.locate request.path
      match s.own.find? l with
      | some d => (.ok d, s)
      | none =>
        match request.value s.files with
        | .error e => (.error e, s)
        | .ok root => (.ok ⟨l, root⟩, s.withDocument ⟨l, root⟩) := by
  cases request with
  | load path r =>
    rw [answer, load, Loading.runOn_eq, outcome_loadDocument, after_loadDocument, documentAt]
    dsimp only [StoreRequest.path, StoreRequest.value, Document.readValue]
    cases hl : s.own.find? (s.files.locate path) with
    | some d =>
      have hd : d.location = s.files.locate path := Store.location_of_find? hl
      simp only [Store.add, hd, hl]
    | none =>
      cases s.files.texts.readValue (s.files.locate path) r with
      | error e => rfl
      | ok root => simp only [Except.map, Store.add, hl, withDocument]
  | insert path root =>
    dsimp only [answer, insert, StoreRequest.path, StoreRequest.value, Store.add]
    cases hl : s.own.find? (s.files.locate path) <;> rfl

/-- What a request finds: a place that is taken, nothing to bring, or a free place that it takes. -/
theorem answer_cases (s : Session) (request : StoreRequest) :
    let l := s.files.locate request.path
    (∃ d, s.own.find? l = some d ∧ s.answer request = (.ok d, s)) ∨
      s.own.find? l = none ∧
        ((∃ e, s.answer request = (.error e, s)) ∨
          ∃ root, request.value s.files = .ok root ∧
            s.answer request = (.ok ⟨l, root⟩, s.withDocument ⟨l, root⟩)) := by
  intro l
  have hanswer := s.answer_eq request
  cases hfind : s.own.find? l with
  | some d => exact .inl ⟨d, rfl, by rw [hanswer]; simp only [l, hfind]⟩
  | none =>
    refine .inr ⟨rfl, ?_⟩
    cases hvalue : request.value s.files with
    | error e => exact .inl ⟨e, by rw [hanswer]; simp only [l, hfind, hvalue]⟩
    | ok root => exact .inr ⟨root, rfl, by rw [hanswer]; simp only [l, hfind, hvalue]⟩

variable {s : Session} {request : StoreRequest}

/-- The document of a place that is taken is the answer. -/
theorem answer_of_find? {d : Document} (h : s.own.find? (s.files.locate request.path) = some d) :
    (s.answer request).1 = .ok d := by
  rw [answer_eq]
  simp only [h]

/-- A request that fails changes nothing. -/
theorem answer_error {e : SchemaError} (h : (s.answer request).1 = .error e) :
    (s.answer request).2 = s := by
  rcases s.answer_cases request with ⟨d, -, ha⟩ | ⟨-, ⟨e, ha⟩ | ⟨root, -, ha⟩⟩ <;> rw [ha] at h ⊢
  cases h

/-- What is held stays when a document is asked for. -/
theorem answer_keeps (request : StoreRequest) {l : Location} {d : Document}
    (h : s.own.find? l = some d) : (s.answer request).2.own.find? l = some d := by
  rcases s.answer_cases request with ⟨c, -, ha⟩ | ⟨hfree, ⟨e, ha⟩ | ⟨root, -, ha⟩⟩ <;> rw [ha]
  · exact h
  · exact h
  · have hne : s.files.locate request.path ≠ l := by
      rintro hl
      rw [← hl, hfree] at h
      cases h
    rw [find?_withDocument hfree, if_neg hne, h]

/-- Nothing but emptying the store takes away or replaces what is held. -/
theorem operate_keeps {op : StoreOperation} (hop : op ≠ .clear) {l : Location} {d : Document}
    (h : s.own.find? l = some d) : (s.operate op).own.find? l = some d := by
  cases op with
  | ask request => exact answer_keeps request h
  | clear => exact absurd rfl hop
  | edit entries => exact h

/-- Other files in the same working directory come from an edit. -/
theorem withFiles_eq_edit (s : Session) {files : FileTree}
    (hdirectory : files.workingDirectory = s.files.workingDirectory) :
    { s with files := files } = s.edit files.entries := by
  obtain ⟨directory, entries⟩ := files
  cases hdirectory
  rfl

/-- Files are written, made and removed by edits. -/
theorem changes_eq_edit (s : Session) (path : String) (content : ByteArray) :
    s.write path content = s.edit (s.write path content).files.entries ∧
      s.makeDirectory path = s.edit (s.makeDirectory path).files.entries ∧
      s.remove path = s.edit (s.remove path).files.entries :=
  ⟨s.withFiles_eq_edit (by simp), s.withFiles_eq_edit (by simp), s.withFiles_eq_edit (by simp)⟩

end Session

/-! ## What has been granted -/

/-- A session, and the requests to its store that were answered with a document since the store was
last emptied: the places they named and the documents they got, in the order of the requests. -/
structure Course where
  session : Session
  granted : List (Location × Document)

namespace Course

/-- An operation is carried out and put on record. -/
def next (c : Course) (op : StoreOperation) : Course where
  session := c.session.operate op
  granted := match op with
    | .ask request =>
      match (c.session.answer request).1 with
      | .ok d => c.granted ++ [(c.session.files.locate request.path, d)]
      | .error _ => c.granted
    | .clear => []
    | .edit _ => c.granted

/-- Several operations are carried out. -/
def nextAll (c : Course) (ops : List StoreOperation) : Course := ops.foldl next c

variable {c : Course}

/-- An answered request is put on record. -/
theorem next_ask_ok {request : StoreRequest} {d : Document} {s : Session}
    (h : c.session.answer request = (.ok d, s)) :
    c.next (.ask request) = ⟨s, c.granted ++ [(c.session.files.locate request.path, d)]⟩ := by
  simp only [next, Session.operate, h]

/-- A failed request is not. -/
theorem next_ask_error {request : StoreRequest} {e : SchemaError} {s : Session}
    (h : c.session.answer request = (.error e, s)) : c.next (.ask request) = ⟨s, c.granted⟩ := by
  simp only [next, Session.operate, h]

/-- The store of a session holds what was granted first at each place. -/
structure Faithful (c : Course) : Prop where
  /-- What is held at a place was granted there first, and what was granted is held. -/
  held : ∀ l, c.session.own.find? l = c.granted.lookup l
  /-- No place has two documents. -/
  distinct : (c.session.own.documents.map Document.location).Nodup
  /-- The places have normal locations. -/
  normal : ∀ d ∈ c.session.own.documents, d.location.Normal
  /-- Paths start in a normal directory. -/
  directory : c.session.files.workingDirectory.Normal

/-- Nothing is held and nothing has been granted at first. -/
theorem faithful_start {s : Session} (hown : s.own = .empty)
    (hnormal : s.files.workingDirectory.Normal) : Faithful ⟨s, []⟩ where
  held l := by rw [hown]; rfl
  distinct := by rw [hown]; exact List.nodup_nil
  normal d hd := by rw [hown] at hd; cases hd
  directory := hnormal

/-- One more grant counts at its own place, unless something was granted there before. -/
theorem lookup_append_grant (granted : List (Location × Document)) (l l' : Location)
    (d : Document) :
    (granted ++ [(l, d)]).lookup l' =
      (granted.lookup l').or (if l = l' then some d else none) := by
  rw [List.lookup_append]
  congr 1
  by_cases hl : l = l'
  · simp [hl]
  · have hne : (l' == l) = false := beq_eq_false_iff_ne.mpr (Ne.symm hl)
    rw [List.lookup_cons, hne, if_neg hl]
    rfl

/-- A request keeps the store and the record together. -/
theorem Faithful.ask (h : c.Faithful) (request : StoreRequest) :
    (c.next (.ask request)).Faithful := by
  rcases c.session.answer_cases request with ⟨d, hfind, ha⟩ | ⟨hfind, ⟨e, ha⟩ | ⟨root, -, ha⟩⟩
  · -- The place is taken, so the session stays and what is granted was granted before.
    rw [next_ask_ok ha]
    refine ⟨fun l => ?_, h.distinct, h.normal, h.directory⟩
    rw [lookup_append_grant, ← h.held l]
    split
    · next hl => rw [← hl, hfind, Option.some_or]
    · rw [Option.or_none]
  · rw [next_ask_error ha]
    exact h
  · -- The place is free, so what is brought is the first document there.
    rw [next_ask_ok ha]
    have hplace : (c.session.files.locate request.path).Normal := h.directory.resolve request.path
    generalize c.session.files.locate request.path = l at hfind hplace ⊢
    have hfree : ∀ d ∈ c.session.own.documents, d.location ≠ l := by
      simpa [Store.find?] using hfind
    refine ⟨fun l' => ?_, ?_, ?_, h.directory⟩
    · rw [lookup_append_grant, ← h.held l', Session.find?_withDocument hfind]
      split
      · next hl => rw [← hl, hfind, Option.none_or]
      · rw [Option.or_none]
    · rw [Session.withDocument, List.map_append, List.nodup_append]
      refine ⟨h.distinct, List.nodup_singleton _, ?_⟩
      simpa using hfree
    · intro d hd
      rcases List.mem_append.mp hd with hd | hd
      · exact h.normal d hd
      · rw [List.mem_singleton.mp hd]
        exact hplace

/-- Every operation keeps the store and the record together. -/
theorem Faithful.next (h : c.Faithful) (op : StoreOperation) : (c.next op).Faithful := by
  cases op with
  | ask request => exact h.ask request
  | clear => exact faithful_start rfl h.directory
  | edit entries => exact ⟨h.held, h.distinct, h.normal, h.directory⟩

/-- So does a whole run. -/
theorem Faithful.nextAll (h : c.Faithful) (ops : List StoreOperation) :
    (c.nextAll ops).Faithful := by
  induction ops generalizing c with
  | nil => exact h
  | cons op rest ih => exact ih (h.next op)

/-- Every document that is held is the one of its location. -/
theorem Faithful.find?_of_mem (h : c.Faithful) {d : Document}
    (hd : d ∈ c.session.own.documents) : c.session.own.find? d.location = some d := by
  obtain ⟨held, hheld⟩ : ∃ held, c.session.own.find? d.location = some held := by
    rw [← Option.isSome_iff_exists, Store.find?, List.find?_isSome]
    exact ⟨d, hd, by simp⟩
  rw [hheld, List.inj_on_of_nodup_map h.distinct (Store.mem_of_find? hheld) hd
    (Store.location_of_find? hheld)]

/-- A request that gets a document gets the first one granted at its place, which stays there, and
which it has brought itself if none was granted there before. -/
theorem Faithful.answered (h : c.Faithful) {request : StoreRequest} {d : Document}
    (hd : (c.session.answer request).1 = .ok d) :
    let l := c.session.files.locate request.path
    (c.session.answer request).2.own.find? l = some d ∧
      (c.next (.ask request)).granted.lookup l = some d ∧
      (c.granted.lookup l = none →
        ∃ root, request.value c.session.files = .ok root ∧ d = ⟨l, root⟩) := by
  intro l
  have hheld := (h.ask request).held l
  rcases c.session.answer_cases request with ⟨d', hfind, ha⟩ | ⟨hfind, ⟨e, ha⟩ | ⟨root, hroot, ha⟩⟩
  · rw [ha] at hd ⊢
    cases hd
    rw [next_ask_ok ha] at hheld ⊢
    refine ⟨hfind, hheld.symm.trans hfind, fun hnone => ?_⟩
    rw [← h.held l, hfind] at hnone
    cases hnone
  · rw [ha] at hd
    cases hd
  · rw [ha] at hd ⊢
    cases hd
    have hnew := (Session.find?_withDocument hfind root l).trans (if_pos rfl)
    rw [next_ask_ok ha] at hheld ⊢
    exact ⟨hnew, hheld.symm.trans hnew, fun _ => ⟨root, hroot, rfl⟩⟩

/-- There are as many documents as places at which something was granted. -/
theorem Faithful.size (h : c.Faithful) :
    c.session.own.size = (c.granted.map Prod.fst).dedup.length := by
  have hmem : ∀ l, l ∈ c.session.own.documents.map Document.location ↔
      l ∈ (c.granted.map Prod.fst).dedup := by
    intro l
    have hdocuments : c.session.own.find? l = none ↔
        l ∉ c.session.own.documents.map Document.location := by
      simp [Store.find?]
    have hgranted : c.granted.lookup l = none ↔ l ∉ c.granted.map Prod.fst := by
      simp only [List.lookup_eq_none_iff, List.mem_map, not_exists, not_and, bne_iff_ne]
      exact ⟨fun h p hp he => h p hp he.symm, fun h p hp he => h p hp he.symm⟩
    rw [List.mem_dedup, ← not_iff_not, ← hdocuments, ← hgranted, h.held l]
  have hperm := (List.perm_ext_iff_of_nodup h.distinct (List.nodup_dedup _)).mpr hmem
  rw [Store.size, ← hperm.length_eq, List.length_map]

end Course

/-! ## Runs -/

/-- Whatever was asked of a store that was empty at first, whenever it was emptied and however the
files changed: what is held at a location has that location for its own, and the text of the
location leads back to it. A location has one document, the one that was granted first since the
store was last emptied, and there are as many documents as places with a grant. A request that gets
a document leaves it at the place that its path names, and this is the first document granted there;
it is what the request brought if nothing was granted there before, and a place with a grant always
answers with it. A request that fails changes nothing, and whatever is held stays until the store is
emptied. -/
theorem Session.first_grant_stays (s : Session) (hown : s.own = .empty)
    (hnormal : s.files.workingDirectory.Normal) (ops : List StoreOperation) :
    let course := (Course.mk s []).nextAll ops
    let now := course.session
    (∀ l d, now.own.find? l = some d → d.location = l ∧ now.files.locate l.render = l) ∧
      (∀ d ∈ now.own.documents, now.own.find? d.location = some d) ∧
      (∀ l, now.own.find? l = course.granted.lookup l) ∧
      now.own.size = (course.granted.map Prod.fst).dedup.length ∧
      (∀ request d, (now.answer request).1 = .ok d →
        (now.answer request).2.own.find? (now.files.locate request.path) = some d ∧
          (course.next (.ask request)).granted.lookup (now.files.locate request.path) = some d ∧
          (course.granted.lookup (now.files.locate request.path) = none →
            ∃ root, request.value now.files = .ok root ∧
              d = ⟨now.files.locate request.path, root⟩)) ∧
      (∀ request d, course.granted.lookup (now.files.locate request.path) = some d →
        (now.answer request).1 = .ok d) ∧
      (∀ request e, (now.answer request).1 = .error e → (now.answer request).2.own = now.own) ∧
      (∀ op, op ≠ .clear → ∀ l d, now.own.find? l = some d →
        (now.operate op).own.find? l = some d) := by
  intro course now
  have hfaithful : course.Faithful := (Course.faithful_start hown hnormal).nextAll ops
  have hkey : ∀ l d, now.own.find? l = some d → d.location = l ∧ now.files.locate l.render = l := by
    intro l d hd
    have hl : d.location = l := Store.location_of_find? hd
    have hplace : l.Normal := hl ▸ hfaithful.normal d (Store.mem_of_find? hd)
    exact ⟨hl, hplace.resolve_render _⟩
  have htaken : ∀ request d, course.granted.lookup (now.files.locate request.path) = some d →
      (now.answer request).1 = .ok d := by
    intro request d hd
    exact answer_of_find? ((hfaithful.held _).trans hd)
  have hfailed : ∀ request e, (now.answer request).1 = .error e →
      (now.answer request).2.own = now.own := by
    intro request e he
    rw [answer_error he]
  exact ⟨hkey, fun d => hfaithful.find?_of_mem, hfaithful.held, hfaithful.size,
    fun request d => hfaithful.answered, htaken, hfailed, fun op hop l d => operate_keeps hop⟩

/-- A session in a directory that holds one file. -/
def oneFileSession : Session :=
  .start {} ⟨⟨["s"]⟩, [(⟨["s", "a.json"]⟩, .file "true".toUTF8)]⟩

/-- The file is loaded and then removed, a value is put at its place, another file is asked for in
vain, and the store is emptied before the value is put there again. -/
def removedFile : List StoreOperation :=
  [.ask (.load "a.json" none), .edit [], .ask (.insert "x/.././a.json" .null),
    .ask (.load "b.json" none)]

/-- The document that was loaded from the file outlives it, under every spelling of its path and
until the store is emptied. -/
theorem removedFile_first_grant :
    let held := ((Course.mk oneFileSession []).nextAll removedFile).session
    let emptied := ((Course.mk oneFileSession []).nextAll (removedFile ++ [.clear])).session
    held.own.size = 1 ∧
      (held.answer (.insert "/s//a.json" .null)).1.map (·.root.render) = .ok "true" ∧
      (emptied.answer (.insert "/s//a.json" .null)).1.map (·.root.render) = .ok "null" := by
  have hnormal : oneFileSession.files.workingDirectory.Normal := by decide
  obtain ⟨-, -, -, hsize, -, htaken, -⟩ :=
    oneFileSession.first_grant_stays rfl hnormal removedFile
  refine ⟨hsize.trans (by decide +kernel), ?_, by decide +kernel⟩
  have hgranted : (((Course.mk oneFileSession []).nextAll removedFile).granted.lookup
      ⟨["s", "a.json"]⟩).map (·.root.render) = some "true" := by decide +kernel
  obtain ⟨d, hd, hroot⟩ := Option.map_eq_some_iff.mp hgranted
  rw [htaken (.insert "/s//a.json" .null) d hd]
  exact congrArg Except.ok hroot

end LinkedSchema
