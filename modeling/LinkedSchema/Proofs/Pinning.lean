import LinkedSchema.Proofs.Mirrors

/-!
# A kept store pins what it loads

A validator that keeps its store answers as one that has a fresh store for every validation, on
files in which each schema that was loaded since the last reset still holds the text it had then.
`Pinned` files are such files: the files as they are, and the texts of the locations that were
loaded. A validation of pinned files runs on a fresh store and pins what it loads, also when it
fails; a reset unpins everything.

What the kept store holds is pinned, and nothing else (`Pins`). So it mirrors the fresh store with
which a validation of the pinned files starts, and by `Config.validateAt_tracks` it mirrors the store
with which this validation ends. Each operation on a session is an operation on pinned files with
the same answer (`Follows.perform`), and a run of a session is a run of pinned files.
-/

namespace LinkedSchema

open Loading

/-! ## Operations -/

/-- What happens to a session of one validator and to the files that it reads. -/
inductive Operation where
  /-- A file is written. -/
  | write (path : String) (content : ByteArray)
  /-- A directory is made. -/
  | makeDirectory (path : String)
  /-- A file or a directory is removed. -/
  | remove (path : String)
  /-- A file is validated against a schema. -/
  | validateFile (schema data : String)
  /-- An instance is validated against a schema. -/
  | validateValue (schema : String) (v : Json)
  /-- The store of the validator is emptied. -/
  | reset

/-- Whether an operation may change the files. -/
def Operation.changesFiles : Operation → Bool
  | write .. | makeDirectory .. | remove .. => true
  | validateFile .. | validateValue .. | reset => false

/-- What a validation answers: a report or an error. -/
abbrev Answer := Except SchemaError Report

namespace Session

/-- The answer of an operation, if it is a validation, and the session after it. -/
def perform (s : Session) : Operation → Option Answer × Session
  | .write path content => (none, s.write path content)
  | .makeDirectory path => (none, s.makeDirectory path)
  | .remove path => (none, s.remove path)
  | .validateFile schema data => (s.validateFile schema data).map some id
  | .validateValue schema v => (s.validateValue schema v).map some id
  | .reset => (none, s.reset)

/-- The session after several operations. -/
def performAll (s : Session) (ops : List Operation) : Session :=
  ops.foldl (fun s op => (s.perform op).2) s

/-- The session whose validator has a fresh store for every validation. -/
def unshared (s : Session) : Session := { s with validator := ⟨s.validator.config, .fresh⟩ }

end Session

/-- Files, and texts that locations keep whatever happens to the files. -/
structure Pinned where
  /-- The files as they are. -/
  files : FileTree
  /-- The texts that are pinned to locations. -/
  pins : List (Location × String)

namespace Pinned

/-- The pinned texts, and those of the files at all other locations. -/
def texts (p : Pinned) : Texts where
  read l := match p.pins.lookup l with
    | some text => .ok text
    | none => p.files.texts.read l
  places := p.pins.map Prod.fst ++ p.files.texts.places

/-- The text at every location of a store is pinned. -/
def pin (p : Pinned) (loaded : Store) : Pinned :=
  { p with pins := p.pins ++ loaded.documents.filterMap fun d =>
      (p.texts.read d.location).toOption.map fun text => (d.location, text) }

/-- Validates on a fresh store, and pins what was loaded. -/
def validate (config : Config) (p : Pinned) (schema : String) (v : Except SchemaError Json) :
    Answer × Pinned :=
  let (answer, loaded) := (config.validateAt p.texts (p.files.locate schema) v).runOn .empty
  (answer, p.pin loaded)

/-- The answer of an operation, if it is a validation, and the pinned files after it. Data are read
from the files as they are. -/
def perform (config : Config) (p : Pinned) : Operation → Option Answer × Pinned
  | .write path content =>
    (none, { p with files := p.files.write (p.files.locate path) content })
  | .makeDirectory path => (none, { p with files := p.files.makeDirectory (p.files.locate path) })
  | .remove path => (none, { p with files := p.files.remove (p.files.locate path) })
  | .validateFile schema data =>
    (p.validate config schema (Document.readValue p.files (p.files.locate data) none)).map some id
  | .validateValue schema v => (p.validate config schema (.ok v)).map some id
  | .reset => (none, { p with pins := [] })

/-- The pinned files after several operations. -/
def performAll (config : Config) (p : Pinned) (ops : List Operation) : Pinned :=
  ops.foldl (fun p op => (p.perform config op).2) p

/-! ## Reading pinned files -/

variable {p : Pinned} {l : Location} {text : String} {store : Store}

/-- A pinned text is read. -/
theorem read_of_lookup (h : p.pins.lookup l = some text) : p.texts.read l = .ok text := by
  simp only [texts, h]

/-- Where nothing is pinned, the files are read. -/
theorem read_of_lookup_none (h : p.pins.lookup l = none) : p.texts.read l = p.files.texts.read l := by
  simp only [texts, h]

/-- Whatever can be read of pinned files is listed. -/
theorem listed (p : Pinned) : p.texts.Listed := by
  intro l text hl h
  cases hp : p.pins.lookup l with
  | none =>
    rw [read_of_lookup_none hp] at h
    exact List.mem_append_right _ (p.files.listed l text hl h)
  | some pinned =>
    obtain ⟨before, after, he, -⟩ := List.lookup_eq_some_iff.mp hp
    refine List.mem_append_left _ (List.mem_map.mpr ⟨(l, pinned), ?_, rfl⟩)
    rw [he]
    exact List.mem_append_right _ List.mem_cons_self

/-- The texts of documents by their locations. -/
theorem lookup_filterMap (f : Location → Option String) (documents : List Document)
    (l : Location) :
    (documents.filterMap fun d => (f d.location).map fun text => (d.location, text)).lookup l =
      (Store.find? ⟨documents⟩ l).bind fun _ => f l := by
  induction documents with
  | nil => rfl
  | cons d rest ih =>
    unfold Store.find? at ih ⊢
    rw [List.filterMap_cons, List.find?_cons]
    by_cases hl : d.location = l
    · subst hl
      -- The first document of the location decides, since the text depends on the location alone.
      cases hf : f d.location with
      | none =>
        simp only [Option.map_none, decide_true, Option.bind_some]
        rw [ih, hf]
        cases rest.find? (·.location = d.location) <;> rfl
      | some text => simp
    · have hne : (l == d.location) = false := by simpa using Ne.symm hl
      cases hf : f d.location with
      | none => simpa [hl] using ih
      | some text => simpa [hl, List.lookup_cons, hne] using ih

/-- What is pinned after loading: what was pinned, and the texts at the locations that were
loaded. -/
theorem lookup_pin (p : Pinned) (store : Store) (l : Location) :
    (p.pin store).pins.lookup l =
      (p.pins.lookup l).or ((store.find? l).bind fun _ => (p.texts.read l).toOption) := by
  rw [pin, List.lookup_append]
  exact congrArg ((p.pins.lookup l).or ·)
    (lookup_filterMap (fun l => (p.texts.read l).toOption) store.documents l)

/-- Pinning changes nothing of what is read. -/
theorem read_pin (p : Pinned) (store : Store) (l : Location) :
    (p.pin store).texts.read l = p.texts.read l := by
  have hlookup := lookup_pin p store l
  -- A text that is pinned newly is the one that was read before.
  cases hp : p.pins.lookup l with
  | some text =>
    rw [hp, Option.some_or] at hlookup
    rw [read_of_lookup hlookup, read_of_lookup hp]
  | none =>
    rw [hp, Option.none_or] at hlookup
    cases hl : (p.pin store).pins.lookup l with
    | none => rw [read_of_lookup_none hl, read_of_lookup_none hp, pin]
    | some text =>
      rw [hl] at hlookup
      obtain ⟨-, -, htext⟩ := Option.bind_eq_some_iff.mp hlookup.symm
      rw [read_of_lookup hl]
      cases hread : p.texts.read l with
      | error e => rw [hread] at htext; cases htext
      | ok found =>
        rw [hread] at htext
        cases htext
        rfl

/-! ## What a kept store holds -/

/-- What a store holds is read from pinned texts, and nothing else is pinned. -/
structure Pins (p : Pinned) (store : Store) : Prop where
  /-- What is not held is not pinned. -/
  absent : ∀ {l}, store.find? l = none → p.pins.lookup l = none
  /-- What is held is the value of a pinned text. -/
  held : ∀ {l d}, store.find? l = some d →
    ∃ text, p.pins.lookup l = some text ∧ Document.parse l text = .ok d.root

/-- Nothing is pinned by the empty store. -/
theorem pins_empty (files : FileTree) : Pins ⟨files, []⟩ .empty where
  absent _ := rfl
  held h := by cases h

/-- A location is held exactly when it is pinned. -/
theorem Pins.held_iff (h : p.Pins store) (l : Location) :
    (∃ d, store.find? l = some d) ↔ ∃ text, p.pins.lookup l = some text := by
  constructor
  · rintro ⟨d, hd⟩
    obtain ⟨text, htext, -⟩ := h.held hd
    exact ⟨text, htext⟩
  · rintro ⟨text, htext⟩
    cases hd : store.find? l with
    | some d => exact ⟨d, rfl⟩
    | none =>
      rw [h.absent hd] at htext
      cases htext

/-- A kept store mirrors the fresh one with which a validation of the pinned files starts. -/
theorem Pins.mirrors (h : p.Pins store) :
    store.Mirrors p.files.texts p.texts (fun l => (p.pins.lookup l).isSome = true) .empty where
  absent hl := by
    refine ⟨rfl, ?_, read_of_lookup_none (h.absent hl)⟩
    rw [h.absent hl]
    exact Bool.false_ne_true
  held hl := by
    obtain ⟨text, hpin, hparse⟩ := h.held hl
    refine ⟨Texts.readValue_eq_ok.mpr ⟨text, read_of_lookup hpin, hparse⟩, .inl ?_⟩
    rw [hpin]
    rfl
  follows hl := by cases hl

/-- What the store holds that mirrors the store of a validation is pinned after it. -/
theorem Pins.of_mirrors {loaded : Store}
    (h : store.Mirrors p.files.texts p.texts (fun l => (p.pins.lookup l).isSome = true) loaded) :
    (p.pin loaded).Pins store where
  absent {l} hl := by
    obtain ⟨hloaded, hkept, -⟩ := h.absent hl
    rw [lookup_pin, hloaded, Option.not_isSome_iff_eq_none.mp hkept]
    rfl
  held {l d} hl := by
    obtain ⟨hvalue, hwhere⟩ := h.held hl
    obtain ⟨text, hread, hparse⟩ := Texts.readValue_eq_ok.mp hvalue
    refine ⟨text, ?_, hparse⟩
    rw [lookup_pin]
    cases hp : p.pins.lookup l with
    | some pinned =>
      rw [read_of_lookup hp] at hread
      cases hread
      rfl
    | none =>
      -- It was not kept, so the validation has loaded it.
      have hloaded : loaded.find? l = some d := by
        refine hwhere.resolve_left fun hkept => ?_
        rw [hp] at hkept
        cases hkept
      rw [hloaded, hread]
      rfl

end Pinned

/-! ## Sessions and pinned files -/

namespace Session

variable {s : Session} {p : Pinned} {store store' : Store}

/-- A validator that shares a store gets another one. -/
theorem shared_withShared (h : s.shared? = some store) (store' : Store) :
    (s.withShared store').shared? = some store' := by
  unfold shared? at h
  unfold withShared
  cases hu : s.validator.storeUse with
  | fresh =>
    rw [hu] at h
    cases h
  | kept => rfl
  | lent => simp only [shared?, hu]

/-- Another store changes neither the files nor the configuration. -/
theorem withShared_keeps (s : Session) (store : Store) :
    (s.withShared store).files = s.files ∧
      (s.withShared store).validator.config = s.validator.config := by
  unfold withShared
  split <;> exact ⟨rfl, rfl⟩

/-- A validator with fresh stores runs a computation on an empty one. -/
theorem run_unshared {α : Type} (s : Session) (x : Loading α) :
    (s.unshared.run x).1 = x.outcome .empty := rfl

/-- A session shares a store that holds what is pinned to its files. -/
structure Follows (s : Session) (config : Config) (p : Pinned) : Prop where
  /-- The configuration. -/
  config : s.validator.config = config
  /-- The files. -/
  files : s.files = p.files
  /-- The store. -/
  shared : ∃ store, s.shared? = some store ∧ p.Pins store
  /-- The paths of the session start in a normal directory. -/
  normal : p.files.workingDirectory.Normal

variable {config : Config}

/-- A validation gives the same answer as one of the pinned files, and what it loads is pinned. -/
theorem Follows.validate (h : s.Follows config p) (schema : String) (v : Except SchemaError Json) :
    (s.run (config.validateAt s.files (s.files.locate schema) v)).1 =
        (p.validate config schema v).1 ∧
      (s.run (config.validateAt s.files (s.files.locate schema) v)).2.Follows config
        (p.validate config schema v).2 := by
  obtain ⟨store, hshared, hpins⟩ := h.shared
  have hlocate : (p.files.locate schema).Normal := h.normal.resolve schema
  -- The kept store and the fresh one are run side by side.
  have htracks := config.validateAt_tracks
    (loadsAlike_mirrors p.files.texts p.texts fun l => (p.pins.lookup l).isSome = true)
    p.files.listed p.listed hlocate v
  rcases htracks hpins.mirrors with ⟨e, he, -⟩ | ⟨hsame, hmirrors⟩
  · exact he.elim
  have hrun : s.run (config.validateAt s.files (s.files.locate schema) v) =
      ((config.validateAt p.files.texts (p.files.locate schema) v).outcome store,
        s.withShared ((config.validateAt p.files.texts (p.files.locate schema) v).after store)) := by
    rw [run, hshared, h.files]
    rfl
  obtain ⟨hfiles, hconfig⟩ := s.withShared_keeps
    ((config.validateAt p.files.texts (p.files.locate schema) v).after store)
  -- What the kept store has got is what the fresh one has loaded, so it is pinned now.
  rw [hrun]
  refine ⟨hsame.symm, hconfig.trans h.config, hfiles.trans h.files, ?_, h.normal⟩
  exact ⟨_, shared_withShared hshared _, .of_mirrors hmirrors⟩

/-- Files that are changed in the same way stay followed. -/
theorem Follows.change (h : s.Follows config p) {files : FileTree}
    (hdirectory : files.workingDirectory = p.files.workingDirectory) :
    ({ s with files := files } : Session).Follows config { p with files := files } where
  config := h.config
  files := rfl
  shared := by
    obtain ⟨store, hshared, hpins⟩ := h.shared
    exact ⟨store, hshared, hpins.absent, hpins.held⟩
  normal := by
    rw [hdirectory]
    exact h.normal

/-- An operation on a session is one on the pinned files that it follows. -/
theorem Follows.perform (h : s.Follows config p) (op : Operation) :
    (s.perform op).1 = (p.perform config op).1 ∧
      (s.perform op).2.Follows config (p.perform config op).2 := by
  cases op with
  | write path content =>
    refine ⟨rfl, ?_⟩
    rw [Session.perform, Session.write, h.files]
    exact h.change (by simp)
  | makeDirectory path =>
    refine ⟨rfl, ?_⟩
    rw [Session.perform, Session.makeDirectory, h.files]
    exact h.change (by simp)
  | remove path =>
    refine ⟨rfl, ?_⟩
    rw [Session.perform, Session.remove, h.files]
    exact h.change (by simp)
  | validateFile schema data =>
    have hsession : s.validateFile schema data = s.run (config.validateAt s.files
        (s.files.locate schema) (Document.readValue p.files (p.files.locate data) none)) := by
      rw [Session.validateFile, Config.validateFile, h.config, h.files]
    obtain ⟨hanswer, hfollows⟩ :=
      h.validate schema (Document.readValue p.files (p.files.locate data) none)
    rw [← hsession] at hanswer hfollows
    exact ⟨congrArg some hanswer, hfollows⟩
  | validateValue schema v =>
    have hsession : s.validateValue schema v =
        s.run (config.validateAt s.files (s.files.locate schema) (.ok v)) := by
      rw [Session.validateValue, Config.validateValue, h.config]
    obtain ⟨hanswer, hfollows⟩ := h.validate schema (.ok v)
    rw [← hsession] at hanswer hfollows
    exact ⟨congrArg some hanswer, hfollows⟩
  | reset =>
    refine ⟨rfl, ?_⟩
    obtain ⟨store, hshared, -⟩ := h.shared
    obtain ⟨hfiles, hconfig⟩ := s.withShared_keeps .empty
    refine ⟨hconfig.trans h.config, hfiles.trans h.files, ?_, h.normal⟩
    exact ⟨_, shared_withShared hshared _, Pinned.pins_empty _⟩

/-- A run of a session follows the run of the pinned files. -/
theorem Follows.performAll (h : s.Follows config p) (ops : List Operation) :
    (s.performAll ops).Follows config (p.performAll config ops) := by
  induction ops generalizing s p with
  | nil => exact h
  | cons op rest ih => exact ih (h.perform op).2

/-- A session that shares an empty store follows its files, with nothing pinned. -/
theorem follows_start (hshared : s.shared? = some .empty)
    (hnormal : s.files.workingDirectory.Normal) :
    s.Follows s.validator.config ⟨s.files, []⟩ :=
  ⟨rfl, rfl, ⟨.empty, hshared, Pinned.pins_empty _⟩, hnormal⟩

end Session

/-! ## Files that hold what is pinned -/

/-- Validation on a fresh store depends on what is read, and on nothing else of the texts. -/
theorem Config.validateAt_congr (config : Config) {files files' : Texts} (hlisted : files.Listed)
    (hlisted' : files'.Listed) (hread : ∀ l, files'.read l = files.read l) {schema : Location}
    (hnormal : schema.Normal) (v : Except SchemaError Json) :
    (config.validateAt files' schema v).outcome .empty =
      (config.validateAt files schema v).outcome .empty := by
  have hempty : Store.Mirrors files files' (fun _ => False) .empty .empty := by
    refine ⟨fun {l} _ => ⟨rfl, id, hread l⟩, ?_, fun h => h⟩
    intro l d h
    cases h
  rcases config.validateAt_tracks (loadsAlike_mirrors files files' _) hlisted hlisted' hnormal v
    hempty with ⟨e, he, -⟩ | ⟨hsame, -⟩
  · exact he.elim
  · exact hsame

/-- As long as no operation changes the files, pinned files read like the files. -/
theorem Pinned.read_performAll {config : Config} {ops : List Operation}
    (hops : ∀ op ∈ ops, op.changesFiles = false) {p : Pinned}
    (hread : ∀ l, p.texts.read l = p.files.texts.read l) :
    (p.performAll config ops).files = p.files ∧
      ∀ l, (p.performAll config ops).texts.read l = p.files.texts.read l := by
  induction ops generalizing p with
  | nil => exact ⟨rfl, hread⟩
  | cons op rest ih =>
    obtain ⟨hop, hrest⟩ := List.forall_mem_cons.mp hops
    -- One operation leaves the files, and what it pins is read as before.
    have hstep : (p.perform config op).2.files = p.files ∧
        ∀ l, (p.perform config op).2.texts.read l = p.files.texts.read l := by
      cases op with
      | write => cases hop
      | makeDirectory => cases hop
      | remove => cases hop
      | validateFile => exact ⟨rfl, fun l => (p.read_pin _ l).trans (hread l)⟩
      | validateValue => exact ⟨rfl, fun l => (p.read_pin _ l).trans (hread l)⟩
      | reset => exact ⟨rfl, fun _ => rfl⟩
    obtain ⟨hfiles, hread'⟩ := hstep
    rw [← hfiles]
    refine ih hrest fun l => ?_
    rw [hread', hfiles]

/-- Pinned files of which validations answer as on fresh stores and the files of a session answer all
operations as the session does whose validator has fresh stores. -/
theorem Pinned.perform_unshared {s : Session} {p : Pinned} (hfiles : p.files = s.files)
    (h : ∀ schema v, (p.validate s.validator.config schema v).1 =
      (s.validator.config.validateAt s.files (s.files.locate schema) v).outcome .empty)
    (op : Operation) : (p.perform s.validator.config op).1 = (s.unshared.perform op).1 := by
  cases op with
  | write => rfl
  | makeDirectory => rfl
  | remove => rfl
  | validateFile schema data =>
    rw [perform, Session.perform, Prod.map_fst, Prod.map_fst, hfiles, h, Session.validateFile,
      Session.run_unshared]
    rfl
  | validateValue schema v =>
    rw [perform, Session.perform, Prod.map_fst, Prod.map_fst, h, Session.validateValue,
      Session.run_unshared]
    rfl
  | reset => rfl

/-- Whatever happened to a session that shares a store which was empty at first, the next validation
answers as one on a fresh store and on the pinned files: on the texts that the schemas loaded since
the last reset had when they were loaded, and on the files as they are. What is held is what is
pinned. All files that read like the pinned ones lead to the same answers; so, as long as no file
was changed, a validator with a fresh store for every validation gives them too. -/
theorem Session.answer_shared (s : Session) (hshared : s.shared? = some .empty)
    (hnormal : s.files.workingDirectory.Normal) (ops : List Operation) (op : Operation) :
    let config := s.validator.config
    let now := s.performAll ops
    let pinned := (Pinned.mk s.files []).performAll config ops
    (now.perform op).1 = (pinned.perform config op).1 ∧
      now.files = pinned.files ∧
      (∃ store, now.shared? = some store ∧
        ∀ l, (∃ d, store.find? l = some d) ↔ ∃ text, pinned.pins.lookup l = some text) ∧
      (∀ tree : FileTree, (∀ l, tree.texts.read l = pinned.texts.read l) → ∀ schema v,
        (pinned.validate config schema v).1 =
          (config.validateAt tree (pinned.files.locate schema) v).outcome .empty) ∧
      ((∀ o ∈ ops, o.changesFiles = false) →
        (now.perform op).1 = (s.unshared.perform op).1) := by
  intro config now pinned
  have hfollows : now.Follows config pinned := (follows_start hshared hnormal).performAll ops
  obtain ⟨store, hstore, hpins⟩ := hfollows.shared
  have hanswer : (now.perform op).1 = (pinned.perform config op).1 := (hfollows.perform op).1
  have htree : ∀ tree : FileTree, (∀ l, tree.texts.read l = pinned.texts.read l) → ∀ schema v,
      (pinned.validate config schema v).1 =
        (config.validateAt tree (pinned.files.locate schema) v).outcome .empty := by
    intro tree hread schema v
    exact config.validateAt_congr tree.listed pinned.listed (fun l => (hread l).symm)
      (hfollows.normal.resolve schema) v
  refine ⟨hanswer, hfollows.files, ⟨store, hstore, hpins.held_iff⟩, htree, fun hops => ?_⟩
  -- The files have stayed, so that they read like the pinned ones.
  obtain ⟨hfiles, hread⟩ : pinned.files = s.files ∧ ∀ l, pinned.texts.read l = s.files.texts.read l :=
    Pinned.read_performAll hops fun _ => rfl
  have hvalidate : ∀ schema v, (pinned.validate config schema v).1 =
      (config.validateAt s.files (s.files.locate schema) v).outcome .empty := by
    intro schema v
    rw [htree s.files (fun l => (hread l).symm), hfiles]
  rw [hanswer]
  exact Pinned.perform_unshared hfiles hvalidate op

/-- A session that shares its store, in an empty directory. -/
def sharingSession : Session :=
  .start { engine := .structural, shareCache := true } (.empty ⟨["s"]⟩)

/-- A schema that asks for a type. -/
def typeSchema (type : String) : ByteArray := ("\x7b\"type\":\"" ++ type ++ "\"\x7d").toUTF8

/-- A schema for null is loaded and then becomes one for strings. -/
def editedSchema : List Operation :=
  [.write "t.json" (typeSchema "null"), .validateValue "t.json" .null,
    .write "t.json" (typeSchema "string")]

/-- Null stays valid after the schema was edited, and is refused after a reset. -/
theorem editedSchema_answers :
    ((sharingSession.performAll editedSchema).perform (.validateValue "t.json" .null)).1 =
      some (.ok []) ∧
    ((sharingSession.performAll (editedSchema ++ [.reset])).perform
        (.validateValue "t.json" .null)).1 =
      some (.ok [⟨.root, .type, "expected type string"⟩]) := by
  have hnormal : sharingSession.files.workingDirectory.Normal := by
    intro name hname
    rw [List.mem_singleton.mp hname]
    exact ⟨by decide, by decide, by decide, by decide⟩
  have hedited := sharingSession.answer_shared rfl hnormal editedSchema
    (.validateValue "t.json" .null)
  have hreset := sharingSession.answer_shared rfl hnormal (editedSchema ++ [.reset])
    (.validateValue "t.json" .null)
  exact ⟨hedited.1.trans (by decide +kernel), hreset.1.trans (by decide +kernel)⟩

end LinkedSchema
