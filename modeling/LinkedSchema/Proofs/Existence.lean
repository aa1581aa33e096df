import LinkedSchema.Proofs.Batches
import Mathlib.Data.List.Induction

/-!
# Which paths exist

A path exists when the walk along its components, taken as they are written, ends at an entry.
Reading a document asks for the location of the path instead, where `..` has been taken back
together with the name in front of it. Both meet at one place, so a path exists exactly when
something stands at its location and every place that it passes on the way is a directory
(`stat_eq_ok_iff`). The text of the location passes the directories above it and no others, and
these are passed by every path to the location or lie above the place where it starts
(`passed_of_lt`).

So a document that is not found when it is loaded is missing from a batch as well. Apart from texts
that no system call takes, a batch also misses what lies below a file, and what stands at the
location of a path that leads through something which is no directory (`missing_iff`).
-/

namespace LinkedSchema

namespace FileTree

variable {files : FileTree} {components : List String} {place : Location} {path : String}

/-! ## Walks -/

/-- Every place that components pass on their way is a directory; where they end may be anything. -/
def Passable (files : FileTree) (components : List String) (place : Location) : Prop :=
  ∀ before c after, components = before ++ c :: after →
    files.find? ⟨before.foldl Location.step place.names⟩ = some .directory

/-- A way starts in a directory and goes on from where its first component leads. -/
theorem passable_cons {c : String} {rest : List String} :
    files.Passable (c :: rest) place ↔
      files.find? place = some .directory ∧ files.Passable rest ⟨Location.step place.names c⟩ := by
  constructor
  · intro h
    refine ⟨h [] c rest rfl, fun before d after hrest => ?_⟩
    exact h (c :: before) d after (by rw [hrest, List.cons_append])
  · rintro ⟨hplace, hrest⟩ before d after he
    cases before with
    | nil => exact hplace
    | cons b before =>
      obtain ⟨hc, hafter⟩ := List.cons.inj he
      rw [← hc]
      exact hrest before d after hafter

/-- Components that a system call takes. -/
def Short (components : List String) : Prop :=
  ∀ c ∈ components, c.utf8ByteSize ≤ maxNameBytes

instance (components : List String) : Decidable (Short components) :=
  inferInstanceAs (Decidable (∀ c ∈ components, c.utf8ByteSize ≤ maxNameBytes))

/-- From a directory a component leads on, unless it is too long or leads nowhere. -/
theorem walk_cons (c : String) (rest : List String) (h : files.find? place = some .directory) :
    c.utf8ByteSize ≤ maxNameBytes ∧
        files.walk (c :: rest) place = files.walk rest ⟨Location.step place.names c⟩ ∨
      maxNameBytes < c.utf8ByteSize ∧ files.walk (c :: rest) place = .error .nameTooLong ∨
      c.utf8ByteSize ≤ maxNameBytes ∧ files.find? ⟨Location.step place.names c⟩ = none ∧
        files.walk (c :: rest) place = .error .notFound := by
  rw [walk, h]
  dsimp only
  unfold Location.step
  by_cases hstay : c = "" ∨ c = "."
  · rw [if_pos hstay, if_pos hstay]
    rcases hstay with rfl | rfl <;> exact .inl ⟨by decide, rfl⟩
  rw [if_neg hstay, if_neg hstay]
  by_cases hup : c = ".."
  · rw [if_pos hup, if_pos hup, hup]
    exact .inl ⟨by decide, rfl⟩
  rw [if_neg hup, if_neg hup]
  by_cases hlong : maxNameBytes < c.utf8ByteSize
  · rw [if_pos hlong]
    exact .inr (.inl ⟨hlong, rfl⟩)
  rw [if_neg hlong]
  have hshort : c.utf8ByteSize ≤ maxNameBytes := Nat.le_of_not_lt hlong
  cases files.find? ⟨place.names ++ [c]⟩ with
  | none => exact .inr (.inr ⟨hshort, rfl, rfl⟩)
  | some _ => exact .inl ⟨hshort, rfl⟩

/-- A walk that ends has taken short components through directories to where they lead. -/
theorem of_walk_eq_ok {l : Location} (h : files.walk components place = .ok l) :
    Short components ∧ files.Passable components place ∧
      l = ⟨components.foldl Location.step place.names⟩ := by
  induction components generalizing place with
  | nil =>
    cases h
    exact ⟨fun c hc => absurd hc List.not_mem_nil, fun before c after he => by simp at he, rfl⟩
  | cons c rest ih =>
    have hplace : files.find? place = some .directory := by
      rw [walk] at h
      split at h
      · cases h
      · cases h
      · assumption
    rcases walk_cons c rest hplace with ⟨hshort, hw⟩ | ⟨-, hw⟩ | ⟨-, -, hw⟩
    · rw [hw] at h
      obtain ⟨hrest, hpass, hl⟩ := ih h
      exact ⟨List.forall_mem_cons.mpr ⟨hshort, hrest⟩, passable_cons.mpr ⟨hplace, hpass⟩, hl⟩
    · rw [hw] at h
      cases h
    · rw [hw] at h
      cases h

/-- Through directories a walk to something that exists fails only with a component that is too
long. -/
theorem walk_of_passable (h : files.Passable components place)
    (hend : files.find? ⟨components.foldl Location.step place.names⟩ ≠ none) :
    Short components ∧
        files.walk components place = .ok ⟨components.foldl Location.step place.names⟩ ∨
      files.walk components place = .error .nameTooLong := by
  induction components generalizing place with
  | nil => exact .inl ⟨fun c hc => absurd hc List.not_mem_nil, rfl⟩
  | cons c rest ih =>
    obtain ⟨hplace, hrest⟩ := passable_cons.mp h
    rcases walk_cons c rest hplace with ⟨hshort, hw⟩ | ⟨-, hw⟩ | ⟨-, hnone, -⟩
    · rw [hw]
      refine (ih hrest hend).imp_left fun ⟨hrest, hwalk⟩ => ?_
      exact ⟨List.forall_mem_cons.mpr ⟨hshort, hrest⟩, hwalk⟩
    · exact .inr hw
    · -- What the component names exists: it is a directory on the way, or the end of it.
      exfalso
      cases rest with
      | nil => exact hend hnone
      | cons d rest =>
        have hnext := (passable_cons.mp hrest).1
        rw [hnone] at hnext
        cases hnext

/-- Short components lead to a place, to nothing, or into a file. -/
theorem walk_error {reason : AccessFailure} (hshort : Short components)
    (h : files.walk components place = .error reason) :
    reason = .notFound ∨ reason = .notADirectory := by
  induction components generalizing place with
  | nil => cases h
  | cons c rest ih =>
    obtain ⟨hc, hrest⟩ := List.forall_mem_cons.mp hshort
    cases hplace : files.find? place with
    | none =>
      rw [walk, hplace] at h
      cases h
      exact .inl rfl
    | some entry =>
      cases entry with
      | file content =>
        rw [walk, hplace] at h
        cases h
        exact .inr rfl
      | directory =>
        rcases walk_cons c rest hplace with ⟨-, hw⟩ | ⟨hlong, -⟩ | ⟨-, -, hw⟩
        · rw [hw] at h
          exact ih hrest h
        · exact absurd hc (Nat.not_le_of_lt hlong)
        · rw [hw] at h
          cases h
          exact .inl rfl

/-! ## Paths -/

/-- The way along a path, as it is written, leads through directories only. -/
def Clear (files : FileTree) (path : String) : Prop :=
  files.Passable (pathComponents path) (files.start path)

/-- A path is accepted and has no component that is too long. -/
structure Sized (path : String) : Prop extends Accepted path where
  /-- No component is too long. -/
  short : Short (pathComponents path)

/-- The components of a path lead to its location. -/
theorem foldl_step_start (files : FileTree) (path : String) :
    (⟨(pathComponents path).foldl Location.step (files.start path).names⟩ : Location) =
      files.locate path := by
  unfold start locate Location.resolve
  split <;> rfl

/-- A path names what stands at its location, if the way there is clear. -/
theorem stat_eq_ok_iff {entry : Entry} :
    files.stat path = .ok entry ↔
      Sized path ∧ files.Clear path ∧ files.find? (files.locate path) = some entry := by
  constructor
  · intro h
    obtain ⟨haccepted, place, hw, hf⟩ := walk_of_stat h
    obtain ⟨hshort, hpass, hplace⟩ := of_walk_eq_ok hw
    rw [foldl_step_start] at hplace
    rw [← hplace]
    exact ⟨⟨haccepted, hshort⟩, hpass, hf⟩
  · rintro ⟨hsized, hclear, hf⟩
    have hend : files.find? ⟨(pathComponents path).foldl Location.step (files.start path).names⟩ ≠
        none := by
      rw [foldl_step_start, hf]
      exact Option.some_ne_none entry
    have hw : files.walk (pathComponents path) (files.start path) = .ok (files.locate path) := by
      rcases walk_of_passable hclear hend with ⟨-, hw⟩ | hw
      · rw [hw, foldl_step_start]
      · -- The components are short, so that the walk cannot fail in this way.
        rcases walk_error hsized.short hw with h | h <;> cases h
    rw [stat_of_accepted hsized.toAccepted, hw]
    simp only [hf]

/-- A path exists when something stands at its location and the way there is clear. -/
theorem pathExists_iff :
    files.pathExists path = true ↔
      Sized path ∧ files.Clear path ∧ ∃ entry, files.find? (files.locate path) = some entry := by
  have hstat : files.pathExists path = true ↔ ∃ entry, files.stat path = .ok entry := by
    unfold pathExists
    cases files.stat path <;> simp
  simp only [hstat, stat_eq_ok_iff, exists_and_left]

/-- On a clear way to something that exists, nothing is not found. -/
theorem stat_ne_notFound (hnonempty : path.isEmpty = false) (hclear : files.Clear path)
    {entry : Entry} (hf : files.find? (files.locate path) = some entry) :
    files.stat path ≠ .error .notFound := by
  intro h
  rcases accepted_or files path with haccepted | he | ⟨hempty, -⟩ | he
  · rw [stat_of_accepted haccepted] at h
    have hend : files.find? ⟨(pathComponents path).foldl Location.step (files.start path).names⟩ ≠
        none := by
      rw [foldl_step_start, hf]
      exact Option.some_ne_none entry
    rcases walk_of_passable hclear hend with ⟨-, hw⟩ | hw
    · rw [hw, foldl_step_start] at h
      simp only [hf] at h
      cases h
    · rw [hw] at h
      cases h
  · rw [he] at h
    cases h
  · rw [hempty] at hnonempty
    cases hnonempty
  · rw [he] at h
    cases h

/-- A path of a fitting size is not found, or leads into a file, or exists. -/
theorem stat_error {reason : AccessFailure} (hsized : Sized path)
    (h : files.stat path = .error reason) : reason = .notFound ∨ reason = .notADirectory := by
  rw [stat_of_accepted hsized.toAccepted] at h
  split at h
  · next hw =>
    cases h
    exact walk_error hsized.short hw
  · split at h
    · cases h
      exact .inl rfl
    · cases h

/-! ## The way to a location -/

/-- Above the place to which components lead, every directory is passed on the way or lies above the
place where they start. -/
theorem passed_of_lt {names above : List String}
    (h : above <+: components.foldl Location.step names)
    (hne : above ≠ components.foldl Location.step names) :
    above <+: names ∨ ∃ before c after, components = before ++ c :: after ∧
      before.foldl Location.step names = above := by
  induction components using List.reverseRecOn with
  | nil => exact .inl h
  | append_singleton components c ih =>
    rw [List.foldl_append, List.foldl_cons, List.foldl_nil] at h hne
    -- What lies above the place before the last component was passed before.
    have hbefore : above <+: components.foldl Location.step names →
        above ≠ components.foldl Location.step names → above <+: names ∨ ∃ before d after,
          components ++ [c] = before ++ d :: after ∧ before.foldl Location.step names = above := by
      intro h hne
      refine (ih h hne).imp_right fun ⟨before, d, after, he, hpassed⟩ => ?_
      exact ⟨before, d, after ++ [c], by rw [he, List.append_assoc, List.cons_append], hpassed⟩
    generalize hend : components.foldl Location.step names = place at h hne hbefore
    unfold Location.step at h hne
    split at h
    · next hstay =>
      rw [if_pos hstay] at hne
      exact hbefore h hne
    · next hstay =>
      rw [if_neg hstay] at hne
      split at h
      · next hup =>
        rw [if_pos hup] at hne
        refine hbefore (h.trans (List.dropLast_prefix place)) ?_
        rintro rfl
        -- Nothing but the root is above itself.
        have hlength := h.length_le
        rw [List.length_dropLast] at hlength
        have hnil : above = [] := List.length_eq_zero_iff.mp (by omega)
        exact hne (by rw [hnil, List.dropLast_nil])
      · next hup =>
        rw [if_neg hup] at hne
        have habove : above <+: place := (List.prefix_concat_iff.mp h).resolve_left hne
        by_cases hhere : above = place
        · exact .inr ⟨components, c, [], rfl, hend.trans hhere.symm⟩
        · exact hbefore habove hhere

/-- The directories down to the working directory are there. -/
theorem find?_of_prefix {names : List String} (h : names <+: files.workingDirectory.names) :
    files.find? ⟨names⟩ = some .directory := by
  rw [find?, if_pos (List.isPrefixOf_iff_prefix.mpr h)]

/-- The way along the text of a location is clear when there are directories all the way down. -/
theorem clear_render {l : Location} (hl : l.Normal)
    (h : ∀ above, above <+: l.names → above ≠ l.names → files.find? ⟨above⟩ = some .directory) :
    files.Clear l.render := by
  have hroot : files.find? .root = some .directory := find?_of_prefix List.nil_prefix
  rw [Clear, start, if_pos l.isAbsolutePath_render]
  rcases Location.components_render hl with hc | ⟨-, hc⟩
  · rw [hc]
    refine passable_cons.mpr ⟨hroot, fun before c after he => ?_⟩
    have hbefore : ∀ name ∈ before, IsFileName name := fun name hname =>
      hl name (by rw [he]; exact List.mem_append_left _ hname)
    rw [Location.foldl_step_names hbefore]
    refine h before ⟨c :: after, he.symm⟩ fun hself => ?_
    have hlength := congrArg List.length (hself.trans he)
    simp at hlength
  · rw [hc]
    refine passable_cons.mpr ⟨hroot, passable_cons.mpr ⟨hroot, fun before c after he => ?_⟩⟩
    simp at he

/-- Where the way along a path is clear, so is the way along the text of its location. -/
theorem Clear.render (hnormal : files.workingDirectory.Normal) (h : files.Clear path) :
    files.Clear (files.locate path).render := by
  refine clear_render (hnormal.resolve path) fun above habove hne => ?_
  have hnames : (files.locate path).names =
      (pathComponents path).foldl Location.step (files.start path).names :=
    (congrArg Location.names (files.foldl_step_start path)).symm
  rw [hnames] at habove hne
  rcases passed_of_lt habove hne with hstart | ⟨before, c, after, hc, rfl⟩
  · have hup : above <+: files.workingDirectory.names := by
      unfold start at hstart
      split at hstart
      · rw [List.prefix_nil.mp hstart]
        exact List.nil_prefix
      · exact hstart
    exact find?_of_prefix hup
  · exact h before c after hc

/-- The location of its text is the location itself. -/
theorem locate_render (hnormal : files.workingDirectory.Normal) (path : String) :
    files.locate (files.locate path).render = files.locate path :=
  (hnormal.resolve path).resolve_render _

/-! ## Loading what a path names -/

variable {referencedFrom : Option String}

/-- Reading fails where nothing can be looked up, and with directories and what is no text. -/
theorem readText_error_iff {reason : AccessFailure} (hdirectory : reason ≠ .isADirectory)
    (htext : reason ≠ .notText) :
    files.readText path = .error reason ↔ files.stat path = .error reason := by
  unfold readText
  cases files.stat path with
  | error e => simp [bind, Except.bind]
  | ok entry =>
    cases entry with
    | directory =>
      simp [bind, Except.bind, throw, throwThe, MonadExceptOf.throw, Ne.symm hdirectory]
    | file content =>
      cases htextOf : String.fromUTF8? content with
      | none =>
        simp [htextOf, bind, Except.bind, throw, throwThe, MonadExceptOf.throw, Ne.symm htext]
      | some text => simp [htextOf, bind, Except.bind, pure, Except.pure]

/-- What is said of a document whose text cannot be read. -/
def unread (l : Location) (referencedFrom : Option String) : AccessFailure → SchemaError
  | .notFound => .documentNotFound l referencedFrom
  | reason => .documentRead l reason

/-- A document cannot be read when its text cannot, and for the same reason. -/
theorem readValue_unread_iff (reason : AccessFailure) {l : Location} :
    Document.readValue files l referencedFrom = .error (unread l referencedFrom reason) ↔
      files.readText l.render = .error reason := by
  unfold Document.readValue Texts.readValue FileTree.texts
  dsimp only
  cases files.readText l.render with
  | error found => cases found <;> cases reason <;> simp [unread]
  | ok text => cases h : Document.parse l text <;> cases reason <;> simp [h, unread]

/-- A document is not found when nothing is found at the text of its location. -/
theorem readValue_notFound_iff {l : Location} :
    Document.readValue files l referencedFrom = .error (.documentNotFound l referencedFrom) ↔
      files.stat l.render = .error .notFound :=
  (readValue_unread_iff .notFound).trans (readText_error_iff (by decide) (by decide))

/-- A document lies below a file when the text of its location leads into one. -/
theorem readValue_notADirectory_iff {l : Location} :
    Document.readValue files l referencedFrom = .error (.documentRead l .notADirectory) ↔
      files.stat l.render = .error .notADirectory :=
  (readValue_unread_iff .notADirectory).trans (readText_error_iff (by decide) (by decide))

/-- What is not found when it is loaded does not exist. -/
theorem pathExists_of_notFound (hnormal : files.workingDirectory.Normal)
    (h : Document.readValue files (files.locate path) referencedFrom =
      .error (.documentNotFound (files.locate path) referencedFrom)) :
    files.pathExists path = false := by
  rw [readValue_notFound_iff] at h
  refine Bool.eq_false_iff.mpr fun hexists => ?_
  obtain ⟨-, hclear, entry, hf⟩ := pathExists_iff.mp hexists
  have hnonempty : (files.locate path).render.isEmpty = false := by
    simp [Location.render]
  have hplace : files.find? (files.locate (files.locate path).render) = some entry := by
    rw [locate_render hnormal, hf]
  exact stat_ne_notFound hnonempty (hclear.render hnormal) hplace h

/-- A path of a fitting size does not exist in three cases: when it is loaded nothing is found, or a
file is found where a directory should be, or its location exists and the way there is not clear. -/
theorem pathExists_eq_false_iff (hnormal : files.workingDirectory.Normal) (hsized : Sized path)
    (hlocation : Sized (files.locate path).render) :
    files.pathExists path = false ↔
      Document.readValue files (files.locate path) referencedFrom =
          .error (.documentNotFound (files.locate path) referencedFrom) ∨
        Document.readValue files (files.locate path) referencedFrom =
          .error (.documentRead (files.locate path) .notADirectory) ∨
        files.pathExists (files.locate path).render = true ∧ ¬files.Clear path := by
  have hplace := locate_render hnormal path
  rw [readValue_notADirectory_iff, readValue_notFound_iff]
  constructor
  · intro hmissing
    rcases hs : files.stat (files.locate path).render with reason | entry
    · rcases stat_error hlocation hs with rfl | rfl
      · exact .inl rfl
      · exact .inr (.inl rfl)
    · -- Something stands at the location, so only the way there can be at fault.
      obtain ⟨-, hclear, hf⟩ := stat_eq_ok_iff.mp hs
      refine .inr (.inr ⟨pathExists_iff.mpr ⟨hlocation, hclear, entry, hf⟩, fun hclear => ?_⟩)
      rw [hplace] at hf
      have hexists := pathExists_iff.mpr ⟨hsized, hclear, entry, hf⟩
      rw [hmissing] at hexists
      cases hexists
  · intro h
    refine Bool.eq_false_iff.mpr fun hexists => ?_
    obtain ⟨-, hclear, entry, hf⟩ := pathExists_iff.mp hexists
    have hs : files.stat (files.locate path).render = .ok entry :=
      stat_eq_ok_iff.mpr ⟨hlocation, hclear.render hnormal, by rw [hplace, hf]⟩
    rw [hs] at h
    rcases h with h | h | ⟨-, h⟩
    · cases h
    · cases h
    · exact h hclear

end FileTree

/-! ## Entries of a manifest -/

namespace ManifestEntry

variable {base : String} {e : ManifestEntry} {s : Session}

/-- What is said of an entry whose document does not exist. -/
def documentLine (e : ManifestEntry) : String :=
  (if e.optional then "Missing optional file: " else "Missing expected output: ") ++ e.title

/-- What is said of an entry whose schema does not exist. -/
def schemaLine (e : ManifestEntry) : String :=
  "Missing schema: " ++ e.schema ++ " (for " ++ e.title ++ ")"

/-- Checking an entry puts a line about something missing on record. -/
def Records (base : String) (e : ManifestEntry) (s : Session) (line : String) : Prop :=
  (checkEntry base e s).1 = .ok (.missing e.optional line)

/-- The two lines are never the same. -/
theorem documentLine_ne_schemaLine (e : ManifestEntry) : e.documentLine ≠ e.schemaLine := by
  intro h
  -- They differ in the tenth character at the latest.
  have htake := congrArg (fun line => line.toList.take 10) h
  unfold documentLine schemaLine at htake
  cases hoptional : e.optional <;> simp [hoptional, String.toList_append] at htake

/-- An entry puts on record what is missing of it, and nothing else. -/
theorem records_iff {line : String} :
    e.Records base s line ↔ e.missing? s.files base = some line := by
  have hline : ∀ found, (BatchFindings.mk (if e.optional then [found] else [])
      (if e.optional then [] else [found]) 0 = .missing e.optional line) ↔ found = line := by
    intro found
    unfold BatchFindings.missing
    cases e.optional <;> simp
  unfold Records
  cases hmissing : e.missing? s.files base with
  | some found =>
    rw [checkEntry_of_missing hmissing, Except.ok.injEq, hline, Option.some.injEq]
  | none =>
    -- The entry is validated, and then either counted or a failure.
    refine iff_of_false ?_ (by simp)
    rw [checkEntry_of_present (missing?_eq_none.mp hmissing)]
    split
    · intro h
      cases h
    · intro h
      have hchecked := congrArg BatchFindings.checked (Except.ok.inj h)
      unfold BatchFindings.missing BatchFindings.validated at hchecked
      cases hoptional : e.optional <;> simp [hoptional] at hchecked

/-- The document is put on record when its path does not exist. -/
theorem records_document_iff :
    e.Records base s e.documentLine ↔ s.files.pathExists (joinPaths base e.path) = false := by
  have hne := e.documentLine_ne_schemaLine
  rw [records_iff, missing?]
  split
  · next hdata => exact iff_of_true rfl hdata
  · next hdata =>
    refine iff_of_false ?_ hdata
    split
    · exact fun h => hne (Option.some.inj h).symm
    · exact fun h => by cases h

/-- The schema is put on record when the document exists and the path of the schema does not. -/
theorem records_schema_iff :
    e.Records base s e.schemaLine ↔ s.files.pathExists (joinPaths base e.path) = true ∧
      s.files.pathExists (joinPaths base e.schema) = false := by
  have hne := e.documentLine_ne_schemaLine
  rw [records_iff, missing?]
  split
  · next hdata =>
    refine iff_of_false (fun h => hne (Option.some.inj h)) ?_
    rw [hdata]
    exact fun h => Bool.false_ne_true h.1
  · next hdata =>
    rw [Bool.not_eq_false] at hdata
    split
    · next hschema => exact iff_of_true rfl ⟨hdata, hschema⟩
    · next hschema => exact iff_of_false (fun h => by cases h) fun h => hschema h.2

end ManifestEntry

/-- A batch puts the document of an entry on record as missing when its path does not exist, and the
schema when the document is there and the path of the schema does not exist. Whatever is not found
when it is loaded from its location does not exist. The other way round, a path of a fitting size
that does not exist is not found when it is loaded, or it leads below a file, or its location exists
and the path leads there through something that is no directory. -/
theorem missing_iff (base : String) (e : ManifestEntry) (s : Session)
    (hnormal : s.files.workingDirectory.Normal) :
    let load path := Document.readValue s.files (s.files.locate path) none
    let notFound path := load path = .error (.documentNotFound (s.files.locate path) none)
    (e.Records base s e.documentLine ↔ s.files.pathExists (joinPaths base e.path) = false) ∧
      (e.Records base s e.schemaLine ↔ s.files.pathExists (joinPaths base e.path) = true ∧
        s.files.pathExists (joinPaths base e.schema) = false) ∧
      (∀ path, notFound path → s.files.pathExists path = false) ∧
      ∀ path, FileTree.Sized path → FileTree.Sized (s.files.locate path).render →
        (s.files.pathExists path = false ↔
          notFound path ∨ load path = .error (.documentRead (s.files.locate path) .notADirectory) ∨
            s.files.pathExists (s.files.locate path).render = true ∧ ¬s.files.Clear path) := by
  intro load notFound
  exact ⟨ManifestEntry.records_document_iff, ManifestEntry.records_schema_iff,
    fun _ => FileTree.pathExists_of_notFound hnormal,
    fun _ => FileTree.pathExists_eq_false_iff hnormal⟩

/-- A number and a schema that accepts everything. -/
def detourBatch : FileTree :=
  batchFiles "entries:\n- path: nodir/../d\n  schema: s\n" [("d", "5"), ("s", "\x7b\x7d")]

/-- The entry that names the number by way of a directory that does not exist. -/
def detourEntry : ManifestEntry := ⟨"nodir/../d", "s", none, false⟩

/-- The session in which a batch of these files starts. -/
def detourSession : Session :=
  .start { engine := .structural, shareCache := true } detourBatch

/-- The number exists at its location, and the way there is not clear. -/
theorem detour_not_clear :
    detourEntry.Records "" detourSession detourEntry.documentLine ∧
      detourBatch.pathExists "/w/d" = true ∧ ¬detourBatch.Clear "nodir/../d" := by
  obtain ⟨hdocument, -, -, hpath⟩ :=
    missing_iff "" detourEntry detourSession (normal_batchFiles _ _)
  have hmissing : detourSession.files.pathExists "nodir/../d" = false := by decide +kernel
  have hsized : FileTree.Sized "nodir/../d" :=
    ⟨⟨by decide +kernel, by decide +kernel, by decide +kernel⟩, by decide +kernel⟩
  have hlocation : FileTree.Sized (detourSession.files.locate "nodir/../d").render :=
    ⟨⟨by decide +kernel, by decide +kernel, by decide +kernel⟩, by decide +kernel⟩
  have hload : (Document.readValue detourBatch ⟨["w", "d"]⟩ none).map Json.render = .ok "5" := by
    decide +kernel
  refine ⟨hdocument.mpr hmissing, ?_⟩
  rcases (hpath _ hsized hlocation).mp hmissing with h | h | h
  · rw [show Document.readValue detourBatch ⟨["w", "d"]⟩ none = _ from h] at hload
    cases hload
  · rw [show Document.readValue detourBatch ⟨["w", "d"]⟩ none = _ from h] at hload
    cases hload
  · exact h

/-- The batch says that the number is missing, which validation by itself reads and accepts. -/
theorem detour_missing :
    detourEntry.Records "" detourSession detourEntry.documentLine ∧
      (Document.readValue detourBatch (detourBatch.locate "nodir/../d") none).map Json.render =
        .ok "5" ∧
      runBatch detourBatch { engine := .structural } "m" =
        .ok ⟨1, "Validation failed:\n- Missing expected output: nodir/../d\n"⟩ ∧
      detourEntry.alone detourBatch { engine := .structural } "" = .ok [] := by
  refine ⟨?_, ?_, ?_, ?_⟩
  · unfold ManifestEntry.Records
    decide +kernel
  · decide +kernel
  · decide +kernel
  · decide +kernel

end LinkedSchema
