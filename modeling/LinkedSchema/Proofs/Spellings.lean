import LinkedSchema.Proofs.Comparison

/-!
# Spellings of a place

A document is identified by its location, so what matters of a path is where it leads. Reading a
joined path is reading its second part from where the first one leads
(`Location.resolve_joinPaths`), whatever dots, slashes and steps above the root stand in either
part. Hence the first part may be replaced by the text of its location, and a reference that names
a file is fixed by its pointer and by the location of its file: all spellings of it come to the
same outcome (`resolveReference_spelling`).
-/

namespace LinkedSchema

open Loading

/-! ## Joined paths -/

namespace Location

/-- An absolute path leads to the same place from everywhere. -/
theorem resolve_of_absolute {path : String} (h : isAbsolutePath path = true)
    (directory other : Location) : directory.resolve path = other.resolve path := by
  unfold resolve
  rw [if_pos h, if_pos h]

/-- A relative path goes on from its directory. -/
theorem resolve_of_relative {path : String} (h : isAbsolutePath path = false)
    (directory : Location) :
    directory.resolve path = ⟨(pathComponents path).foldl step directory.names⟩ := by
  unfold resolve
  rw [h, if_neg Bool.false_ne_true]

/-- The empty path leads nowhere else. -/
theorem resolve_empty (directory : Location) : directory.resolve "" = directory := rfl

/-- What follows a slash is taken from where the part in front of it has led. -/
theorem foldl_components_slash (before after : String) (start : List String) :
    (pathComponents (before ++ "/" ++ after)).foldl step start =
      (pathComponents after).foldl step ((pathComponents before).foldl step start) := by
  unfold pathComponents
  rw [Text.split_append, List.foldl_append]

/-- A slash at the end of a path leads nowhere else. -/
theorem foldl_components_trailing (before : String) (start : List String) :
    (pathComponents (before ++ "/")).foldl step start =
      (pathComponents before).foldl step start := by
  have h := foldl_components_slash before "" start
  rwa [String.append_empty] at h

/-- Only the start of a path says whether it is absolute. -/
theorem isAbsolutePath_append {before : String} (h : before ≠ "") (after : String) :
    isAbsolutePath (before ++ after) = isAbsolutePath before := by
  obtain ⟨c, cs, hc⟩ := List.exists_cons_of_ne_nil fun he => h (String.toList_eq_nil_iff.mp he)
  unfold isAbsolutePath
  rw [String.toList_append, hc]
  rfl

/-- A relative path is joined to an empty one as it is, and to any other one by a single slash,
which may be the last character of that path. -/
theorem joinPaths_cases (first : String) {second : String}
    (h : isAbsolutePath second = false) :
    first = "" ∧ joinPaths first second = second ∨
      first ≠ "" ∧ ∃ before, (first = before ∨ first = before ++ "/") ∧
        joinPaths first second = before ++ "/" ++ second := by
  unfold joinPaths
  rw [h, if_neg Bool.false_ne_true]
  by_cases hempty : first = ""
  · subst hempty
    exact .inl ⟨rfl, String.empty_append⟩
  refine .inr ⟨hempty, ?_⟩
  have hnil : first.toList.isEmpty = false := by simpa [String.toList_eq_nil_iff] using hempty
  by_cases hlast : first.toList.getLast? = some '/'
  · obtain ⟨cs, hcs⟩ := List.getLast?_eq_some_iff.mp hlast
    have hfirst : first = String.ofList cs ++ "/" := by
      apply String.toList_inj.mp
      rw [String.toList_append, String.toList_ofList, hcs]
      rfl
    refine ⟨String.ofList cs, .inr hfirst, ?_⟩
    rw [if_pos (by simp [hlast]), hfirst]
  · exact ⟨first, .inl rfl, if_neg (by simp [hnil, hlast])⟩

/-- Reading a joined path is reading its second part from where its first part leads. -/
theorem resolve_joinPaths (directory : Location) (first second : String) :
    directory.resolve (joinPaths first second) = (directory.resolve first).resolve second := by
  cases h : isAbsolutePath second with
  | true =>
    have hjoin : joinPaths first second = second := if_pos h
    rw [hjoin]
    exact resolve_of_absolute h _ _
  | false =>
    rw [resolve_of_relative h]
    obtain ⟨rfl, hjoin⟩ | ⟨hne, before, hfirst, hjoin⟩ := joinPaths_cases first h
    · rw [hjoin, resolve_empty, resolve_of_relative h]
    · -- The slash is in the first part already, or it adds nothing there.
      have hstart : isAbsolutePath (before ++ "/" ++ second) = isAbsolutePath first := by
        rcases hfirst with rfl | rfl
        · rw [String.append_assoc]
          exact isAbsolutePath_append hne _
        · exact isAbsolutePath_append hne _
      have hnames : ∀ start : List String, (pathComponents first).foldl step start =
          (pathComponents before).foldl step start := by
        intro start
        rcases hfirst with rfl | rfl
        · rfl
        · exact foldl_components_trailing before start
      unfold resolve
      rw [hjoin, hstart]
      dsimp only
      rw [foldl_components_slash, hnames]

/-- The text of a normal location, joined with a path, is read as the path from there. -/
theorem Normal.resolve_joinPaths_render {l : Location} (h : l.Normal) (directory : Location)
    (path : String) : directory.resolve (joinPaths l.render path) = l.resolve path := by
  rw [resolve_joinPaths, h.resolve_render]

end Location

/-! ## References to one file -/

variable {files : Texts} {s : Store} {context : Context} {reference reference' : String}

/-- Two failures are of one kind. -/
def SameKind (e e' : SchemaError) : Prop := e.kind = e'.kind

/-- A reference with a file part does not start with a hash. -/
theorem head?_ne_of_filePart (h : filePart reference ≠ "") :
    reference.toList.head? ≠ some '#' := by
  intro hhash
  obtain ⟨rest, hrest⟩ : ∃ rest, reference.toList = '#' :: rest := by
    cases hl : reference.toList with
    | nil => rw [hl] at hhash; cases hhash
    | cons c rest =>
      rw [hl, List.head?_cons, Option.some.injEq] at hhash
      exact ⟨rest, by rw [hhash]⟩
  apply h
  unfold filePart Text.cutBefore
  rw [hrest]
  rfl

/-- What is read at a location is the same whoever asks, and so is the kind of failure. -/
theorem Texts.readValue_askers (files : Texts) (l : Location) (q r : Option String) :
    Agree SameKind Eq (files.readValue l q) (files.readValue l r) := by
  unfold Texts.readValue
  cases files.read l with
  | error reason => cases reason <;> exact .error rfl
  | ok text =>
    cases hparse : Document.parse l text with
    | error reason => simpa only [hparse] using .error rfl
    | ok root => simpa only [hparse] using .ok rfl

/-- Loading is the same whoever asks. -/
theorem loadDocument_askers (files : Texts) (l : Location) (q r : Option String) :
    Compares Eq SameKind Eq (loadDocument files l q) (loadDocument files l r) := by
  have hagree : ∀ s, Agree SameKind Eq (documentAt files s l q) (documentAt files s l r) := by
    intro s
    unfold documentAt
    cases s.find? l with
    | some d => exact .ok rfl
    | none =>
      have hread := files.readValue_askers l q r
      generalize files.readValue l q = x, files.readValue l r = y at hread
      cases hread with
      | ok h => exact .ok (by rw [h])
      | error h => exact .error h
  rintro s _ rfl
  rw [outcome_loadDocument, outcome_loadDocument, after_loadDocument, after_loadDocument]
  refine ⟨hagree s, ?_⟩
  have hs := hagree s
  generalize documentAt files s l q = x, documentAt files s l r = y at hs
  cases hs with
  | ok h => rw [h]
  | error _ => rfl

/-- Pointers that are the same once they are normalized find the same node. -/
theorem Document.find_alike (d : Document) {pointer pointer' : String}
    (h : Pointer.normalize pointer = Pointer.normalize pointer') :
    Agree SameKind Eq (d.find pointer) (d.find pointer') := by
  unfold Document.find
  rw [Pointer.find_congr h]
  cases Pointer.find d.root pointer' with
  | error name => exact .error rfl
  | ok node => exact .ok rfl

/-- References that name one file, and one node in it, lead to the same target or fail alike. -/
theorem resolveReference_spelling (hfile : filePart reference ≠ "")
    (hfile' : filePart reference' ≠ "")
    (hpointer : Pointer.normalize (pointerPart reference) =
      Pointer.normalize (pointerPart reference'))
    (hplace : context.baseDirectory.resolve (filePart reference) =
      context.baseDirectory.resolve (filePart reference')) :
    Compares Eq SameKind Eq (resolveReference files reference context)
      (resolveReference files reference' context) := by
  rw [resolveReference_file (head?_ne_of_filePart hfile) hfile,
    resolveReference_file (head?_ne_of_filePart hfile') hfile', hplace]
  refine (loadDocument_askers files _ _ _).bind ?_
  rintro d _ rfl
  refine (Compares.lift (d.find_alike hpointer)).bind fun _ _ _ => ?_
  refine .pure ?_
  rw [Identity.of, Identity.of, hpointer]

/-- What a reference with a file part leads to is identified by the location of the file and the
pointer. -/
theorem identity_of_resolved (hfile : filePart reference ≠ "") {target : Target}
    (h : (resolveReference files reference context).outcome s = .ok target) :
    target.identity =
      .of (context.baseDirectory.resolve (filePart reference)) (pointerPart reference) := by
  obtain ⟨c, hbehind, -, rfl⟩ := resolveReference_eq_ok.mp h
  cases hbehind with
  | same hhash => exact absurd hhash (head?_ne_of_filePart hfile)
  | document _ _ hd => exact congrArg (Identity.of · _) (location_of_documentAt hd)

/-! ## Identity -/

/-- From a normal working directory every path leads to an absolute location, none of whose names is
empty, `.` or `..`; the text of the location is these names behind slashes and leads back to it. A
joined path leads where it leads with the text of the location in place of its first part. And
wherever a reference stands, all references that name one file there, with pointers that are the
same once they are normalized, lead to the same identity, node and context, or all of them fail
alike, be they followed on one store or one after the other. -/
theorem FileTree.spelling_immaterial (files : FileTree)
    (hdirectory : files.workingDirectory.Normal) :
    (∀ path, let l := files.locate path
      isAbsolutePath l.render = true ∧ l.Normal ∧
        (pathComponents l.render = "" :: l.names ∨ l.names = [] ∧ l.render = "/") ∧
        files.locate l.render = l) ∧
      (∀ first second, files.locate (joinPaths first second) =
        files.locate (joinPaths (files.locate first).render second)) ∧
      ∀ (s : Store) (context : Context) (reference reference' : String),
        context.baseDirectory.Normal → filePart reference ≠ "" → filePart reference' ≠ "" →
        Pointer.normalize (pointerPart reference) = Pointer.normalize (pointerPart reference') →
        files.locate (joinPaths context.baseDirectory.render (filePart reference)) =
          files.locate (joinPaths context.baseDirectory.render (filePart reference')) →
        let first := resolveReference files reference context
        let second := resolveReference files reference' context
        Agree SameKind Eq (first.outcome s) (second.outcome s) ∧
          Agree SameKind Eq (first.outcome s) (second.outcome (first.after s)) ∧
          first.after s = second.after s ∧
          ∀ target, first.outcome s = .ok target → target.identity =
            .of (files.locate (joinPaths context.baseDirectory.render (filePart reference)))
              (pointerPart reference) := by
  refine ⟨fun path => ?_, fun first second => ?_, ?_⟩
  · have hnormal : (files.locate path).Normal := hdirectory.resolve path
    refine ⟨Location.isAbsolutePath_render _, hnormal, ?_, hnormal.resolve_render _⟩
    refine (Location.components_render hnormal).imp_right fun ⟨hnames, _⟩ => ⟨hnames, ?_⟩
    rw [Location.render, hnames]
    rfl
  · have hnormal : (files.locate first).Normal := hdirectory.resolve first
    calc files.locate (joinPaths first second)
      _ = (files.locate first).resolve second := Location.resolve_joinPaths _ first second
      _ = files.locate (joinPaths (files.locate first).render second) :=
          (hnormal.resolve_joinPaths_render _ second).symm
  · intro s context reference reference' hbase hfile hfile' hpointer hplace first second
    have hjoin : ∀ path, files.locate (joinPaths context.baseDirectory.render path) =
        context.baseDirectory.resolve path :=
      fun path => hbase.resolve_joinPaths_render files.workingDirectory path
    rw [hjoin, hjoin] at hplace
    obtain ⟨hagree, hafter⟩ :=
      resolveReference_spelling hfile hfile' hpointer hplace (Eq.refl s)
    -- Following a reference adds only what the files hold, which changes no outcome.
    have hlater : second.outcome (first.after s) = second.outcome s :=
      (Steady.resolveReference files reference' context).stays
        ((Steady.resolveReference files reference context).grows s)
    refine ⟨hagree, ?_, hafter, fun target htarget => ?_⟩
    · rw [hlater]
      exact hagree
    · rw [hjoin]
      exact identity_of_resolved hfile htarget

/-- A directory with two files, seen from inside another one. -/
def neighbours : FileTree :=
  ⟨⟨["w", "run"]⟩, [(⟨["w", "s"]⟩, .directory),
    (⟨["w", "s", "b.json"]⟩, .file "\x7b\"x\":1\x7d".toUTF8)]⟩

/-- What is written beside the file. -/
def neighbour : Context := .ofDocument ⟨neighbours.locate "../s/a.json", .null⟩

/-- A detour above the root, a doubled slash and a bare pointer lead to the same node as the plain
reference. -/
theorem neighbour_spellings :
    ((resolveReference neighbours "b.json#/x" neighbour).outcome .empty).map Target.identity =
        .ok ⟨⟨["w", "s", "b.json"]⟩, "x"⟩ ∧
      Agree SameKind Eq ((resolveReference neighbours "b.json#/x" neighbour).outcome .empty)
        ((resolveReference neighbours "../../../w//s/./b.json#x" neighbour).outcome .empty) := by
  have hdirectory : neighbours.workingDirectory.Normal := by decide
  have hbase : neighbour.baseDirectory.Normal := by decide
  have hfile : filePart "b.json#/x" ≠ "" := by decide
  have hfile' : filePart "../../../w//s/./b.json#x" ≠ "" := by decide
  have hpointer : Pointer.normalize (pointerPart "b.json#/x") =
      Pointer.normalize (pointerPart "../../../w//s/./b.json#x") := by decide
  have hplace : neighbours.locate (joinPaths neighbour.baseDirectory.render
      (filePart "b.json#/x")) = neighbours.locate (joinPaths neighbour.baseDirectory.render
      (filePart "../../../w//s/./b.json#x")) := by decide +kernel
  have hagree := (neighbours.spelling_immaterial hdirectory).2.2 .empty neighbour _ _ hbase hfile
    hfile' hpointer hplace
  exact ⟨by decide +kernel, hagree.1⟩

end LinkedSchema
