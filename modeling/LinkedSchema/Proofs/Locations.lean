import LinkedSchema.Files.Texts
import LinkedSchema.Proofs.Splitting

/-!
# Locations in normal form

A location is `Normal` when none of its names is empty, `.` or `..` or holds a slash, as those are
that `Location.resolve` makes from paths. The text of a normal location leads back to it, component
by component; so what can be read at a normal location is an entry of the file tree at that very
place (`FileTree.mem_entries_of_readText`).
-/

namespace LinkedSchema

/-- A name of a file or a directory. -/
structure IsFileName (name : String) : Prop where
  /-- It is not empty. -/
  nonempty : name ≠ ""
  /-- It does not stand for its own directory. -/
  here : name ≠ "."
  /-- It does not stand for the directory above. -/
  up : name ≠ ".."
  /-- It has no slash. -/
  slash : '/' ∉ name.toList

instance (name : String) : Decidable (IsFileName name) :=
  decidable_of_iff (name ≠ "" ∧ name ≠ "." ∧ name ≠ ".." ∧ '/' ∉ name.toList)
    ⟨fun ⟨hempty, hhere, hup, hslash⟩ => ⟨hempty, hhere, hup, hslash⟩,
      fun h => ⟨h.nonempty, h.here, h.up, h.slash⟩⟩

namespace Location

/-- All names of a location are names of files and directories. -/
def Normal (l : Location) : Prop := ∀ name ∈ l.names, IsFileName name

instance (l : Location) : Decidable l.Normal :=
  inferInstanceAs (Decidable (∀ name ∈ l.names, IsFileName name))

/-- The directory of a normal location is normal. -/
theorem Normal.parent {l : Location} (h : l.Normal) : l.parent.Normal :=
  fun name hname => h name (List.dropLast_subset _ hname)

/-- A component without slashes keeps names normal. -/
theorem normal_step {names : List String} {component : String}
    (h : ∀ name ∈ names, IsFileName name) (hc : '/' ∉ component.toList) :
    ∀ name ∈ step names component, IsFileName name := by
  unfold step
  split
  · exact h
  · next hstay =>
    split
    · exact fun name hname => h name (List.dropLast_subset _ hname)
    · next hup =>
      rw [not_or] at hstay
      intro name hname
      rcases List.mem_append.mp hname with hname | hname
      · exact h name hname
      · rw [List.mem_singleton.mp hname]
        exact ⟨hstay.1, hstay.2, hup, hc⟩

/-- Components without slashes keep names normal. -/
theorem normal_foldl {components : List String} (hc : ∀ c ∈ components, '/' ∉ c.toList) :
    ∀ {names : List String}, (∀ name ∈ names, IsFileName name) →
      ∀ name ∈ components.foldl step names, IsFileName name := by
  induction components with
  | nil => exact fun h => h
  | cons c rest ih =>
    obtain ⟨hc, hrest⟩ := List.forall_mem_cons.mp hc
    exact fun h => ih hrest (normal_step h hc)

/-- A path read against a normal directory gives a normal location. -/
theorem Normal.resolve {directory : Location} (h : directory.Normal) (path : String) :
    (directory.resolve path).Normal := by
  refine normal_foldl (fun c hc => Text.notMem_of_mem_split hc) ?_
  split
  · simp
  · exact h

/-- The components of the text of a normal location: an empty one for the root and its names. -/
theorem components_render {l : Location} (h : l.Normal) :
    pathComponents l.render = "" :: l.names ∨
      l.names = [] ∧ pathComponents l.render = ["", ""] := by
  have hsplit : pathComponents l.render =
      "" :: Text.split '/' (String.intercalate "/" l.names) := by
    have happ : l.render = "" ++ "/" ++ String.intercalate "/" l.names := by
      rw [String.empty_append]
      rfl
    rw [pathComponents, happ, Text.split_append]
    rfl
  rw [hsplit]
  cases hn : l.names with
  | nil => exact .inr ⟨rfl, rfl⟩
  | cons name rest =>
    rw [← hn, Text.split_intercalate (by simp [hn]) fun name hname => (h name hname).slash]
    exact .inl rfl

/-- Names of files are read as they are. -/
theorem foldl_step_names {names : List String} (h : ∀ name ∈ names, IsFileName name)
    (start : List String) : names.foldl step start = start ++ names := by
  induction names generalizing start with
  | nil => simp
  | cons name rest ih =>
    obtain ⟨hname, hrest⟩ := List.forall_mem_cons.mp h
    have hstep : step start name = start ++ [name] := by
      rw [step, if_neg (not_or.mpr ⟨hname.nonempty, hname.here⟩), if_neg hname.up]
    rw [List.foldl_cons, hstep, ih hrest, List.append_assoc, List.singleton_append]

/-- The text of a location is an absolute path. -/
theorem isAbsolutePath_render (l : Location) : isAbsolutePath l.render = true := by
  simp [isAbsolutePath, render, String.toList_append]

/-- The text of a normal location leads to it from everywhere. -/
theorem Normal.resolve_render {l : Location} (h : l.Normal) (directory : Location) :
    directory.resolve l.render = l := by
  have hnames : (pathComponents l.render).foldl step [] = l.names := by
    rcases components_render h with hc | ⟨hn, hc⟩
    · rw [hc, List.foldl_cons, foldl_step_names h]
      rfl
    · rw [hc, hn]
      rfl
  unfold Location.resolve
  dsimp only
  rw [if_pos l.isAbsolutePath_render, hnames]

end Location

namespace FileTree

variable {files : FileTree}

/-- A walk along names of files and directories goes down by these names. -/
theorem walk_names {names : List String} (h : ∀ name ∈ names, IsFileName name)
    {place result : Location} (hw : files.walk names place = .ok result) :
    result = ⟨place.names ++ names⟩ := by
  induction names generalizing place with
  | nil =>
    cases hw
    simp
  | cons name rest ih =>
    obtain ⟨hname, hrest⟩ := List.forall_mem_cons.mp h
    rw [walk] at hw
    split at hw
    · cases hw
    · cases hw
    · rw [if_neg (not_or.mpr ⟨hname.nonempty, hname.here⟩), if_neg hname.up] at hw
      split at hw
      · cases hw
      · dsimp only at hw
        split at hw
        · cases hw
        · rw [ih hrest hw]
          simp

/-- A walk goes through empty components. -/
theorem walk_empty {rest : List String} {place result : Location}
    (hw : files.walk ("" :: rest) place = .ok result) : files.walk rest place = .ok result := by
  rw [walk] at hw
  split at hw
  · cases hw
  · cases hw
  · rwa [if_pos (.inl rfl)] at hw

/-- Where the walk along a path starts. -/
def start (files : FileTree) (path : String) : Location :=
  if isAbsolutePath path then .root else files.workingDirectory

/-- A path that is looked for at all: it has a character and no NUL, and it is not too long. -/
structure Accepted (path : String) : Prop where
  /-- There is no NUL. -/
  nul : path.toList.any (· == '\x00') = false
  /-- There is a character. -/
  nonempty : path.isEmpty = false
  /-- The path is not too long. -/
  bytes : path.utf8ByteSize < maxPathBytes

/-- An accepted path names what stands at the end of the walk along its components. -/
theorem stat_of_accepted {path : String} (h : Accepted path) :
    files.stat path = match files.walk (pathComponents path) (files.start path) with
      | .error reason => .error reason
      | .ok place => match files.find? place with
        | none => .error .notFound
        | some entry => .ok entry := by
  unfold stat start
  rw [h.nul, h.nonempty, if_neg (Nat.not_le_of_lt h.bytes)]
  cases hw : files.walk (pathComponents path)
      (if isAbsolutePath path then .root else files.workingDirectory) with
  | error reason => simp [hw, bind, Except.bind]
  | ok place => cases hf : files.find? place <;> simp [hw, hf, bind, Except.bind] <;> rfl

/-- A path is accepted, or it is refused with the reason for that. -/
theorem accepted_or (files : FileTree) (path : String) :
    Accepted path ∨ files.stat path = .error .containsNul ∨
      path.isEmpty = true ∧ files.stat path = .error .notFound ∨
      files.stat path = .error .nameTooLong := by
  unfold stat
  cases hnul : path.toList.any (· == '\x00') with
  | true => exact .inr (.inl rfl)
  | false =>
    cases hempty : path.isEmpty with
    | true => exact .inr (.inr (.inl ⟨rfl, rfl⟩))
    | false =>
      by_cases hlong : maxPathBytes ≤ path.utf8ByteSize
      · rw [if_pos hlong]
        exact .inr (.inr (.inr rfl))
      · exact .inl ⟨hnul, hempty, Nat.lt_of_not_le hlong⟩

/-- What a path names stands at the end of a walk along its components. -/
theorem walk_of_stat {path : String} {entry : Entry} (h : files.stat path = .ok entry) :
    Accepted path ∧ ∃ place, files.walk (pathComponents path) (files.start path) = .ok place ∧
      files.find? place = some entry := by
  rcases accepted_or files path with haccepted | he | ⟨-, he⟩ | he
  · rw [stat_of_accepted haccepted] at h
    refine ⟨haccepted, ?_⟩
    split at h
    · cases h
    · next place hw =>
      split at h
      · cases h
      · next found hf =>
        cases h
        exact ⟨place, hw, hf⟩
  all_goals
    rw [he] at h
    cases h

/-- What the text of a normal location names is what stands at the location. -/
theorem find?_of_stat {l : Location} (hl : l.Normal) {entry : Entry}
    (h : files.stat l.render = .ok entry) : files.find? l = some entry := by
  obtain ⟨-, place, hw, hf⟩ := walk_of_stat h
  rw [start, if_pos l.isAbsolutePath_render] at hw
  -- The walk starts at the root, goes through the empty component in front, and then down the names.
  have hplace : place = l := by
    rcases Location.components_render hl with hc | ⟨hn, hc⟩
    · rw [hc] at hw
      exact walk_names hl (walk_empty hw)
    · rw [hc] at hw
      have hr := walk_names (by simp) (walk_empty (walk_empty hw))
      rw [hr, ← hn]
      rfl
  rw [← hplace]
  exact hf

/-- A text that is read is the content of a file. -/
theorem stat_of_readText {path text : String} (h : files.readText path = .ok text) :
    ∃ content, files.stat path = .ok (.file content) := by
  unfold readText at h
  cases hs : files.stat path with
  | error e =>
    rw [hs] at h
    cases h
  | ok entry =>
    rw [hs] at h
    cases entry with
    | directory => cases h
    | file content => exact ⟨content, rfl⟩

/-- What can be read at a normal location is an entry at that very place. -/
theorem mem_entries_of_readText {l : Location} (hl : l.Normal) {text : String}
    (h : files.readText l.render = .ok text) : ∃ entry, (l, entry) ∈ files.entries := by
  obtain ⟨content, hs⟩ := stat_of_readText h
  have hf := find?_of_stat hl hs
  unfold find? at hf
  split at hf
  · cases hf
  · obtain ⟨before, after, he, -⟩ := List.lookup_eq_some_iff.mp hf
    exact ⟨.file content, by rw [he]; simp⟩

/-- Nothing is read where there are only directories. -/
theorem readText_empty {workingDirectory : Location} {path text : String} :
    (empty workingDirectory).readText path ≠ .ok text := by
  intro h
  obtain ⟨content, hs⟩ := stat_of_readText h
  obtain ⟨-, place, -, hf⟩ := walk_of_stat hs
  unfold find? at hf
  split at hf <;> cases hf

/-! ## The working directory stays -/

/-- An entry put into a file tree leaves the working directory. -/
@[simp]
theorem workingDirectory_put (files : FileTree) (l : Location) (entry : Entry) :
    (files.put l entry).workingDirectory = files.workingDirectory := rfl

/-- Making a directory, and those above it, leaves the working directory. -/
@[simp]
theorem workingDirectory_makeDirectory (files : FileTree) (l : Location) :
    (files.makeDirectory l).workingDirectory = files.workingDirectory := by
  unfold makeDirectory
  induction makeDirectory.inits l.names generalizing files with
  | nil => rfl
  | cons names rest ih =>
    rw [List.foldl_cons, ih]
    split <;> rfl

/-- Writing a file leaves the working directory. -/
@[simp]
theorem workingDirectory_write (files : FileTree) (l : Location) (content : ByteArray) :
    (files.write l content).workingDirectory = files.workingDirectory := by
  simp [write]

/-- Removing an entry leaves the working directory. -/
@[simp]
theorem workingDirectory_remove (files : FileTree) (l : Location) :
    (files.remove l).workingDirectory = files.workingDirectory := rfl

end FileTree

/-- Whatever can be read at a normal location is at one of the places. -/
def Texts.Listed (files : Texts) : Prop :=
  ∀ l text, l.Normal → files.read l = .ok text → l ∈ files.places

/-- The files of a tree are listed. -/
theorem FileTree.listed (files : FileTree) : Texts.Listed files := by
  intro l text hl h
  obtain ⟨entry, hentry⟩ := mem_entries_of_readText hl h
  exact List.mem_map.mpr ⟨(l, entry), hentry, rfl⟩

end LinkedSchema
