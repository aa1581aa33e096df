import LinkedSchema.Proofs.FileUris
import LinkedSchema.Proofs.Registered
import Mathlib.Data.List.TakeWhile

/-!
# References that both readings share

A reference is read in two ways: as the path of a file and a pointer, against a directory, and as a
URI reference, against the URI of a document. `SharedReference` describes the form on which they
agree: the path of a file and a pointer, either of which may be missing, without the spellings that
one reading takes apart and the other does not. An escape is carried out by one reading only; a
query, a scheme and an authority are parts of a URI but letters of a path; an empty segment is a
segment of a URI and of a pointer behind a hash, but is left out of a path and in front of a
pointer.

Of a shared reference the URI reference has the path and the pointer as its parts (`read?_eq`), and
both readings go down the same names (`fragmentNames?_eq`). So what a registry follows is what the
reference leads to (`leadsTo_of_follow?`). A `CommonReference` is a shared one that is relative and
made of unreserved characters.
-/

namespace LinkedSchema

open Uri

variable {files : Texts} {s : Store} {context : Context} {reference : String}

/-- A pointer behind a hash and a slash whose characters stand for themselves. -/
structure SharedPointer (path : List Char) (pointer : String) : Prop where
  /-- The pointer is made of the path. -/
  joined : pointer.toList = '#' :: '/' :: path
  /-- The first name is not empty. -/
  head : ∃ c rest, path = c :: rest ∧ c ≠ '/'
  /-- The characters may stand in a fragment. -/
  allowed : ∀ c ∈ path, isQueryChar c = true

/-- A reference to a file, to a place in a file or to a place in its own document, in a spelling on
which both readings agree. -/
structure SharedReference (reference : String) : Prop where
  /-- There is a reference. -/
  nonempty : reference ≠ ""
  /-- The file, if one is named. -/
  file : filePart reference = "" ∨ ∃ segments, SegmentPath segments (filePart reference)
  /-- Nothing in front of the file looks like a scheme. -/
  colon : ':' ∉ (filePart reference).toList.takeWhile (· ≠ '/')
  /-- The place, if one is named, possibly as the whole document. -/
  pointer : pointerPart reference = "" ∨ pointerPart reference = "#" ∨
    ∃ path, SharedPointer path (pointerPart reference)

/-- A pointer of unreserved segments behind a hash. -/
structure UnreservedPointer (segments : List String) (pointer : String) : Prop where
  /-- The pointer is made of the segments, each behind a slash. -/
  joined : pointer.toList = '#' :: (segments.map String.toList).flatMap ('/' :: ·)
  /-- The segments are not empty. -/
  nonempty : ∀ segment ∈ segments, segment ≠ ""
  /-- The characters are unreserved. -/
  unreserved : ∀ segment ∈ segments, ∀ c ∈ segment.toList, isUnreserved c = true

/-- A reference to a file, to a place in a file or to a place in its own document. -/
structure CommonReference (reference : String) : Prop where
  /-- There is a reference. -/
  nonempty : reference ≠ ""
  /-- The file, if one is named. -/
  file : filePart reference = "" ∨ ∃ segments, UnreservedPath segments (filePart reference)
  /-- The place, if one is named. -/
  pointer : pointerPart reference = "" ∨
    ∃ segments, UnreservedPointer segments (pointerPart reference)

/-! ## Characters that stand for themselves -/

/-- A part of allowed characters is well formed. -/
theorem isWellFormed_of_allowed {allowed : Char → Bool} (hpercent : allowed '%' = false)
    {part : List Char} (h : ∀ c ∈ part, allowed c = true) :
    Uri.isWellFormed allowed part = true := by
  induction part with
  | nil => rfl
  | cons c rest ih =>
    obtain ⟨hc, hrest⟩ := List.forall_mem_cons.mp h
    rw [Uri.isWellFormed]
    · rw [hc, ih hrest]
      rfl
    · rintro high low others rfl
      rw [hpercent] at hc
      cases hc

/-- A part without escapes stands for itself. -/
theorem decode?_of_percent_notMem {part : List Char} (h : '%' ∉ part) :
    decode? (String.ofList part) = some (String.ofList part) := by
  have hspells : Spells (part.flatMap fun c => [c]) (part.flatMap String.utf8EncodeChar) :=
    spells_flatMap fun c hc => spells_of_ne fun he => h (he ▸ hc)
  have hbytes := hspells []
  rw [List.append_nil, List.flatMap_singleton', decodeBytes, List.append_nil] at hbytes
  have htext := fromUTF8?_utf8EncodeChar (String.ofList part)
  rw [String.toList_ofList] at htext
  rw [decode?, String.toList_ofList, hbytes, htext]

/-- A character of joined segments is a slash or one of theirs. -/
theorem mem_joinSegments {c : Char} {segments : List (List Char)}
    (h : c ∈ normalizePath.joinSegments segments) :
    c = '/' ∨ ∃ segment ∈ segments, c ∈ segment := by
  induction segments with
  | nil => cases h
  | cons segment rest ih =>
    cases rest with
    | nil => exact .inr ⟨segment, List.mem_cons_self .., h⟩
    | cons next others =>
      rcases List.mem_append.mp h with hc | hc
      · exact .inr ⟨segment, List.mem_cons_self .., hc⟩
      rcases List.mem_cons.mp hc with rfl | hc
      · exact .inl rfl
      · exact (ih hc).imp_right fun ⟨t, ht, hmem⟩ => ⟨t, List.mem_cons_of_mem _ ht, hmem⟩

/-- The characters of a path are those of its segments, and slashes. -/
theorem SegmentPath.mem_cases {segments : List String} {path : String}
    (h : SegmentPath segments path) {c : Char} (hc : c ∈ path.toList) :
    c = '/' ∨ ∃ segment ∈ segments, c ∈ segment.toList := by
  have hjoin : c = '/' ∨ c ∈ normalizePath.joinSegments (segments.map String.toList) := by
    rcases h.toList_cases with hpath | hpath
    · exact .inr (hpath ▸ hc)
    · rw [hpath, filePath, String.toList_ofList, h.map_encodeName] at hc
      exact List.mem_cons.mp hc
  rcases hjoin with rfl | hjoin
  · exact .inl rfl
  · simpa using mem_joinSegments hjoin

/-- The characters of the file part may stand in a path. -/
theorem SharedReference.allowed_file (h : SharedReference reference) :
    ∀ c ∈ (filePart reference).toList, isPathChar c = true := by
  intro c hc
  rcases h.file with hfile | ⟨segments, hfile⟩
  · rw [hfile] at hc
    cases hc
  · rcases hfile.mem_cases hc with rfl | ⟨segment, hs, hmem⟩
    · decide
    · rw [isPathChar, hfile.allowed segment hs c hmem, Bool.true_or]

/-! ## Common references are shared -/

/-- Segments with slashes in front are a pointer that both readings share. -/
theorem UnreservedPointer.shared {segments : List String} {pointer : String}
    (h : UnreservedPointer segments pointer) :
    pointer = "#" ∨ ∃ path, SharedPointer path pointer := by
  cases segments with
  | nil => exact .inl (String.toList_inj.mp h.joined)
  | cons segment rest =>
    have hne : (segment :: rest).map String.toList ≠ [] := by simp
    have hjoined := h.joined
    rw [← slash_joinSegments hne] at hjoined
    obtain ⟨c, others, hc, hmem⟩ :=
      head_joinSegments (h.nonempty segment (List.mem_cons_self ..)) rest
    have hun := h.unreserved segment (List.mem_cons_self ..) c hmem
    refine .inr ⟨_, hjoined, ⟨c, others, hc, ?_⟩, fun d hd => ?_⟩
    · rintro rfl
      exact absurd hun (by decide)
    · rcases mem_joinSegments hd with rfl | ⟨part, hpart, hmem⟩
      · decide
      · obtain ⟨t, ht, rfl⟩ := List.mem_map.mp hpart
        rw [isQueryChar, isPathChar, isSegmentChar_of_isUnreserved (h.unreserved t ht d hmem)]
        rfl

/-- A common reference is shared. -/
theorem CommonReference.shared (h : CommonReference reference) : SharedReference reference where
  nonempty := h.nonempty
  file := h.file.imp_right fun ⟨segments, hpath⟩ => ⟨segments, hpath.segmentPath⟩
  colon hc := by
    have hmem := List.takeWhile_subset _ hc
    rcases h.file with hfile | ⟨segments, hpath⟩
    · rw [hfile] at hmem
      cases hmem
    · rcases hpath.segmentPath.mem_cases hmem with he | ⟨segment, hs, hmem⟩
      · exact absurd he (by decide)
      · exact absurd (hpath.unreserved segment hs _ hmem) (by decide)
  pointer := h.pointer.imp_right fun ⟨_, hpointer⟩ => hpointer.shared

/-! ## The parts of a reference -/

/-- The fragment of a reference: the pointer without its hash, if there is one. -/
def fragment? (reference : String) : Option String :=
  if (pointerPart reference).isEmpty then none
  else some (String.ofList ((pointerPart reference).toList.drop 1))

/-- What follows the hash of a reference is empty or a slash and the text of a path. -/
theorem SharedReference.fragment_cases (h : SharedReference reference) :
    (fragment? reference).getD "" = "" ∧ Pointer.normalize (pointerPart reference) = "" ∨
      ∃ path : List Char, ((fragment? reference).getD "").toList = '/' :: path ∧
        (∃ c rest, path = c :: rest ∧ c ≠ '/') ∧ (∀ c ∈ path, isQueryChar c = true) ∧
        Pointer.normalize (pointerPart reference) = String.ofList path := by
  unfold fragment?
  rcases h.pointer with hp | hp | ⟨path, hp⟩
  · rw [hp]
    exact .inl ⟨rfl, rfl⟩
  · rw [hp]
    exact .inl ⟨rfl, rfl⟩
  · have hne : (pointerPart reference).isEmpty = false := by
      have : pointerPart reference ≠ "" := by
        intro he
        have hj := hp.joined
        rw [he] at hj
        cases hj
      simpa using this
    rw [hne, if_neg Bool.false_ne_true, hp.joined, Option.getD_some, String.toList_ofList,
      Pointer.normalize, hp.joined]
    exact .inr ⟨path, rfl, hp.head, hp.allowed, rfl⟩

/-- The characters of the fragment may stand in one. -/
theorem SharedReference.allowed_fragment (h : SharedReference reference) :
    ∀ c ∈ ((fragment? reference).getD "").toList, isQueryChar c = true := by
  rcases h.fragment_cases with ⟨he, -⟩ | ⟨path, he, -, hallowed, -⟩
  · rw [he]
    exact fun c hc => by cases hc
  · rw [he]
    exact List.forall_mem_cons.mpr ⟨by decide, hallowed⟩

/-- The pointer of a reference is normalized once. -/
theorem SharedReference.plain_pointer (h : SharedReference reference) :
    Pointer.Plain (Pointer.normalize (pointerPart reference)) := by
  rcases h.fragment_cases with ⟨-, he⟩ | ⟨path, -, ⟨c, rest, hpath, hne⟩, hallowed, he⟩
  · rw [he]
    exact .empty
  · have hc := hallowed c (hpath ▸ List.mem_cons_self ..)
    rw [he]
    constructor
    · rw [String.toList_ofList, hpath]
      intro hhash
      cases hhash
      exact absurd hc (by decide)
    · rw [String.toList_ofList, hpath]
      intro hslash
      cases hslash
      exact hne rfl

/-- A text is cut at a character that it does not hold. -/
theorem cut_of_notMem {delimiter : Char} {text : String} (h : delimiter ∉ text.toList) :
    UriReference.cut delimiter text = (text, none) := by
  have hall : ∀ c ∈ text.toList, decide (c ≠ delimiter) = true := by
    intro c hc
    simpa using fun he : c = delimiter => h (he ▸ hc)
  unfold UriReference.cut Text.cutBefore
  dsimp only
  rw [List.takeWhile_eq_self_iff.mpr hall, List.dropWhile_eq_nil_iff.mpr hall, String.ofList_toList]
  rfl

/-- The file part of a reference has no authority in front. -/
theorem SharedReference.cutAuthority_file (h : SharedReference reference) :
    UriReference.cutAuthority (filePart reference) = (none, filePart reference) := by
  rcases h.file with he | ⟨segments, hpath⟩
  · rw [he]
    rfl
  · exact hpath.cutAuthority

/-- No scheme holds a slash. -/
theorem isScheme_of_slash {text : List Char} (h : '/' ∈ text) : isScheme text = false := by
  cases text with
  | nil => cases h
  | cons c rest =>
    rw [isScheme, Bool.and_eq_false_iff]
    rcases List.mem_cons.mp h with rfl | hrest
    · exact .inl (by decide)
    · exact .inr (List.all_eq_false.mpr ⟨'/', hrest, by decide⟩)

/-- Where a slash stands in front of every colon, it stands in front of the first one. -/
theorem slash_mem_takeWhile {text : List Char} (hfirst : ':' ∉ text.takeWhile (· ≠ '/'))
    (hcolon : ':' ∈ text) : '/' ∈ text.takeWhile (· ≠ ':') := by
  induction text with
  | nil => cases hcolon
  | cons c rest ih =>
    by_cases hslash : c = '/'
    · simp [hslash]
    · have htake : (c :: rest).takeWhile (· ≠ '/') = c :: rest.takeWhile (· ≠ '/') := by
        simp [hslash]
      rw [htake, List.mem_cons, not_or] at hfirst
      have hrest : ':' ∈ rest := (List.mem_cons.mp hcolon).resolve_left hfirst.1
      have htake' : (c :: rest).takeWhile (· ≠ ':') = c :: rest.takeWhile (· ≠ ':') := by
        simp [Ne.symm hfirst.1]
      rw [htake']
      exact List.mem_cons_of_mem _ (ih hfirst.2 hrest)

/-- The file part of a reference has no scheme in front: its colons stand behind a slash. -/
theorem SharedReference.cutScheme_file (h : SharedReference reference) :
    UriReference.cutScheme (filePart reference) = (none, filePart reference) := by
  by_cases hcolon : ':' ∈ (filePart reference).toList
  · have hscheme := isScheme_of_slash (slash_mem_takeWhile h.colon hcolon)
    unfold UriReference.cutScheme UriReference.cut Text.cutBefore
    dsimp only
    split
    · next scheme rest he =>
      rw [← (Prod.mk.inj he).1, String.toList_ofList, hscheme, if_neg Bool.false_ne_true]
    · rfl
  · rw [UriReference.cutScheme, cut_of_notMem hcolon]

/-- The file part and the fragment of a reference are well formed. -/
theorem SharedReference.isWellFormed (h : SharedReference reference) :
    UriReference.isWellFormed
      ⟨none, none, filePart reference, none, fragment? reference⟩ = true := by
  have hpath : Uri.isWellFormed isPathChar (filePart reference).toList = true :=
    isWellFormed_of_allowed (by decide) h.allowed_file
  have hfragment : ((fragment? reference).all fun f =>
      Uri.isWellFormed isQueryChar f.toList) = true := by
    have hallowed := h.allowed_fragment
    cases hf : fragment? reference with
    | none => rfl
    | some f =>
      rw [hf] at hallowed
      exact isWellFormed_of_allowed (by decide) hallowed
  have hfirst : ((filePart reference).toList.takeWhile (· ≠ '/')).contains ':' = false := by
    simpa using h.colon
  simp only [UriReference.isWellFormed, hpath, hfragment, hfirst, Option.all_none]
  rfl

/-- A shared reference as a URI reference. -/
theorem SharedReference.read?_eq (h : SharedReference reference) :
    UriReference.read? reference =
      some ⟨none, none, filePart reference, none, fragment? reference⟩ := by
  have hcut : UriReference.cut '#' reference = (filePart reference, fragment? reference) := rfl
  have hquery : UriReference.cut '?' (filePart reference) = (filePart reference, none) :=
    cut_of_notMem fun hc => absurd (h.allowed_file _ hc) (by decide)
  -- The parts are cut off from the end: the fragment, the query, the scheme, the authority.
  unfold UriReference.read?
  rw [hcut]
  dsimp only
  rw [hquery]
  dsimp only
  rw [h.cutScheme_file]
  dsimp only
  rw [h.cutAuthority_file]
  dsimp only
  rw [h.isWellFormed, if_pos rfl]

/-- Both readings of a pointer go down the same names. -/
theorem SharedReference.fragmentNames?_eq (h : SharedReference reference) :
    ∃ names, Draft7.Registry.fragmentNames? ((fragment? reference).getD "") = some names ∧
      ∀ root, Pointer.find root (pointerPart reference) = Pointer.descend root names := by
  unfold Draft7.Registry.fragmentNames? Pointer.find
  rcases h.fragment_cases with ⟨he, hn⟩ | ⟨path, he, ⟨c, rest, hpath, -⟩, hallowed, hn⟩
  · rw [he, hn]
    exact ⟨[], rfl, fun root => rfl⟩
  · have hpercent : '%' ∉ path := fun hc => absurd (hallowed _ hc) (by decide)
    rw [he, hn]
    dsimp only
    refine ⟨Pointer.names (String.ofList path), ?_, fun root => ?_⟩
    · have hread : (decode? (String.ofList path)).map Pointer.names =
          some (Pointer.names (String.ofList path)) := by
        rw [decode?_of_percent_notMem hpercent]
        rfl
      exact hread
    · have hne : (String.ofList path).isEmpty = false := by simp [hpath]
      rw [hne, if_neg Bool.false_ne_true]

/-! ## Agreement -/

/-- Only one location has the URI of a file. -/
theorem fileUri_injective {l l' : Location} (hl : l.Normal) (hl' : l'.Normal)
    (h : fileUri l.names = fileUri l'.names) : l = l' := by
  have hpath := filePath?_fileUri l.names
  rw [h, filePath?_fileUri] at hpath
  have hrender : l'.render = l.render := Option.some.inj hpath
  rw [← hl.resolve_render .root, ← hl'.resolve_render .root, hrender]

/-- A reference has no file part exactly when it starts with a hash. -/
theorem filePart_eq_empty (h : reference ≠ "") :
    filePart reference = "" ↔ reference.toList.head? = some '#' := by
  have hne : reference.toList ≠ [] := by simpa using h
  obtain ⟨c, rest, hc⟩ := List.exists_cons_of_ne_nil hne
  unfold filePart Text.cutBefore
  rw [hc]
  by_cases hhash : c = '#'
  · simp [hhash]
  · simp [hhash]

/-- A plain pointer that is found in the context behind a reference is what the reference leads
to. -/
theorem leadsTo_of_find {c : Context} {node : Json}
    (hplain : Pointer.Plain (Pointer.normalize (pointerPart reference)))
    (hbehind : ContextBehind files s context reference c)
    (h : (Pointer.find c.root.root (pointerPart reference)).toOption = some node) :
    LeadsTo files s context reference ⟨.of c.root.location (pointerPart reference), c⟩ node := by
  have hfind : Pointer.find c.root.root (pointerPart reference) = .ok node := by
    cases hf : Pointer.find c.root.root (pointerPart reference) with
    | error e => rw [hf] at h; cases h
    | ok w => rw [hf] at h; cases h; rfl
  have hagain : Pointer.find c.root.root (Pointer.normalize (pointerPart reference)) =
      .ok node := by
    rw [Pointer.find_congr hplain.normalize_eq]
    exact hfind
  constructor
  · refine resolveReference_eq_ok.mpr ⟨c, hbehind, ⟨node, ?_⟩, rfl⟩
    rw [Document.find, hfind]
  · simp only [Target.node, Document.find, Identity.of, hagain]

namespace Draft7

variable {schema : Document} {registry : Registry}

/-- The URI of a file is read at the location of the file. -/
theorem Registry.location?_fileUri {l : Location} (hl : l.Normal) (directory : Location) :
    location? directory (fileUri l.names) = some l := by
  have hscheme : (fileUri l.names).scheme = "file" := rfl
  rw [location?, if_pos hscheme, filePath?_fileUri, Option.map_some]
  exact congrArg some (hl.resolve_render .root)

/-- The document that a sound registry holds under the URI of a file is the one at its location. -/
theorem Sound.documentAt (h : Sound files s schema (fileUri schema.location.names) registry)
    (hschema : documentAt files s schema.location none = .ok schema)
    (hnormal : schema.location.Normal) {l : Location} (hl : l.Normal) {root : Json}
    (hr : registry.root? (fileUri l.names) = some root) :
    ∃ d, LinkedSchema.documentAt files s l none = .ok d ∧ d.root = root := by
  rcases (h.root? hr).document with ⟨hu, rfl⟩ | ⟨l', d, hl', hd, rfl⟩
  · rw [fileUri_injective hl hnormal hu]
    exact ⟨schema, hschema, rfl⟩
  · rw [Registry.location?_fileUri hl] at hl'
    cases hl'
    exact ⟨d, hd, rfl⟩

/-- A context whose document a registry holds under the URI of its file. -/
structure Placed (files : Texts) (s : Store) (context : Context) : Prop where
  /-- The document is the one at its location. -/
  held : context.Held files s
  /-- The location is normal. -/
  normal : context.root.location.Normal

/-- What a sound registry follows is what the reference leads to, and the URI on which it goes on
is that of the document there. -/
theorem leadsTo_of_follow? (h : Sound files s schema (fileUri schema.location.names) registry)
    (hschema : documentAt files s schema.location none = .ok schema)
    (hnormal : schema.location.Normal) (hshared : SharedReference reference)
    (hplaced : Placed files s context) {found : Draft7.Target}
    (hf : registry.follow? (fileUri context.root.location.names) reference = some found) :
    ∃ target, LeadsTo files s context reference target found.node ∧
      found.address.document = fileUri target.context.root.location.names ∧
      Placed files s target.context := by
  obtain ⟨names, hnames, hfind⟩ := hshared.fragmentNames?_eq
  unfold Registry.follow? at hf
  rw [hshared.read?_eq] at hf
  simp only [Option.bind_eq_bind, Option.bind_some, hnames] at hf
  obtain ⟨root, hroot, hf⟩ := Option.bind_eq_some_iff.mp hf
  obtain ⟨node, hnode, hf⟩ := Option.bind_eq_some_iff.mp hf
  rw [Option.pure_def, Option.some.injEq] at hf
  subst hf
  dsimp only at hroot ⊢
  by_cases hfile : filePart reference = ""
  · -- No file is named: both readings stay in the document.
    have hresolve := UriReference.resolve_empty hplaced.normal
      (r := ⟨none, none, filePart reference, none, fragment? reference⟩) hfile rfl rfl rfl
    rw [hresolve] at hroot ⊢
    obtain ⟨d, hd, rfl⟩ := h.documentAt hschema hnormal hplaced.normal hroot
    have hsame : context.root = d := Except.ok.inj (hplaced.held.document.symm.trans hd)
    rw [← hsame, ← hfind] at hnode
    have hbehind : ContextBehind files s context reference context :=
      .same ((filePart_eq_empty hshared.nonempty).mp hfile)
    exact ⟨_, leadsTo_of_find hshared.plain_pointer hbehind hnode, rfl, hplaced⟩
  · -- A file is named: the URI and the location both come from the directory of the document.
    obtain ⟨segments, hpath⟩ := hshared.file.resolve_left hfile
    have hresolve := UriReference.resolve_path hplaced.normal
      (r := ⟨none, none, filePart reference, none, fragment? reference⟩) hpath rfl rfl rfl
    rw [hresolve] at hroot ⊢
    have hl := hplaced.normal.parent.resolve (filePart reference)
    obtain ⟨d, hd, rfl⟩ := h.documentAt hschema hnormal hl hroot
    rw [← hfind] at hnode
    have hdirectory : context.baseDirectory = context.root.location.parent := by
      rw [hplaced.held.directory]
      rfl
    have hhash : reference.toList.head? ≠ some '#' :=
      fun hh => hfile ((filePart_eq_empty hshared.nonempty).mpr hh)
    have hbehind := ContextBehind.document hhash hfile (hdirectory ▸ hd)
    refine ⟨_, leadsTo_of_find hshared.plain_pointer hbehind hnode, ?_, ?_, ?_⟩
    · rw [← location_of_documentAt hd]
      rfl
    · exact Context.held_ofDocument hd
    · exact hbehind.normal hplaced.held.directory hplaced.normal

end Draft7

end LinkedSchema
