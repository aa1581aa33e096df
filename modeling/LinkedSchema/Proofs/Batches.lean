import LinkedSchema.Command.Line
import LinkedSchema.Proofs.Pinning

/-!
# A batch is the sum of its entries

All entries of a manifest are validated with one store, so an entry may find schemas there that
others have loaded. Still each entry comes to what it comes to by itself, on a store of its own: a
session that has only validated is `Unaffected`, as the texts that its store pins are those of the
files (`Session.Unaffected.checkEntry`). A run of entries is then a sum over the manifest, up to the
first entry that fails (`checkEntries_eq_error_iff`, `checkEntries_eq_ok_iff`).

`ManifestEntry.missing?` and `ManifestEntry.alone` say what an entry is by itself, and its own
warnings and errors are made of these. A batch passes when every entry is `Settled`; this includes
an optional entry whose schema is missing, with its document unchecked (`unchecked_passes`).
-/

namespace LinkedSchema

variable {files : FileTree} {config : Config} {base : String} {e : ManifestEntry}
  {entries : Manifest} {s : Session}

/-! ## One entry by itself -/

namespace ManifestEntry

/-- The document of an entry and its schema exist. -/
def Present (files : FileTree) (base : String) (e : ManifestEntry) : Prop :=
  files.pathExists (joinPaths base e.path) = true ∧
    files.pathExists (joinPaths base e.schema) = true

instance (files : FileTree) (base : String) (e : ManifestEntry) :
    Decidable (e.Present files base) := inferInstanceAs (Decidable (_ ∧ _))

/-- What is said of an entry whose document or schema does not exist; the document is looked for
first. -/
def missing? (files : FileTree) (base : String) (e : ManifestEntry) : Option String :=
  if files.pathExists (joinPaths base e.path) = false then
    some ((if e.optional then "Missing optional file: " else "Missing expected output: ") ++
      e.title)
  else if files.pathExists (joinPaths base e.schema) = false then
    some ("Missing schema: " ++ e.schema ++ " (for " ++ e.title ++ ")")
  else none

/-- What validating an entry answers when nothing was validated before. -/
def alone (files : FileTree) (config : Config) (base : String) (e : ManifestEntry) : Answer :=
  ((Session.start config files).validateFile (joinPaths base e.schema) (joinPaths base e.path)).1

/-- An entry gets past both tests for existence, and validating it by itself fails. -/
def Fails (files : FileTree) (config : Config) (base : String) (e : ManifestEntry)
    (cause : SchemaError) : Prop :=
  e.Present files base ∧ e.alone files config base = .error cause

/-- The warnings about an entry: what is missing, if the entry is optional. -/
def warnings (files : FileTree) (base : String) (e : ManifestEntry) : List String :=
  if e.optional then (e.missing? files base).toList else []

/-- The errors about an entry: what is missing, unless the entry is optional, or the lines of the
report that it gets by itself. -/
def errors (files : FileTree) (config : Config) (base : String) (e : ManifestEntry) :
    List String :=
  match e.missing? files base, e.alone files config base with
  | some line, _ => if e.optional then [] else [line]
  | none, .ok report => report.lines.map fun line => e.title ++ ": " ++ line
  | none, .error _ => []

/-- What is found about an entry by itself. -/
def findings (files : FileTree) (config : Config) (base : String) (e : ManifestEntry) :
    BatchFindings :=
  ⟨e.warnings files base, e.errors files config base, if e.Present files base then 1 else 0⟩

/-- An entry fails in one way. -/
theorem Fails.unique {cause cause' : SchemaError} (h : e.Fails files config base cause)
    (h' : e.Fails files config base cause') : cause = cause' :=
  Except.error.inj (h.2.symm.trans h'.2)

/-- Nothing is missing exactly when both the document and its schema exist. -/
theorem missing?_eq_none : e.missing? files base = none ↔ e.Present files base := by
  unfold missing? Present
  cases files.pathExists (joinPaths base e.path) <;>
    cases files.pathExists (joinPaths base e.schema) <;> simp

/-- Where something is missing, this is all that is said of the entry. -/
theorem checkEntry_of_missing {line : String} (h : e.missing? s.files base = some line) :
    checkEntry base e s = (.ok ⟨if e.optional then [line] else [],
      if e.optional then [] else [line], 0⟩, s) := by
  unfold missing? at h
  unfold checkEntry BatchFindings.missing
  by_cases hdata : s.files.pathExists (joinPaths base e.path) = false
  · rw [if_pos hdata] at h
    obtain rfl := Option.some.inj h
    cases hoptional : e.optional <;> simp [hdata]
  · rw [if_neg hdata] at h
    by_cases hschema : s.files.pathExists (joinPaths base e.schema) = false
    · rw [if_pos hschema] at h
      obtain rfl := Option.some.inj h
      cases hoptional : e.optional <;> simp [hdata, hschema]
    · rw [if_neg hschema] at h
      cases h

/-- Where nothing is missing, the entry is validated. -/
theorem checkEntry_of_present (h : e.Present s.files base) :
    checkEntry base e s =
      match s.validateFile (joinPaths base e.schema) (joinPaths base e.path) with
      | (.error cause, s) => (.error (.entry e.title cause), s)
      | (.ok report, s) => (.ok (.validated e.title report), s) := by
  have hdata : ¬(!s.files.pathExists (joinPaths base e.path)) = true := by simp [h.1]
  have hschema : ¬(!s.files.pathExists (joinPaths base e.schema)) = true := by simp [h.2]
  unfold checkEntry
  exact (if_neg hdata).trans (if_neg hschema)

/-- If not both exist, something is missing. -/
theorem exists_missing (h : ¬e.Present files base) : ∃ line, e.missing? files base = some line :=
  Option.ne_none_iff_exists'.mp (mt missing?_eq_none.mp h)

/-- Where something is missing, the finding is a warning or an error. -/
theorem findings_of_missing {line : String} (h : e.missing? files base = some line) :
    e.findings files config base =
      ⟨if e.optional then [line] else [], if e.optional then [] else [line], 0⟩ := by
  have habsent : ¬e.Present files base := fun hpresent => by
    rw [missing?_eq_none.mpr hpresent] at h
    cases h
  unfold findings warnings errors
  rw [h, if_neg habsent]
  rfl

/-- Where nothing is missing, the report is what is found. -/
theorem findings_of_ok (hpresent : e.Present files base) {report : Report}
    (h : e.alone files config base = .ok report) :
    e.findings files config base = .validated e.title report := by
  unfold findings warnings errors BatchFindings.validated
  rw [missing?_eq_none.mpr hpresent, h, if_pos hpresent]
  cases e.optional <;> rfl

/-- An entry gives no cause to fail a batch: it is validated without violations, or it is optional
and something is missing. -/
inductive Settled (files : FileTree) (config : Config) (base : String) (e : ManifestEntry) : Prop
  /-- The report is empty. -/
  | valid (present : e.Present files base) (h : e.alone files config base = .ok [])
  /-- The entry is left out. -/
  | skipped (optional : e.optional = true) (absent : ¬e.Present files base)

/-- An entry that is settled does not fail. -/
theorem Settled.not_fails {cause : SchemaError} (h : e.Settled files config base) :
    ¬e.Fails files config base cause := by
  intro hfails
  cases h with
  | valid _ hempty => cases hempty.symm.trans hfails.2
  | skipped _ absent => exact absent hfails.1

/-- An entry that does not fail has no errors exactly when it is settled. -/
theorem settled_iff (hfails : ∀ cause, ¬e.Fails files config base cause) :
    e.Settled files config base ↔ e.errors files config base = [] := by
  by_cases hpresent : e.Present files base
  · cases h : e.alone files config base with
    | error cause => exact absurd ⟨hpresent, h⟩ (hfails cause)
    | ok report =>
      have herrors : e.errors files config base =
          report.lines.map fun line => e.title ++ ": " ++ line :=
        congrArg BatchFindings.errors (findings_of_ok hpresent h)
      rw [herrors, List.map_eq_nil_iff, Report.lines, List.map_eq_nil_iff]
      constructor
      · intro hsettled
        cases hsettled with
        | valid _ hempty => exact Except.ok.inj (h.symm.trans hempty)
        | skipped _ habsent => exact absurd hpresent habsent
      · rintro rfl
        exact .valid hpresent h
  · obtain ⟨line, hline⟩ := exists_missing hpresent
    have herrors : e.errors files config base = if e.optional then [] else [line] :=
      congrArg BatchFindings.errors (findings_of_missing hline)
    rw [herrors]
    constructor
    · intro hsettled
      cases hsettled with
      | valid present => exact absurd present hpresent
      | skipped optional => rw [if_pos optional]
    · intro hnone
      refine .skipped ?_ hpresent
      by_contra hrequired
      rw [if_neg hrequired] at hnone
      cases hnone

end ManifestEntry

/-- What is found about the entries of a manifest, each by itself. -/
def Manifest.findings (files : FileTree) (config : Config) (base : String) (entries : Manifest) :
    BatchFindings where
  warnings := entries.flatMap (·.warnings files base)
  errors := entries.flatMap (·.errors files config base)
  checked := entries.countP (·.Present files base)

/-- The findings of the first entry come first. -/
theorem Manifest.findings_cons (e : ManifestEntry) (rest : Manifest) :
    Manifest.findings files config base (e :: rest) =
      (e.findings files config base).append (Manifest.findings files config base rest) := by
  simp [findings, ManifestEntry.findings, BatchFindings.append, List.countP_cons, Nat.add_comm]

/-! ## Sessions that have only validated -/

/-- Validating by itself runs on the empty store, whatever the configuration says about stores. -/
theorem Session.validateFile_start (config : Config) (files : FileTree) (schema data : String) :
    ((Session.start config files).validateFile schema data).1 =
      (config.validateFile files schema data).outcome .empty := by
  have hstore : (Session.start config files).shared?.getD .empty = .empty := by
    unfold Session.start Validator.ofConfig Session.shared?
    cases config.shareCache <;> rfl
  rw [Session.validateFile, Session.run, hstore]
  rfl

/-- A session of a batch: it keeps its store, and what the store pins is what the files hold. -/
def Session.Unaffected (files : FileTree) (config : Config) (s : Session) : Prop :=
  ∃ p, s.Follows { config with shareCache := true } p ∧ p.files = files ∧
    ∀ l, p.texts.read l = files.texts.read l

namespace Session.Unaffected

/-- A batch starts with such a session. -/
theorem start (hnormal : files.workingDirectory.Normal) :
    (Session.start { config with shareCache := true } files).Unaffected files config :=
  ⟨⟨files, []⟩, Session.follows_start rfl hnormal, rfl, fun _ => rfl⟩

/-- The files stay. -/
theorem files_eq (h : s.Unaffected files config) : s.files = files := by
  obtain ⟨p, hfollows, hfiles, -⟩ := h
  rw [hfollows.files, hfiles]

/-- A validation answers as it does by itself, and leaves such a session. -/
theorem validateFile (h : s.Unaffected files config) (schema data : String) :
    (s.validateFile schema data).1 = ((Session.start config files).validateFile schema data).1 ∧
      (s.validateFile schema data).2.Unaffected files config := by
  obtain ⟨p, hfollows, rfl, hread⟩ := h
  have hrun : s.validateFile schema data =
      s.run (({ config with shareCache := true } : Config).validateAt s.files
        (s.files.locate schema) (Document.readValue p.files (p.files.locate data) none)) := by
    rw [Session.validateFile, Config.validateFile, hfollows.config, hfollows.files]
  obtain ⟨hanswer, hleft⟩ :=
    hfollows.validate schema (Document.readValue p.files (p.files.locate data) none)
  rw [← hrun] at hanswer hleft
  refine ⟨?_, _, hleft, rfl, fun l => (p.read_pin _ l).trans (hread l)⟩
  -- The pinned files read like the files, and whether stores are kept is no matter of validation.
  rw [hanswer, Session.validateFile_start]
  exact Config.validateAt_congr config p.files.listed p.listed hread
    (hfollows.normal.resolve schema) _

/-- An entry comes to what it comes to by itself: to its failure, or to its own warnings and
errors. -/
theorem checkEntry (h : s.Unaffected files config) (base : String) (e : ManifestEntry) :
    ((∃ cause, e.Fails files config base cause ∧
        (checkEntry base e s).1 = .error (.entry e.title cause)) ∨
      (∀ cause, ¬e.Fails files config base cause) ∧
        (checkEntry base e s).1 = .ok (e.findings files config base)) ∧
    (LinkedSchema.checkEntry base e s).2.Unaffected files config := by
  have hfiles := h.files_eq
  by_cases hpresent : e.Present files base
  · obtain ⟨hanswer, hleft⟩ := h.validateFile (joinPaths base e.schema) (joinPaths base e.path)
    change _ = e.alone files config base at hanswer
    rw [ManifestEntry.checkEntry_of_present (hfiles ▸ hpresent)]
    cases hrun : s.validateFile (joinPaths base e.schema) (joinPaths base e.path) with
    | mk answer left =>
      rw [hrun] at hanswer hleft
      cases answer with
      | error cause => exact ⟨.inl ⟨cause, ⟨hpresent, hanswer.symm⟩, rfl⟩, hleft⟩
      | ok report =>
        refine ⟨.inr ⟨fun cause hfails => ?_, ?_⟩, hleft⟩
        · have hcause := hanswer.trans hfails.2
          cases hcause
        · rw [ManifestEntry.findings_of_ok hpresent hanswer.symm]
  · -- Nothing is validated, so the entry cannot fail, and the session stays as it is.
    obtain ⟨line, hline⟩ := ManifestEntry.exists_missing hpresent
    rw [ManifestEntry.checkEntry_of_missing (hfiles ▸ hline)]
    refine ⟨.inr ⟨fun cause hfails => hpresent hfails.1, ?_⟩, h⟩
    rw [ManifestEntry.findings_of_missing hline]

end Session.Unaffected

/-! ## The entries of a manifest -/

/-- Without entries nothing is found. -/
theorem checkEntries_nil (base : String) (s : Session) : checkEntries base [] s = .ok .none := rfl

/-- The first entry is checked, and the others on the session it leaves. -/
theorem checkEntries_cons (rest : Manifest) :
    checkEntries base (e :: rest) s = match checkEntry base e s with
      | (.error failure, _) => .error failure
      | (.ok found, left) => (checkEntries base rest left).map found.append := (rfl)

/-- A failure of the first entry ends the run. -/
theorem checkEntries_of_error {rest : Manifest} {failure : CommandError}
    (h : (checkEntry base e s).1 = .error failure) :
    checkEntries base (e :: rest) s = .error failure := by
  rcases hcheck : checkEntry base e s with ⟨result, left⟩
  rw [hcheck] at h
  subst h
  rw [checkEntries_cons, hcheck]

/-- What is found in the first entry comes in front of what is found in the others. -/
theorem checkEntries_of_ok {rest : Manifest} {found : BatchFindings}
    (h : (checkEntry base e s).1 = .ok found) :
    checkEntries base (e :: rest) s =
      (checkEntries base rest (checkEntry base e s).2).map found.append := by
  rcases hcheck : checkEntry base e s with ⟨result, left⟩
  rw [hcheck] at h
  subst h
  rw [checkEntries_cons, hcheck]

/-- A run returns exactly when no entry fails, and then it has found what each entry comes to. -/
theorem checkEntries_eq_ok_iff (h : s.Unaffected files config) {found : BatchFindings} :
    checkEntries base entries s = .ok found ↔
      (∀ e ∈ entries, ∀ cause, ¬ManifestEntry.Fails files config base e cause) ∧
        found = Manifest.findings files config base entries := by
  induction entries generalizing s found with
  | nil => simp [checkEntries_nil, Manifest.findings, BatchFindings.none, eq_comm]
  | cons e rest ih =>
    obtain ⟨hcheck, hleft⟩ := h.checkEntry base e
    rcases hcheck with ⟨cause, hfails, hresult⟩ | ⟨hno, hresult⟩
    · rw [checkEntries_of_error hresult]
      constructor
      · intro hfound
        cases hfound
      · rintro ⟨hall, -⟩
        exact absurd hfails (hall e List.mem_cons_self cause)
    · rw [checkEntries_of_ok hresult, map_eq_ok, Manifest.findings_cons]
      constructor
      · rintro ⟨others, hothers, rfl⟩
        obtain ⟨hall, rfl⟩ := (ih hleft).mp hothers
        exact ⟨List.forall_mem_cons.mpr ⟨hno, hall⟩, rfl⟩
      · rintro ⟨hall, rfl⟩
        have hrest := (ih hleft).mpr ⟨(List.forall_mem_cons.mp hall).2, rfl⟩
        exact ⟨_, hrest, rfl⟩

/-! ## Batches -/

/-- A batch runs its entries in a session of its own. -/
theorem runBatch_of_read {path : String} (h : Manifest.read files path = .ok entries) :
    runBatch files config path =
      (checkEntries (directoryPath path) entries
        (.start { config with shareCache := true } files)).map BatchFindings.outcome := by
  unfold runBatch
  rw [h]
  dsimp only [bind, Except.bind]
  cases checkEntries (directoryPath path) entries
    (.start { config with shareCache := true } files) <;> rfl

/-- A batch exits with zero exactly when there are no errors. -/
theorem BatchFindings.code_eq_zero_iff (f : BatchFindings) :
    f.outcome.code = 0 ↔ f.errors = [] := by
  unfold outcome
  cases f.errors <;> simp

/-- A directory with a manifest and other files. -/
def batchFiles (manifest : String) (others : List (String × String)) : FileTree where
  workingDirectory := ⟨["w"]⟩
  entries := (("m", manifest) :: others).map fun (name, text) => (⟨["w", name]⟩, .file text.toUTF8)

/-- The paths of such a directory start in a normal place. -/
theorem normal_batchFiles (manifest : String) (others : List (String × String)) :
    (batchFiles manifest others).workingDirectory.Normal :=
  (by decide : (⟨["w"]⟩ : Location).Normal)

/-- A batch passes exactly when every entry is settled: its document and its schema exist and the
document is valid, or the entry is optional and one of the two does not exist. -/
theorem runBatch_passes_iff (files : FileTree) (config : Config) (path : String)
    (hnormal : files.workingDirectory.Normal) :
    (∃ outcome, runBatch files config path = .ok outcome ∧ outcome.code = 0) ↔
      ∃ entries, Manifest.read files path = .ok entries ∧
        ∀ e ∈ entries, ManifestEntry.Settled files config (directoryPath path) e := by
  have hstart : (Session.start { config with shareCache := true } files).Unaffected files config :=
    .start hnormal
  constructor
  · rintro ⟨outcome, hrun, hcode⟩
    cases hread : Manifest.read files path with
    | error failure =>
      unfold runBatch at hrun
      rw [hread] at hrun
      cases hrun
    | ok entries =>
      rw [runBatch_of_read hread, map_eq_ok] at hrun
      obtain ⟨found, hfound, rfl⟩ := hrun
      obtain ⟨hno, rfl⟩ := (checkEntries_eq_ok_iff hstart).mp hfound
      have herrors := List.flatMap_eq_nil_iff.mp ((BatchFindings.code_eq_zero_iff _).mp hcode)
      exact ⟨entries, rfl, fun e he => (ManifestEntry.settled_iff (hno e he)).mpr (herrors e he)⟩
  · rintro ⟨entries, hread, hsettled⟩
    have hno : ∀ e ∈ entries, ∀ cause,
        ¬ManifestEntry.Fails files config (directoryPath path) e cause :=
      fun e he cause => (hsettled e he).not_fails
    have herrors : (Manifest.findings files config (directoryPath path) entries).errors = [] :=
      List.flatMap_eq_nil_iff.mpr fun e he =>
        (ManifestEntry.settled_iff (hno e he)).mp (hsettled e he)
    refine ⟨_, ?_, (BatchFindings.code_eq_zero_iff _).mpr herrors⟩
    rw [runBatch_of_read hread, map_eq_ok]
    exact ⟨_, (checkEntries_eq_ok_iff hstart).mpr ⟨hno, rfl⟩, rfl⟩

/-- An optional document whose schema does not exist. -/
def uncheckedBatch : FileTree :=
  batchFiles "entries:\n- path: a\n  schema: t\n  optional: true\n" [("a", "1")]

/-- The manifest has one entry. -/
theorem read_uncheckedBatch :
    Manifest.read uncheckedBatch "m" = .ok [⟨"a", "t", none, true⟩] := by decide +kernel

/-- The batch passes, as its entry is optional and its schema does not exist. -/
theorem uncheckedBatch_passes :
    ∃ outcome, runBatch uncheckedBatch { engine := .structural } "m" = .ok outcome ∧
      outcome.code = 0 := by
  refine (runBatch_passes_iff uncheckedBatch { engine := .structural } "m"
    (normal_batchFiles _ _)).mpr ⟨_, read_uncheckedBatch, fun e he => ?_⟩
  rw [List.mem_singleton.mp he]
  exact .skipped rfl (by decide +kernel)

/-- A batch can pass with a document that exists and was validated against nothing. -/
theorem unchecked_passes :
    ¬∀ (files : FileTree) (config : Config) (path : String) (outcome : Outcome),
      files.workingDirectory.Normal → runBatch files config path = .ok outcome →
      outcome.code = 0 →
      ∃ entries, Manifest.read files path = .ok entries ∧ ∀ e ∈ entries,
        (files.pathExists (joinPaths (directoryPath path) e.path) = true →
          ManifestEntry.alone files config (directoryPath path) e = .ok []) ∧
        (e.optional = false →
          files.pathExists (joinPaths (directoryPath path) e.path) = true) := by
  intro h
  have hrun : runBatch uncheckedBatch { engine := .structural } "m" =
      .ok ⟨0, "Warnings:\n- Missing schema: t (for a)\nValidation passed (0 documents).\n"⟩ := by
    rw [runBatch_of_read read_uncheckedBatch]
    decide +kernel
  obtain ⟨entries, hread, hall⟩ := h _ _ _ _ (normal_batchFiles _ _) hrun rfl
  obtain rfl := Except.ok.inj (read_uncheckedBatch.symm.trans hread)
  have hvalid := (hall _ List.mem_cons_self).1 (by decide +kernel)
  have hmissing : ManifestEntry.alone uncheckedBatch { engine := .structural } (directoryPath "m")
      ⟨"a", "t", none, true⟩ = .error (.documentNotFound ⟨["w", "t"]⟩ none) := by decide +kernel
  cases hmissing.symm.trans hvalid

end LinkedSchema
