import LinkedSchema.Proofs.Survey
import LinkedSchema.Proofs.WrittenPatterns

/-!
# Patterns in both validators

Under a schema with the keyword `pattern` alone, each validator says of a text what a search of the
text says: the structural walk searches for the pattern itself, and the draft-7 engine for the
pattern that it has prepared, which is the pattern or the pattern with its shorthands written out
(`Draft7.compilePattern?_eq`). On plain texts, such as those of ASCII characters, the two searches
are the same for every pattern without comments (`pattern_reports_agree`). On other texts they are
not, and where a search breaks off, it is an error for the one and a finding for the other.
-/

namespace LinkedSchema

open Pattern Loading

/-- A schema with the keyword `pattern` alone. -/
def patternNode (p : String) : Json := .obj [("pattern", .str p)]

variable {files : Texts} {s : Store} {schema : Document} {p text : String} {r : Regex}

/-! ## The structural walk -/

/-- The empty pattern is found in every text. -/
theorem search?_of_compile?_empty (hr : compile? "" = some r) (text : String) :
    r.search? text = some true := by
  have hempty : compile? "" = some .empty := by decide +kernel
  rw [hempty] at hr
  cases hr
  refine congrArg some (List.any_eq_true.mpr ⟨true, ?_, rfl⟩)
  exact List.mem_replicate.mpr ⟨Nat.succ_ne_zero _, rfl⟩

namespace Structural

/-- A text is searched for the pattern, unless the pattern is empty. -/
theorem checkString_pattern (text p : String) (place : Locator) :
    checkString text [("pattern", .str p)] place =
      if p.isEmpty then pure [] else match search? p text with
        | none => throw (.invalidPattern p place)
        | some true => pure []
        | some false =>
          pure [⟨place, .pattern, "string does not match pattern '" ++ p ++ "'"⟩] := rfl

/-- What the walk says of a text is what the search for the pattern says; a search that breaks off
is an error. -/
theorem validate_pattern (files : Texts) (s : Store) (settings : Settings) (schema : Document)
    (hroot : schema.root = patternNode p) (hr : compile? p = some r) (text : String) :
    (validate files settings schema (.str text)).outcome s = match r.search? text with
      | none => .error (.invalidPattern p .root)
      | some found => .ok (if found then []
          else [⟨.root, .pattern, "string does not match pattern '" ++ p ++ "'"⟩]) := by
  have hsearch : search? p text = r.search? text := by
    rw [search?, hr]
    rfl
  have hrun (report : Except SchemaError Report)
      (h : checkString text [("pattern", .str p)] .root = report) :
      (validate files settings schema (.str text)).outcome s = report := by
    unfold validate
    rw [hroot, patternNode, validateNode_plain rfl rfl rfl]
    change (ExceptT.mk (pure (checkString text [("pattern", .str p)] .root)) >>= fun rest =>
      pure (checkEnum (.str text) [("pattern", .str p)] .root ++ rest) :
        Loading Report).outcome s = _
    rw [h]
    cases report <;> rfl
  refine hrun _ ?_
  rw [checkString_pattern, hsearch]
  split
  · -- The walk does not search for the empty pattern; the search would find it.
    next hempty =>
    rw [String.isEmpty_iff] at hempty
    subst hempty
    rw [search?_of_compile?_empty hr]
    rfl
  · cases r.search? text with
    | none => rfl
    | some found => cases found <;> rfl

end Structural

namespace Draft7

variable {u : Uri} {registry : Registry}

/-- A schema that is a pattern has no references that could fail. -/
theorem outcome_check_pattern (files : Texts) (s : Store) (limit : Nat)
    (hroot : schema.root = patternNode p) :
    (ReferenceGraph.check files schema limit).outcome s = .ok () := by
  obtain ⟨l, root⟩ := schema
  cases hroot
  rfl

/-- A schema without references is the only document of its registry. -/
theorem outcome_ofSchema_pattern (files : Texts) (s : Store) (rounds : Nat) (fault : SchemaError)
    (hroot : schema.root = patternNode p) :
    (Registry.ofSchema files rounds schema u fault).outcome s = .ok ⟨[(u, schema.root)]⟩ := by
  have henlist : Registry.enlist? [⟨u, schema.root⟩] ⟨[(u, schema.root)]⟩ =
      some (⟨[(u, schema.root)]⟩, []) := by
    rw [hroot]
    change some (if u = u then _ else _, _) = _
    rw [if_pos rfl]
    rfl
  unfold Registry.ofSchema
  cases rounds with
  | zero => rfl
  | succ rounds =>
    rw [Registry.complete, henlist]
    · cases rounds <;> rfl
    · exact fun h => List.cons_ne_nil _ _ h

/-- The engine reads the node as one assertion, with the pattern as it has compiled it. -/
theorem read?_pattern (hr : compilePattern? p = some r) :
    Node.read? (patternNode p) = some (.rules [.assertion (.pattern p r)]) := by
  have hrule : Rule.read? [("pattern", .str p)] "pattern" (.str p) =
      some [.assertion (.pattern p r)] := by
    change (compilePattern? p).bind _ = _
    rw [hr]
    rfl
  change (gather? _ [("pattern", Json.str p)]).map Node.rules = _
  rw [gather?]
  dsimp only
  rw [hrule]
  rfl

/-- Where a node has rules, a survey goes on to the schemas in them. -/
theorem survey_rules {levels : Nat} {node : Json} {rules : List Rule}
    (hread : Node.read? node = some (.rules rules)) (reached : Reached) :
    survey registry (levels + 1) u node reached =
      visitAll (survey registry levels u) (rules.flatMap Rule.subschemas) reached := by
  rw [survey_succ, hread]

/-- A schema that is a pattern is well formed when the pattern compiles. -/
theorem isWellFormed_pattern (hr : compilePattern? p = some r) :
    isWellFormed registry u (patternNode p) = true := by
  have hsurvey (levels : Nat) : survey registry (levels + 1) u (patternNode p) [⟨u, []⟩] =
      some [⟨u, []⟩] := survey_rules (read?_pattern hr) _
  exact congrArg Option.isSome (hsurvey ((registry.addressBound + 1) * (registry.size + 1)))

/-- The engine finds in a text what the pattern finds. -/
theorem evaluate_pattern (same : Json → Json → Bool) (hr : compilePattern? p = some r)
    (levels : Nat) (text : String) :
    evaluate same registry (levels + 1) u (patternNode p) (.str text) .root =
      some (findingsAt .root (Assertion.patternMessages text p r)) := by
  rw [evaluate, evaluateNode, read?_pattern hr]
  change gather? _ [Rule.assertion (.pattern p r)] = _
  rw [gather?, gather?]
  exact congrArg some (List.append_nil _)

/-- Each message about the pattern is one violation at the root. -/
theorem reportOf_pattern (text p : String) (r : Regex) (v : Json) :
    reportOf v (findingsAt .root (Assertion.patternMessages text p r)) =
      (Assertion.patternMessages text p r).map fun message => ⟨.root, .engine, message⟩ := by
  have hnone : reportOf v (findingsAt .root []) = [] := by
    rw [reportOf, findingsAt, List.map_nil, List.mergeSort_nil, List.map_nil]
  have hone (message : String) : reportOf v (findingsAt .root [message]) =
      [⟨.root, .engine, message⟩] := by
    rw [reportOf, findingsAt, List.map_singleton, List.mergeSort_singleton]
    rfl
  unfold Assertion.patternMessages
  split
  · exact hone _
  · next found _ =>
    cases found with
    | true => exact hnone
    | false => exact hone _

/-- What the engine says of a text is what the search for the prepared pattern says. -/
theorem validate_pattern (files : Texts) (s : Store) (maxRefChain : Nat) (schema : Document)
    (hroot : schema.root = patternNode p) (hu : Uri.ofFile? schema.location.names = some u)
    (hr : compilePattern? p = some r) (text : String) :
    (validate files maxRefChain schema (.str text)).outcome s =
      .ok ((Assertion.patternMessages text p r).map fun message => ⟨.root, .engine, message⟩) := by
  unfold validate validateBy
  rw [outcome_bind_ok (outcome_check_pattern files s maxRefChain hroot), hu]
  dsimp only
  rw [outcome_bind_ok (outcome_ofSchema_pattern files _ _ _ hroot), hroot,
    if_pos (isWellFormed_pattern hr)]
  obtain ⟨levels, hlevels⟩ : ∃ n, evaluationLevels ⟨[(u, patternNode p)]⟩ (.str text) = n + 1 :=
    Nat.exists_eq_add_one.mpr (Nat.mul_pos (Nat.succ_pos _) (Nat.succ_pos _))
  rw [hlevels, evaluate_pattern _ hr]
  dsimp only
  rw [reportOf_pattern]
  rfl

end Draft7

/-! ## Both validators -/

/-- A pattern compiles for the walk exactly when it is parsed with the full syntax. -/
theorem Pattern.compile?_eq_some_iff : compile? p = some r ↔ Regex.parse .full p = .ok r := by
  unfold compile?
  cases Regex.parse .full p with
  | error e =>
    constructor
    · intro h
      cases h
    · intro h
      cases h
  | ok r' => exact ⟨fun h => congrArg Except.ok (Option.some.inj h), fun h =>
      congrArg some (Except.ok.inj h)⟩

/-- The expression that is searched for a pattern of a schema is that of the pattern, or that with
its shorthands written out. -/
theorem Draft7.compilePattern?_eq {r' : Regex} (hash : '#' ∉ p.toList) (hr : compile? p = some r)
    (hr' : Draft7.compilePattern? p = some r') : r' = r ∨ r' = r.written := by
  obtain ⟨prepared, hprepared, hcompiled⟩ := Option.bind_eq_some_iff.mp hr'
  unfold Draft7.preparePattern at hprepared
  split at hprepared
  · -- The shorthands are written out.
    cases hprepared
    have hwritten := Regex.parse_writeOut hash (compile?_eq_some_iff.mp hr)
    rw [compile?_eq_some_iff.mpr hwritten] at hcompiled
    exact .inr (Option.some.inj hcompiled).symm
  · cases hprepared
    rw [hr] at hcompiled
    exact .inl (Option.some.inj hcompiled).symm
  · cases hprepared

/-- Both validators say of a text what a search for their expression of the pattern says; only where
the search breaks off, one has an error and the other a finding. The two expressions of a pattern
without comments are the same, but for shorthands written out; so on a plain text, such as one of
ASCII characters, both validators report the text or neither does. -/
theorem pattern_reports_agree (files : FileTree) (s : Store) (settings : Structural.Settings)
    (maxRefChain : Nat) (schema : Document) (u : Uri) (p text : String) (r r' : Regex)
    (hroot : schema.root = patternNode p) (hu : Uri.ofFile? schema.location.names = some u)
    (hr : compile? p = some r) (hr' : Draft7.compilePattern? p = some r') :
    (Structural.validate files settings schema (.str text)).outcome s =
        (match r.search? text with
          | none => .error (.invalidPattern p .root)
          | some found => .ok (if found then []
              else [⟨.root, .pattern, "string does not match pattern '" ++ p ++ "'"⟩])) ∧
      (Draft7.validate files maxRefChain schema (.str text)).outcome s =
        .ok ((Draft7.Assertion.patternMessages text p r').map fun message =>
          ⟨.root, .engine, message⟩) ∧
      ('#' ∉ p.toList → (r' = r ∨ r' = r.written) ∧ (Plain text.toList →
        r'.search? text = r.search? text ∧ (r.search? text ≠ none → ∃ report findings,
          (Structural.validate files settings schema (.str text)).outcome s = .ok report ∧
          (Draft7.validate files maxRefChain schema (.str text)).outcome s = .ok findings ∧
          ((∃ v ∈ report, v.kind = .pattern) ↔ findings ≠ [])))) := by
  have hwalk := Structural.validate_pattern files s settings schema hroot hr text
  have hengine := Draft7.validate_pattern files s maxRefChain schema hroot hu hr' text
  refine ⟨hwalk, hengine, fun hash => ?_⟩
  have heq : r' = r ∨ r' = r.written := Draft7.compilePattern?_eq hash hr hr'
  refine ⟨heq, fun hplain => ?_⟩
  have hsearch : r'.search? text = r.search? text := by
    obtain rfl | rfl := heq
    · rfl
    · exact r.search?_written hplain
  refine ⟨hsearch, fun hends => ?_⟩
  rw [hwalk, hengine, Draft7.Assertion.patternMessages, hsearch]
  cases hfound : r.search? text with
  | none => exact (hends hfound).elim
  | some found =>
    cases found with
    | true => exact ⟨[], [], rfl, rfl, by simp⟩
    | false => exact ⟨_, _, rfl, rfl, by simp [Draft7.demand]⟩

/-- Numbers between full stops, and one more character. -/
def versionPattern : String := "^v[\\d]+(\\.\\d+)*\\S$"

/-- A schema of versions. -/
def versionSchema : Document where
  location := ⟨["version.json"]⟩
  root := patternNode versionPattern

/-- A text that ends in a space is no version for both validators. -/
theorem version_reported :
    ∃ r r' u, compile? versionPattern = some r ∧ Draft7.compilePattern? versionPattern = some r' ∧
      Uri.ofFile? versionSchema.location.names = some u ∧
      (Structural.validate (.empty .root) ⟨64, 512, false⟩ versionSchema (.str "v1.20. ")).outcome
        .empty = .ok [⟨.root, .pattern, "string does not match pattern '^v[\\d]+(\\.\\d+)*\\S$'"⟩] ∧
      (Draft7.validate (.empty .root) 64 versionSchema (.str "v1.20. ")).outcome .empty =
        .ok [⟨.root, .engine, "\"v1.20. \" does not match \"^v[\\d]+(\\.\\d+)*\\S$\""⟩] := by
  have hsearch : (compile? versionPattern).bind (·.search? "v1.20. ") = some false := by
    decide +kernel
  have haccepted : (Draft7.compilePattern? versionPattern).isSome = true := by decide +kernel
  have hplain : ∀ c ∈ "v1.20. ".toList, c.toNat < 128 :=
    List.all_iff_forall_prop.mp (by decide)
  obtain ⟨r, hr, hfound⟩ := Option.bind_eq_some_iff.mp hsearch
  obtain ⟨r', hr'⟩ := Option.isSome_iff_exists.mp haccepted
  obtain ⟨u, hu⟩ : ∃ u, Uri.ofFile? versionSchema.location.names = some u :=
    Option.isSome_iff_exists.mp (by decide +kernel)
  obtain ⟨hwalk, hengine, hagree⟩ := pattern_reports_agree (.empty .root) .empty ⟨64, 512, false⟩ 64
    versionSchema u versionPattern "v1.20. " r r' rfl hu hr hr'
  obtain ⟨hsame, -⟩ := (hagree (by decide)).2 fun c hc => isPlain_of_ascii (hplain c hc)
  rw [hfound] at hwalk hsame
  rw [Draft7.Assertion.patternMessages, hsame] at hengine
  exact ⟨r, r', u, hr, hr', hu, hwalk.trans (by rfl), hengine.trans (by decide +kernel)⟩

/-- A schema of single digits. -/
def digitSchema : Document where
  location := ⟨["digit.json"]⟩
  root := patternNode "^\\d$"

/-- A digit that is no ASCII character is a digit for one validator only. -/
theorem arabicDigit_disagrees :
    ¬∀ (files : FileTree) (s : Store) (settings : Structural.Settings) (maxRefChain : Nat)
      (schema : Document) (u : Uri) (p text : String) (r r' : Regex),
      schema.root = patternNode p → Uri.ofFile? schema.location.names = some u →
      compile? p = some r → Draft7.compilePattern? p = some r' →
      ∀ report findings,
        (Structural.validate files settings schema (.str text)).outcome s = .ok report →
        (Draft7.validate files maxRefChain schema (.str text)).outcome s = .ok findings →
        ((∃ v ∈ report, v.kind = .pattern) ↔ findings ≠ []) := by
  intro h
  have hwalkSearch : (compile? "^\\d$").bind (·.search? "٣") = some true := by decide +kernel
  have hengineSearch : (Draft7.compilePattern? "^\\d$").bind (·.search? "٣") = some false := by
    decide +kernel
  obtain ⟨r, hr, hfound⟩ := Option.bind_eq_some_iff.mp hwalkSearch
  obtain ⟨r', hr', hmissed⟩ := Option.bind_eq_some_iff.mp hengineSearch
  obtain ⟨u, hu⟩ : ∃ u, Uri.ofFile? digitSchema.location.names = some u :=
    Option.isSome_iff_exists.mp (by decide +kernel)
  have hwalk :=
    Structural.validate_pattern (.empty .root) .empty ⟨64, 512, false⟩ digitSchema rfl hr "٣"
  have hengine := Draft7.validate_pattern (.empty .root) .empty 64 digitSchema rfl hu hr' "٣"
  rw [hfound] at hwalk
  rw [Draft7.Assertion.patternMessages, hmissed] at hengine
  obtain ⟨v, hv, -⟩ := (h (.empty .root) .empty ⟨64, 512, false⟩ 64 digitSchema u _ "٣" r r' rfl
    hu hr hr' [] _ hwalk hengine).mpr (List.cons_ne_nil _ _)
  cases hv

end LinkedSchema
