import LinkedSchema.Configuration.Sources
import LinkedSchema.Proofs.Loading
import LinkedSchema.Proofs.Records
import LinkedSchema.Proofs.SettingTexts

/-!
# Settings in layers

Each of the five settings can come from a flag, from a variable, from a field of the file, or be the
standard one. Here a `Setting` is a name with a type of values, and everything that depends on it is
a table: its variable and how that is read, its field and how that is read, its flag. Which texts of
a variable stand for which value is said without the readers, by `Setting.Denotes`, and what a file
must hold by `Config.Holds`; so `Source.Faulty` can say what is wrong with each source. A layer
offers values for some settings, and `Config.overlay` puts it on top of what is there.

Each step of `Config.build` is then one equation: it stops at the first fault of its sources, or it
puts a layer on top (`Config.ofText?_eq`, `Config.withEnvironment_eq`, `Config.withFlags_eq`). All
sources are looked at whatever the layers above them say, so `Config.build` fails with the fault of
the first source that has one, and otherwise every setting is the topmost one that is offered
(`Config.build_eq`).
-/

namespace LinkedSchema

/-! ## Settings as a table -/

/-- A setting of a validator. -/
inductive Setting where
  | engine
  | maxRefChain
  | maxDepth
  | verboseAnyOf
  | shareCache
deriving DecidableEq

namespace Setting

/-- All settings, in the order in which the environment is read. -/
def all : List Setting := [engine, maxRefChain, maxDepth, verboseAnyOf, shareCache]

/-- Every setting is one of them. -/
theorem mem_all (s : Setting) : s ∈ all := by
  cases s <;> decide

/-- The values of a setting. -/
abbrev Value : Setting → Type
  | engine => EngineChoice
  | maxRefChain | maxDepth => Nat
  | verboseAnyOf | shareCache => Bool

/-- The value of a setting in a configuration. -/
def get (config : Config) : (s : Setting) → s.Value
  | engine => config.engine
  | maxRefChain => config.maxRefChain
  | maxDepth => config.maxDepth
  | verboseAnyOf => config.verboseAnyOf
  | shareCache => config.shareCache

/-- The standard value of a setting. -/
def standard : (s : Setting) → s.Value
  | engine => .auto
  | maxRefChain => 64
  | maxDepth => 512
  | verboseAnyOf | shareCache => false

/-- A configuration starts from the standard values. -/
theorem get_default (s : Setting) : s.get {} = s.standard := by
  cases s <;> rfl

/-- The variable of a setting. -/
def variableName : Setting → String
  | engine => "BRAND_SCHEMA_ENGINE"
  | maxRefChain => "BRAND_SCHEMA_MAX_REF_CHAIN"
  | maxDepth => "BRAND_SCHEMA_MAX_DEPTH"
  | verboseAnyOf => "BRAND_SCHEMA_VERBOSE_ANYOF"
  | shareCache => "BRAND_SCHEMA_SHARE_CACHE"

/-- The value that a text in the environment stands for. -/
def ofText? : (s : Setting) → String → Option s.Value
  | engine, raw => (EngineChoice.read raw).toOption
  | maxRefChain, raw | maxDepth, raw => readCeiling? raw
  | verboseAnyOf, raw | shareCache, raw => readSwitch? raw

/-- A text in the environment stands for a value of a setting: an engine and a switch are one of a
few words, in letters of either case, a ceiling is a positive number of 64 bits in decimal, and
there may be blanks around them. -/
def Denotes : (s : Setting) → String → s.Value → Prop
  | engine, raw, choice => ∃ word ∈ choice.words, Text.Spells raw word
  | maxRefChain, raw, n | maxDepth, raw, n => WritesCeiling raw n
  | verboseAnyOf, raw, on | shareCache, raw, on => ∃ word ∈ switchWords on, Text.Spells raw word

/-- A variable is read as the value that its text stands for, and not at all if there is none. -/
theorem ofText?_eq_some_iff {s : Setting} {raw : String} {value : s.Value} :
    s.ofText? raw = some value ↔ s.Denotes raw value := by
  cases s with
  | engine =>
    have hread : ofText? engine raw = some value ↔ EngineChoice.read raw = .ok value := by
      rw [ofText?]
      cases EngineChoice.read raw <;> simp [Except.toOption]
    exact hread.trans EngineChoice.read_eq_ok_iff
  | maxRefChain | maxDepth =>
    rw [ofText?, Denotes]
    exact readCeiling?_eq_some_iff
  | verboseAnyOf | shareCache =>
    rw [ofText?, Denotes]
    exact readSwitch?_eq_some_iff

/-- A variable can be read when its text stands for a value. -/
theorem isSome_ofText?_iff {s : Setting} {raw : String} :
    (s.ofText? raw).isSome ↔ ∃ value, s.Denotes raw value := by
  rw [Option.isSome_iff_exists]
  simp only [ofText?_eq_some_iff]

/-- The value that the environment offers. -/
def inEnvironment? (env : Environment) (s : Setting) : Option s.Value :=
  (env.lookup s.variableName).bind s.ofText?

/-- The field of a setting in a file. -/
def fieldName : Setting → String
  | engine => "engine"
  | maxRefChain => "max_ref_chain"
  | maxDepth => "max_depth"
  | verboseAnyOf => "verbose_any_of"
  | shareCache => "share_cache"

/-- The value that a field of a file stands for. -/
def ofNode? : (s : Setting) → Yaml.Node → Option s.Value
  | engine => Yaml.Node.choice? EngineChoice.ofName?
  | maxRefChain | maxDepth => Yaml.Node.natural?
  | verboseAnyOf | shareCache => Yaml.Node.bool?

/-- The value of a field stands for a value of a setting: an engine is named by its own name, and
what a number and a switch are is for YAML to say. -/
def IsWritten : (s : Setting) → Yaml.Node → s.Value → Prop
  | engine, node, choice => node.choice? some = some choice.name
  | maxRefChain, node, n | maxDepth, node, n => node.natural? = some n
  | verboseAnyOf, node, on | shareCache, node, on => node.bool? = some on

/-- A field is read as the value that is written there, and not at all if there is none. -/
theorem ofNode?_eq_some_iff {s : Setting} {node : Yaml.Node} {value : s.Value} :
    s.ofNode? node = some value ↔ s.IsWritten node value := by
  cases s with
  | engine =>
    rw [ofNode?, IsWritten, Yaml.Node.choice?_eq_bind, Option.bind_eq_some_iff]
    simp only [EngineChoice.ofName?_eq_some_iff, exists_eq_right]
  | _ => exact Iff.rfl

/-- The value that the fields of a file offer. -/
def inFields? (fields : List (String × Yaml.Node)) (s : Setting) : Option s.Value :=
  (fields.lookup s.fieldName).bind s.ofNode?

/-- The value that the flags offer: a switch can only be turned on, and sharing has no flag. -/
def inFlags? (flags : Flags) : (s : Setting) → Option s.Value
  | engine => flags.engine
  | maxRefChain => flags.maxRefChain
  | maxDepth => flags.maxDepth
  | verboseAnyOf => if flags.verboseAnyOf then some true else none
  | shareCache => none

end Setting

namespace Config

/-- A configuration under a layer that offers values for some settings. -/
def overlay (layer : (s : Setting) → Option s.Value) (config : Config) : Config where
  engine := (layer .engine).getD config.engine
  maxRefChain := (layer .maxRefChain).getD config.maxRefChain
  maxDepth := (layer .maxDepth).getD config.maxDepth
  verboseAnyOf := (layer .verboseAnyOf).getD config.verboseAnyOf
  shareCache := (layer .shareCache).getD config.shareCache

/-- A setting is what the layer offers, or else what it was. -/
@[simp]
theorem get_overlay (layer : (s : Setting) → Option s.Value) (config : Config) (s : Setting) :
    s.get (config.overlay layer) = (layer s).getD (s.get config) := by
  cases s <;> rfl

end Config

/-! ## Steps with faults -/

section Steps

variable {ε α β : Type}

/-- The result of a step: its fault if it has one, or else a value. -/
def outcomeOf (fault : Option ε) (value : α) : Except ε α :=
  match fault with
  | some e => .error e
  | none => .ok value

/-- A sequence of steps has the fault of the first of them that has one. -/
theorem outcomeOf_bind (fault : Option ε) (value : α) (rest : α → Option ε) (next : α → β) :
    (outcomeOf fault value >>= fun a => outcomeOf (rest a) (next a)) =
      outcomeOf (fault.or (rest value)) (next value) := by
  cases fault <;> rfl

/-- A step without a fault. -/
theorem pure_eq_outcomeOf (value : α) : (pure value : Except ε α) = outcomeOf none value := rfl

/-- Faults may be wrapped. -/
theorem outcomeOf_mapError {δ : Type} (fault : Option ε) (value : α) (wrap : ε → δ) :
    (outcomeOf fault value).mapError wrap = outcomeOf (fault.map wrap) value := by
  cases fault <;> rfl

/-- A step fails with its fault. -/
theorem outcomeOf_eq_error {fault : Option ε} {value : α} {e : ε} :
    outcomeOf fault value = .error e ↔ fault = some e := by
  cases fault <;> simp [outcomeOf]

/-- A step without a fault has its value. -/
theorem outcomeOf_eq_ok {fault : Option ε} {value a : α} :
    outcomeOf fault value = .ok a ↔ fault = none ∧ a = value := by
  cases fault <;> simp [outcomeOf, eq_comm]

/-- What is found first is found at the head or behind it. -/
theorem findSome?_cons_or (f : α → Option β) (a : α) (rest : List α) :
    (a :: rest).findSome? f = (f a).or (rest.findSome? f) := by
  rw [List.findSome?_cons]
  cases f a <;> rfl

end Steps

/-! ## The environment -/

/-- What is wrong with the variable of a setting: it is set to a text that means nothing. -/
def Setting.variableFault? (env : Environment) (s : Setting) : Option ConfigError :=
  (env.lookup s.variableName).bind fun raw =>
    if (s.ofText? raw).isSome then none else some (.invalid s.variableName raw)

/-- A variable is read unless it has a fault. -/
theorem readVariable_eq (env : Environment) (s : Setting) :
    readVariable env s.variableName s.ofText? =
      outcomeOf (s.variableFault? env) (s.inEnvironment? env) := by
  unfold readVariable Setting.variableFault? Setting.inEnvironment?
  cases env.lookup s.variableName with
  | none => rfl
  | some raw => cases h : s.ofText? raw <;> simp [h, outcomeOf]

/-- The environment stops at the first variable that has a fault, or is a layer on top. -/
theorem Config.withEnvironment_eq (config : Config) (env : Environment) :
    config.withEnvironment env =
      outcomeOf (Setting.all.findSome? (·.variableFault? env))
        (config.overlay (·.inEnvironment? env)) := by
  have h : config.withEnvironment env = (do
      let engine ← readVariable env Setting.engine.variableName Setting.engine.ofText?
      let maxRefChain ←
        readVariable env Setting.maxRefChain.variableName Setting.maxRefChain.ofText?
      let maxDepth ← readVariable env Setting.maxDepth.variableName Setting.maxDepth.ofText?
      let verboseAnyOf ←
        readVariable env Setting.verboseAnyOf.variableName Setting.verboseAnyOf.ofText?
      let shareCache ←
        readVariable env Setting.shareCache.variableName Setting.shareCache.ofText?
      pure ⟨engine.getD config.engine, maxRefChain.getD config.maxRefChain,
        maxDepth.getD config.maxDepth, verboseAnyOf.getD config.verboseAnyOf,
        shareCache.getD config.shareCache⟩) := rfl
  -- Each variable has its own type of values, so each is rewritten by its own instance.
  rw [h, readVariable_eq env .engine, readVariable_eq env .maxRefChain,
    readVariable_eq env .maxDepth, readVariable_eq env .verboseAnyOf,
    readVariable_eq env .shareCache]
  simp only [pure_eq_outcomeOf, outcomeOf_bind, Setting.all, findSome?_cons_or,
    List.findSome?_nil]
  rfl

/-! ## The flags -/

/-- A ceiling that is given as a flag must be positive. -/
def ceilingFault? (flag : String) (value : Option Nat) : Option SetupError :=
  if value = some 0 then some (.zeroCeiling flag) else none

/-- A ceiling is checked for its fault. -/
theorem checkCeiling_eq (flag : String) (value : Option Nat) :
    checkCeiling flag value = outcomeOf (ceilingFault? flag value) () := by
  unfold checkCeiling ceilingFault?
  split <;> rfl

/-- The flags stop at the first ceiling that is zero, or are a layer on top. -/
theorem Config.withFlags_eq (config : Config) (flags : Flags) :
    config.withFlags flags =
      outcomeOf ((ceilingFault? "--max-ref-chain" flags.maxRefChain).or
        (ceilingFault? "--max-depth" flags.maxDepth)) (config.overlay (·.inFlags? flags)) := by
  have hswitch : (flags.verboseAnyOf || config.verboseAnyOf) =
      (Setting.inFlags? flags .verboseAnyOf).getD config.verboseAnyOf := by
    rw [Setting.inFlags?]
    cases flags.verboseAnyOf <;> rfl
  unfold withFlags
  simp only [checkCeiling_eq, pure_eq_outcomeOf, outcomeOf_bind, hswitch, Option.or_none]
  rfl

/-! ## The file -/

/-- Two values that are there under conditions are there together under both. -/
theorem guarded_bind {α β : Type} (p : Bool) (a : α) (q : α → Bool) (next : α → β) :
    ((if p then some a else none).bind fun a => if q a then some (next a) else none) =
      if p && q a then some (next a) else none := by
  cases p <;> rfl

/-- What is made of a value is there under the same condition. -/
theorem guarded_bind_some {α β : Type} (p : Bool) (a : α) (next : α → β) :
    ((if p then some a else none).bind fun a => some (next a)) =
      if p then some (next a) else none := by
  cases p <;> rfl

/-- Whether the field of a setting, if it is there, has a value that stands for something. -/
def Setting.isReadable (fields : List (String × Yaml.Node)) (s : Setting) : Bool :=
  (fields.lookup s.fieldName).all fun node => (s.ofNode? node).isSome

/-- A field is read unless it is there with a value that stands for nothing. -/
theorem field?_eq (fields : List (String × Yaml.Node)) (s : Setting) :
    Yaml.Node.field? fields s.fieldName s.ofNode? =
      if s.isReadable fields then some (s.inFields? fields) else none := by
  unfold Yaml.Node.field? Setting.isReadable Setting.inFields?
  cases fields.lookup s.fieldName with
  | none => rfl
  | some node => cases h : s.ofNode? node <;> simp [h]

/-- The fields of a record all of which stand for something. -/
def Config.fieldsOf? (node : Yaml.Node) : Option (List (String × Yaml.Node)) :=
  (node.fields? Config.fieldNames).filter fun fields => Setting.all.all (·.isReadable fields)

/-- The fields of a text that holds such a record; an empty text holds none. -/
def Config.textFields? (text : String) : Option (List (String × Yaml.Node)) :=
  (Yaml.Node.ofText? text).bind fun document => document.elim (some []) Config.fieldsOf?

/-- A record is a layer on top of the standard settings. -/
theorem Config.ofNode?_eq (node : Yaml.Node) :
    Config.ofNode? node =
      (Config.fieldsOf? node).map fun fields => ({} : Config).overlay (·.inFields? fields) := by
  have h : Config.ofNode? node = (do
      let fields ← node.fields? Config.fieldNames
      let engine ← Yaml.Node.field? fields Setting.engine.fieldName Setting.engine.ofNode?
      let maxRefChain ←
        Yaml.Node.field? fields Setting.maxRefChain.fieldName Setting.maxRefChain.ofNode?
      let maxDepth ← Yaml.Node.field? fields Setting.maxDepth.fieldName Setting.maxDepth.ofNode?
      let verboseAnyOf ←
        Yaml.Node.field? fields Setting.verboseAnyOf.fieldName Setting.verboseAnyOf.ofNode?
      let shareCache ←
        Yaml.Node.field? fields Setting.shareCache.fieldName Setting.shareCache.ofNode?
      let standard : Config := {}
      some ⟨engine.getD standard.engine, maxRefChain.getD standard.maxRefChain,
        maxDepth.getD standard.maxDepth, verboseAnyOf.getD standard.verboseAnyOf,
        shareCache.getD standard.shareCache⟩) := rfl
  rw [h, Config.fieldsOf?]
  cases node.fields? Config.fieldNames with
  | none => rfl
  | some fields =>
    simp only [Option.bind_eq_bind, Option.bind_some]
    rw [field?_eq fields .engine, field?_eq fields .maxRefChain, field?_eq fields .maxDepth,
      field?_eq fields .verboseAnyOf, field?_eq fields .shareCache]
    simp only [guarded_bind, guarded_bind_some, Option.filter_some, Setting.all, List.all_cons,
      List.all_nil, Bool.and_true]
    split <;> rfl

/-- A text is a layer on top of the standard settings. -/
theorem Config.ofText?_eq (text : String) :
    Config.ofText? text =
      (Config.textFields? text).map fun fields => ({} : Config).overlay (·.inFields? fields) := by
  unfold Config.ofText? Config.textFields?
  match Yaml.Node.ofText? text with
  | none => rfl
  | some none => rfl
  | some (some node) => exact Config.ofNode?_eq node

/-- A text holds fields of settings: none if nothing is in it, and otherwise those of a record in
which every value stands for one of its setting. -/
inductive Config.Holds (text : String) : List (String × Yaml.Node) → Prop
  /-- There is no document in the text. -/
  | empty (h : Yaml.Node.ofText? text = some none) : Holds text []
  /-- The document is a record. -/
  | record {node : Yaml.Node} {fields : List (String × Yaml.Node)}
    (h : Yaml.Node.ofText? text = some (some node))
    (isRecord : Yaml.Node.IsRecord (Setting.all.map Setting.fieldName) node fields)
    (written : ∀ (s : Setting) w, (s.fieldName, w) ∈ fields → ∃ value, s.IsWritten w value) :
    Holds text fields

/-- The fields that a text holds have different names. -/
theorem Config.Holds.distinct {text : String} {fields : List (String × Yaml.Node)}
    (h : Config.Holds text fields) : (fields.map Prod.fst).Nodup := by
  cases h with
  | empty => exact List.nodup_nil
  | record _ isRecord _ => exact isRecord.distinct

/-- A field can be read unless it is there with a value that stands for nothing. -/
theorem Setting.isReadable_iff {fields : List (String × Yaml.Node)}
    (hdistinct : (fields.map Prod.fst).Nodup) (s : Setting) :
    s.isReadable fields = true ↔
      ∀ w, (s.fieldName, w) ∈ fields → ∃ value, s.IsWritten w value := by
  unfold isReadable
  constructor
  · intro h w hw
    rw [Json.lookup_of_mem hdistinct hw, Option.all_some, Option.isSome_iff_exists] at h
    exact h.imp fun _ hvalue => ofNode?_eq_some_iff.mp hvalue
  · intro h
    cases hlookup : fields.lookup s.fieldName with
    | none => rfl
    | some w =>
      obtain ⟨value, hvalue⟩ := h w (Json.mem_of_lookup hlookup)
      rw [Option.all_some, ofNode?_eq_some_iff.mpr hvalue]
      rfl

/-- The fields that are read from a text are those that it holds. -/
theorem Config.textFields?_eq_some_iff {text : String} {fields : List (String × Yaml.Node)} :
    Config.textFields? text = some fields ↔ Config.Holds text fields := by
  have hreadable (hnames : (fields.map Prod.fst).Nodup) :
      Setting.all.all (·.isReadable fields) = true ↔
        ∀ (s : Setting) w, (s.fieldName, w) ∈ fields → ∃ value, s.IsWritten w value := by
    rw [List.all_eq_true]
    exact ⟨fun h s => (s.isReadable_iff hnames).mp (h s s.mem_all),
      fun h s _ => (s.isReadable_iff hnames).mpr (h s)⟩
  unfold textFields?
  constructor
  · intro h
    obtain ⟨_ | node, hdocument, h⟩ := Option.bind_eq_some_iff.mp h
    · cases h
      exact .empty hdocument
    · obtain ⟨hfields, hall⟩ := Option.filter_eq_some_iff.mp h
      have hrecord := Yaml.Node.fields?_eq_some_iff.mp hfields
      exact .record hdocument hrecord ((hreadable hrecord.distinct).mp hall)
  · rintro (⟨hdocument⟩ | ⟨hdocument, hrecord, hwritten⟩)
    · rw [hdocument]
      rfl
    · rw [hdocument]
      exact Option.filter_eq_some_iff.mpr ⟨Yaml.Node.fields?_eq_some_iff.mpr hrecord,
        (hreadable hrecord.distinct).mpr hwritten⟩

/-- Fields can be read from a text when it holds some. -/
theorem Config.isSome_textFields?_iff {text : String} :
    (Config.textFields? text).isSome ↔ ∃ fields, Config.Holds text fields := by
  rw [Option.isSome_iff_exists]
  exact exists_congr fun _ => Config.textFields?_eq_some_iff

/-- Settings can be read from a text when it holds fields. -/
theorem Config.isSome_ofText?_iff {text : String} :
    (Config.ofText? text).isSome ↔ ∃ fields, Config.Holds text fields := by
  rw [Config.ofText?_eq, Option.isSome_map, Config.isSome_textFields?_iff]

/-- The fields of the file, if one is given: of a file without fault. -/
def fileFields? (files : FileTree) (path : Option String) : Option (List (String × Yaml.Node)) := do
  let text ← (files.readText (← path)).toOption
  Config.textFields? text

/-- What is wrong with the file: it cannot be read, or it does not hold settings. -/
def fileFault? (files : FileTree) (path : Option String) : Option SetupError :=
  path.bind fun path =>
    match files.readText path with
    | .error reason => some (.file path (.unreadable path reason))
    | .ok text =>
      if (Config.textFields? text).isSome then none else some (.file path (.malformed path))

/-- The value that the file offers. -/
def Setting.inFile? (files : FileTree) (path : Option String) (s : Setting) : Option s.Value :=
  (fileFields? files path).bind s.inFields?

/-- The file offers what stands in its field of the setting. -/
theorem Setting.inFile?_eq_some_iff {files : FileTree} {path : Option String} {s : Setting}
    {value : s.Value} :
    s.inFile? files path = some value ↔ ∃ p text fields w, path = some p ∧
      files.readText p = .ok text ∧ Config.Holds text fields ∧ (s.fieldName, w) ∈ fields ∧
      s.IsWritten w value := by
  constructor
  · intro h
    obtain ⟨fields, hfields, hfield⟩ := Option.bind_eq_some_iff.mp h
    obtain ⟨w, hlookup, hvalue⟩ := Option.bind_eq_some_iff.mp hfield
    obtain ⟨p, rfl, hfile⟩ := Option.bind_eq_some_iff.mp hfields
    obtain ⟨text, htext, hread⟩ := Option.bind_eq_some_iff.mp hfile
    have hok : files.readText p = .ok text := by
      cases hresult : files.readText p <;> simp_all [Except.toOption]
    exact ⟨p, text, fields, w, rfl, hok, Config.textFields?_eq_some_iff.mp hread,
      Json.mem_of_lookup hlookup, ofNode?_eq_some_iff.mp hvalue⟩
  · rintro ⟨p, text, fields, w, rfl, htext, hholds, hmem, hvalue⟩
    have hfields : fileFields? files (some p) = some fields := by
      unfold fileFields?
      simpa [htext, Except.toOption] using Config.textFields?_eq_some_iff.mpr hholds
    rw [inFile?, hfields, Option.bind_some, inFields?,
      Json.lookup_of_mem hholds.distinct hmem, Option.bind_some]
    exact ofNode?_eq_some_iff.mpr hvalue

/-- The file stops at its fault, or is a layer on top of the standard settings. -/
theorem Config.base_eq (files : FileTree) (path : Option String) :
    (match path with
      | none => pure {}
      | some path => (Config.ofFile files path).mapError (SetupError.file path)) =
      outcomeOf (fileFault? files path) (({} : Config).overlay (·.inFile? files path)) := by
  cases path with
  | none => rfl
  | some path =>
    cases hread : files.readText path with
    | error reason => simp [Config.ofFile, fileFault?, hread, outcomeOf, Except.mapError]
    | ok text =>
      cases hfields : Config.textFields? text with
      | none =>
        simp [Config.ofFile, Config.ofText?_eq, fileFault?, hread, hfields, outcomeOf,
          Except.mapError]
      | some fields =>
        simp [Config.ofFile, Config.ofText?_eq, fileFault?, Setting.inFile?, fileFields?, hread,
          hfields, outcomeOf, Except.mapError, Except.toOption]

/-! ## All sources -/

/-- A source of settings that can have a fault. -/
inductive Source where
  | file
  | environment (s : Setting)
  | maxRefChainFlag
  | maxDepthFlag

namespace Source

/-- All sources, in the order in which they are looked at. -/
def all : List Source :=
  file :: Setting.all.map environment ++ [maxRefChainFlag, maxDepthFlag]

/-- Every source is looked at. -/
theorem mem_all (source : Source) : source ∈ all := by
  cases source with
  | environment s => cases s <;> simp [all, Setting.all]
  | _ => simp [all]

/-- What is wrong with a source. -/
def fault? (files : FileTree) (path : Option String) (env : Environment) (flags : Flags) :
    Source → Option SetupError
  | file => fileFault? files path
  | environment s => (s.variableFault? env).map .environment
  | maxRefChainFlag => ceilingFault? "--max-ref-chain" flags.maxRefChain
  | maxDepthFlag => ceilingFault? "--max-depth" flags.maxDepth

/-- A source is at fault, with an error: a file that cannot be read or holds no settings, a variable
that is set to a text that stands for no value, a ceiling among the flags that is zero. -/
def Faulty (files : FileTree) (path : Option String) (env : Environment) (flags : Flags) :
    Source → SetupError → Prop
  | file, e => ∃ p, path = some p ∧
    ((∃ reason, files.readText p = .error reason ∧ e = .file p (.unreadable p reason)) ∨
      ∃ text, files.readText p = .ok text ∧ (¬∃ fields, Config.Holds text fields) ∧
        e = .file p (.malformed p))
  | environment s, e => ∃ raw, env.lookup s.variableName = some raw ∧
    (¬∃ value, s.Denotes raw value) ∧ e = .environment (.invalid s.variableName raw)
  | maxRefChainFlag, e => flags.maxRefChain = some 0 ∧ e = .zeroCeiling "--max-ref-chain"
  | maxDepthFlag, e => flags.maxDepth = some 0 ∧ e = .zeroCeiling "--max-depth"

end Source

section Build

variable (files : FileTree) (path : Option String) (env : Environment) (flags : Flags)

/-- The value of a setting in the topmost source that offers one. -/
def Setting.offered? (s : Setting) : Option s.Value :=
  (s.inFlags? flags).or ((s.inEnvironment? env).or (s.inFile? files path))

/-- A configuration fails with the fault of the first source that has one, or has every setting from
the topmost source that offers it. -/
theorem Config.build_eq :
    Config.build files path env flags =
      outcomeOf (Source.all.findSome? (·.fault? files path env flags))
        (({} : Config).overlay (·.offered? files path env flags)) := by
  have hsteps : Config.build files path env flags = (do
      let base ← outcomeOf (fileFault? files path) (({} : Config).overlay (·.inFile? files path))
      let config ← (base.withEnvironment env).mapError SetupError.environment
      config.withFlags flags) := by
    rw [← Config.base_eq]
    cases path <;> rfl
  have hfaults : (fileFault? files path).or
      (((Setting.all.findSome? (·.variableFault? env)).map .environment).or
        ((ceilingFault? "--max-ref-chain" flags.maxRefChain).or
          (ceilingFault? "--max-depth" flags.maxDepth))) =
      Source.all.findSome? (·.fault? files path env flags) := by
    rw [Source.all, List.findSome?_append, findSome?_cons_or, List.findSome?_map,
      List.map_findSome?, Option.or_assoc]
    simp only [findSome?_cons_or, List.findSome?_nil, Option.or_none]
    rfl
  have hlayers : (((({} : Config).overlay (·.inFile? files path)).overlay
      (·.inEnvironment? env)).overlay (·.inFlags? flags)) =
      ({} : Config).overlay (·.offered? files path env flags) := by
    simp only [Config.overlay, Setting.offered?, Option.getD_or]
  rw [hsteps]
  simp only [Config.withEnvironment_eq, Config.withFlags_eq, outcomeOf_mapError, outcomeOf_bind]
  rw [hfaults, hlayers]

/-- A file without fault can be read and holds settings. -/
theorem fileFault?_eq_none :
    fileFault? files path = none ↔ ∀ p, path = some p →
      ∃ text fields, files.readText p = .ok text ∧ Config.Holds text fields := by
  simp only [exists_and_left, ← Config.isSome_textFields?_iff]
  cases path with
  | none => simp [fileFault?]
  | some p =>
    cases hread : files.readText p with
    | error reason => simp [fileFault?, hread]
    | ok text => simp [fileFault?, hread, Option.isSome_iff_ne_none]

/-- A file at fault cannot be read, or holds no settings. -/
theorem fileFault?_eq_some_iff {e : SetupError} :
    fileFault? files path = some e ↔ Source.file.Faulty files path env flags e := by
  simp only [Source.Faulty, ← Config.isSome_textFields?_iff]
  constructor
  · intro h
    obtain ⟨p, rfl, hfault⟩ := Option.bind_eq_some_iff.mp h
    refine ⟨p, rfl, ?_⟩
    split at hfault
    · next reason hread => exact .inl ⟨reason, hread, (Option.some.inj hfault).symm⟩
    · next text hread =>
      split at hfault
      · cases hfault
      · next hnone => exact .inr ⟨text, hread, hnone, (Option.some.inj hfault).symm⟩
  · rintro ⟨p, rfl, ⟨reason, hread, rfl⟩ | ⟨text, hread, hnone, rfl⟩⟩
    · rw [fileFault?, Option.bind_some, hread]
    · rw [fileFault?, Option.bind_some, hread]
      exact if_neg hnone

/-- A variable without fault is not set or stands for a value. -/
theorem Setting.variableFault?_eq_none {s : Setting} :
    s.variableFault? env = none ↔
      ∀ raw, env.lookup s.variableName = some raw → ∃ value, s.Denotes raw value := by
  simp only [← Setting.isSome_ofText?_iff, variableFault?]
  cases env.lookup s.variableName <;> simp [Option.isSome_iff_ne_none]

/-- A variable at fault is set to a text that stands for no value. -/
theorem Setting.variableFault?_eq_some_iff {s : Setting} {e : SetupError} :
    (s.variableFault? env).map .environment = some e ↔
      (Source.environment s).Faulty files path env flags e := by
  simp only [variableFault?, Option.map_eq_some_iff, Option.bind_eq_some_iff, Source.Faulty,
    ← isSome_ofText?_iff]
  constructor
  · rintro ⟨cause, ⟨raw, hset, hfault⟩, rfl⟩
    split at hfault
    · cases hfault
    · next hnone =>
      cases hfault
      exact ⟨raw, hset, hnone, rfl⟩
  · rintro ⟨raw, hset, hnone, rfl⟩
    exact ⟨_, ⟨raw, hset, if_neg hnone⟩, rfl⟩

/-- A ceiling without fault is not given or is positive. -/
theorem ceilingFault?_eq_none {flag : String} {value : Option Nat} :
    ceilingFault? flag value = none ↔ ∀ n, value = some n → 0 < n := by
  unfold ceilingFault?
  cases value <;> simp [Nat.pos_iff_ne_zero]

/-- A ceiling at fault is zero. -/
theorem ceilingFault?_eq_some_iff {flag : String} {value : Option Nat} {e : SetupError} :
    ceilingFault? flag value = some e ↔ value = some 0 ∧ e = .zeroCeiling flag := by
  unfold ceilingFault?
  split <;> simp_all [eq_comm]

/-- What is found to be wrong with a source is its fault. -/
theorem Source.fault?_eq_some_iff {source : Source} {e : SetupError} :
    source.fault? files path env flags = some e ↔ source.Faulty files path env flags e := by
  cases source with
  | file => exact fileFault?_eq_some_iff files path env flags
  | environment s => exact Setting.variableFault?_eq_some_iff files path env flags
  | maxRefChainFlag => exact ceilingFault?_eq_some_iff
  | maxDepthFlag => exact ceilingFault?_eq_some_iff

/-- Nothing is found to be wrong with a source that has no fault. -/
theorem Source.fault?_eq_none_iff {source : Source} :
    source.fault? files path env flags = none ↔ ∀ e, ¬source.Faulty files path env flags e := by
  rw [Option.eq_none_iff_forall_ne_some]
  exact forall_congr' fun _ => not_congr (Source.fault?_eq_some_iff files path env flags)

/-- There is no fault when every source is without fault. -/
theorem Source.findSome?_fault?_eq_none :
    Source.all.findSome? (·.fault? files path env flags) = none ↔
      (∀ p, path = some p → ∃ text fields, files.readText p = .ok text ∧
        Config.Holds text fields) ∧
      (∀ (s : Setting) raw, env.lookup s.variableName = some raw →
        ∃ value, s.Denotes raw value) ∧
      (∀ n, flags.maxRefChain = some n → 0 < n) ∧ ∀ n, flags.maxDepth = some n → 0 < n := by
  rw [List.findSome?_eq_none_iff, ← fileFault?_eq_none, ← ceilingFault?_eq_none,
    ← ceilingFault?_eq_none]
  simp only [← Setting.variableFault?_eq_none]
  constructor
  · intro hnone
    exact ⟨hnone .file (mem_all _),
      fun s => Option.map_eq_none_iff.mp (hnone (.environment s) (mem_all _)),
      hnone .maxRefChainFlag (mem_all _), hnone .maxDepthFlag (mem_all _)⟩
  · rintro ⟨hfile, henvironment, hmaxRefChain, hmaxDepth⟩ source -
    cases source with
    | file => exact hfile
    | environment s => exact Option.map_eq_none_iff.mpr (henvironment s)
    | maxRefChainFlag => exact hmaxRefChain
    | maxDepthFlag => exact hmaxDepth

/-- A configuration is put together exactly when the file, if one is given, can be read and holds
settings, every variable that is set stands for a value and every ceiling among the flags is
positive, whether or not another source overrides it. Otherwise the error is that of the first
source at fault. Of a configuration that is put together every setting is what its flag says, or
else its variable, or else its field of the file, or else the standard value. A variable is read as
the value that its text stands for, and a field as the value that is written there. -/
theorem Config.build_layered :
    ((∃ config, Config.build files path env flags = .ok config) ↔
      (∀ p, path = some p → ∃ text fields, files.readText p = .ok text ∧
        Config.Holds text fields) ∧
      (∀ (s : Setting) raw, env.lookup s.variableName = some raw →
        ∃ value, s.Denotes raw value) ∧
      (∀ n, flags.maxRefChain = some n → 0 < n) ∧ ∀ n, flags.maxDepth = some n → 0 < n) ∧
    (∀ e, Config.build files path env flags = .error e ↔
      ∃ before source after, Source.all = before ++ source :: after ∧
        source.Faulty files path env flags e ∧
        ∀ earlier ∈ before, ∀ e', ¬earlier.Faulty files path env flags e') ∧
    (∀ config, Config.build files path env flags = .ok config → ∀ s : Setting,
      s.get config = ((s.inFlags? flags).or
        ((s.inEnvironment? env).or (s.inFile? files path))).getD s.standard) ∧
    (∀ (s : Setting) value, s.inEnvironment? env = some value ↔
      ∃ raw, env.lookup s.variableName = some raw ∧ s.Denotes raw value) ∧
    ∀ (s : Setting) value, s.inFile? files path = some value ↔
      ∃ p text fields w, path = some p ∧ files.readText p = .ok text ∧
        Config.Holds text fields ∧ (s.fieldName, w) ∈ fields ∧ s.IsWritten w value := by
  rw [Config.build_eq]
  refine ⟨?_, fun e => ?_, fun config hconfig s => ?_, fun s value => ?_,
    fun s value => Setting.inFile?_eq_some_iff⟩
  · rw [← Source.findSome?_fault?_eq_none]
    simp only [outcomeOf_eq_ok, exists_and_left, exists_eq, and_true]
  · rw [outcomeOf_eq_error, List.findSome?_eq_some_iff]
    simp only [Source.fault?_eq_some_iff, Source.fault?_eq_none_iff]
  · obtain ⟨-, rfl⟩ := outcomeOf_eq_ok.mp hconfig
    rw [Config.get_overlay, Setting.get_default]
    rfl
  · simp only [Setting.inEnvironment?, Option.bind_eq_some_iff, Setting.ofText?_eq_some_iff]

/-- A ceiling in the environment is positive. -/
theorem pos_of_readCeiling? {raw : String} {n : Nat} (h : readCeiling? raw = some n) : 0 < n := by
  simpa using (Option.filter_eq_some_iff.mp h).2

/-- Under layers of positive values, a zero is that of the lowest layer. -/
theorem eq_zero_of_layers {flag set file : Option Nat} {standard : Nat} (hstandard : 0 < standard)
    (hflag : ∀ n, flag = some n → 0 < n) (hset : ∀ n, set = some n → 0 < n)
    (h : (flag.or (set.or file)).getD standard = 0) : file = some 0 := by
  cases flag with
  | some n => exact absurd h (Nat.ne_of_gt (hflag n rfl))
  | none =>
    cases set with
    | some n => exact absurd h (Nat.ne_of_gt (hset n rfl))
    | none =>
      cases file with
      | some n => exact congrArg some h
      | none => exact absurd h (Nat.ne_of_gt hstandard)

/-- A ceiling of a configuration that is put together can only be zero because the file says so:
the file is the one source whose ceilings are not asked to be positive. -/
theorem Config.file_of_zero_ceiling {config : Config}
    (hconfig : Config.build files path env flags = .ok config) :
    (config.maxRefChain = 0 → Setting.maxRefChain.inFile? files path = some 0) ∧
      (config.maxDepth = 0 → Setting.maxDepth.inFile? files path = some 0) := by
  rw [Config.build_eq] at hconfig
  obtain ⟨hnone, rfl⟩ := outcomeOf_eq_ok.mp hconfig
  obtain ⟨-, -, hmaxRefChain, hmaxDepth⟩ :=
    (Source.findSome?_fault?_eq_none files path env flags).mp hnone
  have hset : ∀ name n, (env.lookup name).bind readCeiling? = some n → 0 < n := by
    intro name n h
    obtain ⟨raw, -, hraw⟩ := Option.bind_eq_some_iff.mp h
    exact pos_of_readCeiling? hraw
  exact ⟨eq_zero_of_layers (by decide) hmaxRefChain (hset _),
    eq_zero_of_layers (by decide) hmaxDepth (hset _)⟩

end Build

/-- The settings of a site, with a ceiling on references that is zero. -/
def siteSettings : String :=
  "engine: structural\nmax_ref_chain: 0\nverbose_any_of: true\nmax_depth: 8\n"

/-- The directory that holds them, beside settings with a name that is not known. -/
def siteFiles : FileTree :=
  ⟨⟨["site"]⟩, [(⟨["site", "settings.yaml"]⟩, .file siteSettings.toUTF8),
    (⟨["site", "typo.yaml"]⟩, .file "max_dept: 8\n".toUTF8)]⟩

/-- Variables that change the depth, turn one switch off and the other on. -/
def siteVariables : Environment :=
  [("BRAND_SCHEMA_MAX_DEPTH", " +07 "), ("BRAND_SCHEMA_VERBOSE_ANYOF", "off"),
    ("BRAND_SCHEMA_SHARE_CACHE", "\tYes ")]

/-- The flag decides about the engine, the variables about the depth and the switches, and the file
about the ceiling on references. An unknown engine in the environment is reported before a zero
among the flags, although the flags name an engine; a switch that is neither on nor off is
reported, and before it a field of the file that is not known. -/
theorem siteSettings_layered :
    (∃ config, Config.build siteFiles (some "settings.yaml") siteVariables
        { engine := some .draft7 } = .ok config ∧
      config.engine = .draft7 ∧ config.maxRefChain = 0 ∧ config.maxDepth = 7 ∧
      config.verboseAnyOf = false ∧ config.shareCache = true) ∧
    Config.build siteFiles (some "settings.yaml") (("BRAND_SCHEMA_ENGINE", "none") :: siteVariables)
        { engine := some .draft7, maxDepth := some 0 } =
      .error (.environment (.invalid "BRAND_SCHEMA_ENGINE" "none")) ∧
    Config.build siteFiles none (("BRAND_SCHEMA_SHARE_CACHE", "maybe") :: siteVariables) {} =
      .error (.environment (.invalid "BRAND_SCHEMA_SHARE_CACHE" "maybe")) ∧
    Config.build siteFiles (some "typo.yaml")
        (("BRAND_SCHEMA_SHARE_CACHE", "maybe") :: siteVariables) {} =
      .error (.file "typo.yaml" (.malformed "typo.yaml")) := by
  refine ⟨?_, ?_, ?_, ?_⟩
  · obtain ⟨hsound, -, hlayers, -⟩ := Config.build_layered siteFiles (some "settings.yaml")
      siteVariables { engine := some .draft7 }
    have hfile : ∀ p, some "settings.yaml" = some p →
        ∃ text fields, siteFiles.readText p = .ok text ∧ Config.Holds text fields := by
      rintro p ⟨⟩
      obtain ⟨fields, hfields⟩ := Config.isSome_ofText?_iff.mp
        (by decide +kernel : (Config.ofText? siteSettings).isSome)
      exact ⟨siteSettings, fields, by decide +kernel, hfields⟩
    have hvariables : ∀ (s : Setting) raw, siteVariables.lookup s.variableName = some raw →
        ∃ value, s.Denotes raw value := by
      simp only [← Setting.isSome_ofText?_iff]
      intro s
      cases s <;> decide +kernel
    obtain ⟨config, hconfig⟩ := hsound.mpr ⟨hfile, hvariables, by decide, by decide⟩
    have hget := hlayers config hconfig
    exact ⟨config, hconfig, (hget .engine).trans (by decide +kernel),
      (hget .maxRefChain).trans (by decide +kernel), (hget .maxDepth).trans (by decide +kernel),
      (hget .verboseAnyOf).trans (by decide +kernel), (hget .shareCache).trans (by decide +kernel)⟩
  · refine ((Config.build_layered _ _ _ _).2.1 _).mpr
      ⟨[.file], .environment .engine, _, rfl, ⟨"none", by decide +kernel, ?_, rfl⟩, ?_⟩
    · rw [← Setting.isSome_ofText?_iff]
      decide +kernel
    · rintro earlier (⟨⟩ | ⟨_, ⟨⟩⟩)
      exact (Source.fault?_eq_none_iff _ _ _ _).mp (by decide +kernel)
  · refine ((Config.build_layered _ _ _ _).2.1 _).mpr
      ⟨.file :: [.environment .engine, .environment .maxRefChain, .environment .maxDepth,
        .environment .verboseAnyOf], .environment .shareCache, _, rfl,
        ⟨"maybe", by decide +kernel, ?_, rfl⟩, fun earlier hearlier => ?_⟩
    · rw [← Setting.isSome_ofText?_iff]
      decide +kernel
    · refine (Source.fault?_eq_none_iff _ _ _ _).mp ?_
      revert earlier
      decide +kernel
  · refine ((Config.build_layered _ _ _ _).2.1 _).mpr
      ⟨[], .file, _, rfl, ⟨"typo.yaml", rfl, .inr ⟨"max_dept: 8\n", by decide +kernel, ?_, rfl⟩⟩,
        fun _ hmem => nomatch hmem⟩
    rw [← Config.isSome_ofText?_iff]
    decide +kernel

end LinkedSchema
