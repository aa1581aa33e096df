import LinkedSchema.Proofs.Following
import LinkedSchema.Proofs.Meaning

/-!
# The verdict of the structural walk

A report of the walk is empty exactly when the instance satisfies the node. The walk is steady, so
its parts can be looked at on one store; there each part `Decides` what it checks, and what a whole
node decides is put together from its parts. The induction is on the levels that are left, which
every step of the walk uses up, be it into a subschema, into the instance or behind a reference. A
wrong type ends the checks of a node early: then the report is not empty, and the node is not met
whatever the other keywords say. The search for an alternative ends early as well, with the first
one that is met.
-/

namespace LinkedSchema.Structural

open Loading

variable {files : Texts} {s : Store} {settings : Settings} {visit : Visit} {v : Json}
  {schema : Members} {context : Context} {place : Locator} {chain : Chain}

/-! ## The walk is steady -/

/-- The search for an alternative is steady when its checks are. -/
theorem failures_steady {check : Json → Loading Report} (h : ∀ a, Steady files (check a)) :
    ∀ alternatives, Steady files (failures check alternatives) := by
  intro alternatives
  induction alternatives with
  | nil => exact Steady.pure _
  | cons a rest ih =>
    refine (h a).bind fun report => ?_
    split
    · exact Steady.pure _
    · exact ih.bind fun _ => Steady.pure _

/-- Going through items is steady when the checks are. -/
theorem eachItem_steady {check : Nat → Json → Loading Report}
    (h : ∀ i w, Steady files (check i w)) : ∀ i items, Steady files (eachItem check i items)
  | _, [] => Steady.pure _
  | i, w :: rest =>
    (h i w).bind fun _ => (eachItem_steady h (i + 1) rest).bind fun _ => Steady.pure _

/-- Going through members is steady when the checks are. -/
theorem eachMember_steady {check : String → Json → Loading Report}
    (h : ∀ name w, Steady files (check name w)) (ms : Members) :
    Steady files (eachMember check ms) := by
  induction ms with
  | nil => exact Steady.pure _
  | cons p rest ih => exact (h p.1 p.2).bind fun _ => ih.bind fun _ => Steady.pure _

/-- How a walk goes on is steady. -/
def SteadyVisit (files : Texts) (visit : Visit) : Prop :=
  ∀ v node context place chain, Steady files (visit v node context place chain)

/-- Following a reference is steady when the walk goes on so. -/
theorem checkReference_steady (h : SteadyVisit files visit) :
    Steady files (checkReference files visit v schema context place chain) :=
  follow_steady fun _ _ _ => h _ _ _ _ _

/-- The check of alternatives is steady when the walk goes on so. -/
theorem checkAnyOf_steady (h : SteadyVisit files visit) :
    Steady files (checkAnyOf settings visit v schema context place chain) := by
  unfold checkAnyOf
  split
  · exact (failures_steady (fun _ => h _ _ _ _ _) _).bind fun _ => Steady.pure _
  · exact Steady.pure _

/-- The check of an array is steady when the walk goes on so. -/
theorem checkArray_steady (h : SteadyVisit files visit) (items : List Json) :
    Steady files (checkArray visit items schema context place chain) := by
  unfold checkArray
  dsimp only
  split
  · exact (eachItem_steady (fun _ _ => h _ _ _ _ _) _ _).bind fun _ => Steady.pure _
  · exact Steady.pure _

/-- The check of an object is steady when the walk goes on so. -/
theorem checkObject_steady (h : SteadyVisit files visit) (members : Members) :
    Steady files (checkObject visit members schema context place chain) := by
  refine (eachMember_steady (fun name w => ?_) _).bind fun _ => Steady.pure _
  split
  · exact h _ _ _ _ _
  · exact Steady.pure _

/-- The check by the kind of the value is steady when the walk goes on so. -/
theorem checkByKind_steady (h : SteadyVisit files visit) :
    Steady files (checkByKind visit v schema context place chain) := by
  unfold checkByKind
  split
  · exact Steady.lift _
  · exact Steady.pure _
  · exact checkArray_steady h _
  · exact checkObject_steady h _
  · exact Steady.pure _

/-- The check of a node is steady when the walk goes on so. -/
theorem checkNode_steady (h : SteadyVisit files visit) :
    Steady files (checkNode files settings visit v schema context place chain) := by
  refine (checkReference_steady h).bind fun _ => (checkAnyOf_steady h).bind fun _ => ?_
  split
  · exact Steady.pure _
  · exact (checkByKind_steady h).bind fun _ => Steady.pure _

/-- The walk is steady, with any number of levels. -/
theorem walk_steady (files : Texts) (settings : Settings) :
    ∀ levels, SteadyVisit files (walk files settings levels)
  | 0 => fun _ _ _ _ _ => Steady.throw _
  | levels + 1 => by
    intro v node context place chain
    unfold walk
    split
    · exact checkNode_steady (walk_steady files settings levels)
    · exact Steady.pure _

/-! ## Deciding -/

/-- A computation decides a proposition on a store: a report that it returns is empty exactly when
the proposition holds. -/
def Decides (x : Loading Report) (s : Store) (P : Prop) : Prop :=
  ∀ report, x.outcome s = .ok report → (report = [] ↔ P)

/-- A report that needs no computation decides what it decides. -/
theorem Decides.pure {report : Report} {P : Prop} (h : report = [] ↔ P) :
    Decides (Pure.pure report) s P := by
  intro r hr
  rw [outcome_pure, Except.ok.injEq] at hr
  rw [← hr]
  exact h

/-- Two reports put together are empty when both are. -/
theorem Decides.append {x y : Loading Report} {P Q : Prop} (hx : Steady files x)
    (hy : Steady files y) (hP : Decides x s P) (hQ : Decides y s Q) :
    Decides (do let a ← x; let b ← y; Pure.pure (a ++ b)) s (P ∧ Q) := by
  intro report h
  obtain ⟨a, ha, h⟩ := (outcome_bind_eq_ok hx fun _ => hy.bind fun _ => Steady.pure _).mp h
  obtain ⟨b, hb, h⟩ := (outcome_bind_eq_ok hy fun _ => Steady.pure _).mp h
  rw [outcome_pure, Except.ok.injEq] at h
  rw [← h, List.append_eq_nil_iff, hP a ha, hQ b hb]

/-- A fixed report may be put in front. -/
theorem Decides.prepend {x : Loading Report} {P Q : Prop} (first : Report) (hx : Steady files x)
    (hP : first = [] ↔ P) (hQ : Decides x s Q) :
    Decides (do let b ← x; Pure.pure (first ++ b)) s (P ∧ Q) :=
  Decides.append (Steady.pure first) hx (Decides.pure hP) hQ

/-- How a walk goes on decides satisfaction. -/
def VisitDecides (files : Texts) (s : Store) (visit : Visit) : Prop :=
  ∀ v node context place chain,
    Decides (visit v node context place chain) s (Satisfies files s Json.equal context node v)

/-! ## Keywords that speak of the value itself -/

/-- A numeric keyword finds nothing when its limit is not broken. -/
theorem boundViolation_eq_nil {keyword : String} {kind : ViolationKind}
    {broken : Binary64 → Bool} {message : String → String} :
    boundViolation schema keyword place kind broken message = [] ↔
      LimitHolds schema keyword fun limit => broken limit = false := by
  unfold boundViolation bound? LimitHolds
  cases schema.lookup keyword with
  | none => simp
  | some w =>
    cases w with
    | num n => by_cases hb : broken n.toBinary64 <;> simp [hb]
    | _ => simp

/-- A limit that is not above a number. -/
theorem not_lt_iff {x y : Binary64} : x.lt y = false ↔ y.units ≤ x.units := by
  simp [Binary64.lt]

/-- The keyword `type` finds nothing when it holds. -/
theorem typeMismatch_eq_none :
    (schema.lookup "type").bind (typeMismatch? v) = none ↔ TypeHolds schema v := by
  unfold TypeHolds typeMismatch?
  cases schema.lookup "type" with
  | none => simp
  | some w =>
    cases w with
    | str name => cases h : hasType v name <;> simp [h]
    | arr names =>
      -- Entries that are no names of types are passed over.
      have hmem : (names.filterMap Json.text?).any (hasType v) = true ↔
          ∃ name, .str name ∈ names ∧ hasType v name = true := by
        rw [List.any_eq_true]
        simp only [List.mem_filterMap, Json.text?]
        constructor
        · rintro ⟨name, ⟨w, hw, hname⟩, ht⟩
          split at hname <;> cases hname
          exact ⟨name, hw, ht⟩
        · rintro ⟨name, hw, ht⟩
          exact ⟨name, ⟨.str name, hw, rfl⟩, ht⟩
      simp only [Option.bind_some, ← hmem]
      split <;> simp_all
    | _ => simp

/-- The keyword `enum` finds nothing when it holds. -/
theorem checkEnum_eq_nil : checkEnum v schema place = [] ↔ EnumHolds Json.equal schema v := by
  unfold checkEnum EnumHolds
  cases schema.lookup "enum" with
  | none => simp
  | some w =>
    cases w with
    | arr allowed => by_cases h : allowed.any (v.equal ·) <;> simp_all
    | _ => simp

/-- The keywords for strings find nothing when they hold. -/
theorem checkString_eq_ok {text : String} {report : Report}
    (h : checkString text schema place = .ok report) :
    report = [] ↔ TextHolds schema text := by
  have hlong : boundViolation schema "minLength" place .minLength
      ((Binary64.ofNat text.length).lt ·) (fun limit => "string length < " ++ limit) = [] ↔
      LimitHolds schema "minLength" fun limit =>
        limit.units ≤ (Binary64.ofNat text.length).units := by
    rw [boundViolation_eq_nil]
    simp only [LimitHolds, not_lt_iff]
  have hiff : TextHolds schema text ↔ (LimitHolds schema "minLength" fun limit =>
        limit.units ≤ (Binary64.ofNat text.length).units) ∧
      ∀ pattern, schema.lookup "pattern" = some (.str pattern) →
        pattern = "" ∨ Pattern.search? pattern text = some true :=
    ⟨fun h => ⟨h.long, h.found⟩, fun h => ⟨h.1, h.2⟩⟩
  rw [hiff, ← hlong]
  -- An empty pattern is not searched for; one that is no expression has no report.
  unfold checkString at h
  split at h
  · next pattern hp =>
    split at h
    · next he =>
      have he : pattern = "" := by simpa using he
      cases h
      simp [hp, he]
    · next he =>
      have he : pattern ≠ "" := by simpa using he
      split at h
      · cases h
      · next hs =>
        cases h
        simp [hp, hs]
      · next hs =>
        cases h
        simp [hp, hs, he]
  · next hp =>
    cases h
    have : ∀ pattern, schema.lookup "pattern" ≠ some (.str pattern) := hp
    simp [this]

/-- The keywords for strings fail only on a pattern. -/
theorem checkString_eq_error {text : String} {e : SchemaError}
    (h : checkString text schema place = .error e) : ∃ pattern, e = .invalidPattern pattern place := by
  unfold checkString at h
  dsimp only at h
  split at h
  · next pattern _ =>
    split at h
    · cases h
    · split at h <;> cases h
      exact ⟨pattern, rfl⟩
  · cases h

/-- The keywords for numbers find nothing when they hold. -/
theorem checkNumber_eq_nil {n : Number} :
    checkNumber n schema place = [] ↔ NumberHolds schema n := by
  unfold checkNumber
  dsimp only
  rw [List.append_eq_nil_iff, boundViolation_eq_nil, boundViolation_eq_nil]
  simp only [not_lt_iff]
  exact ⟨fun h => ⟨h.1, h.2⟩, fun h => ⟨h.above, h.below⟩⟩

/-- The keywords for the size of an array find nothing when they hold. -/
theorem checkSize_eq_nil {items : List Json} :
    checkSize items schema place = [] ↔ SizeHolds schema items := by
  unfold checkSize
  dsimp only
  rw [List.append_eq_nil_iff, boundViolation_eq_nil, boundViolation_eq_nil]
  simp only [not_lt_iff]
  exact ⟨fun h => ⟨h.1, h.2⟩, fun h => ⟨h.enough, h.few⟩⟩

/-- A name is found among members exactly when a member has it. -/
theorem lookup_eq_none_iff_forall {ms : Members} {name : String} :
    ms.lookup name = none ↔ ∀ w, (name, w) ∉ ms := by
  rw [List.lookup_eq_none_iff]
  constructor
  · intro h w hw
    simpa using h _ hw
  · intro h p hp
    simp only [bne_iff_ne, ne_eq]
    rintro rfl
    exact h _ hp

/-- The keyword `required` finds nothing when the members it names are there. -/
theorem checkRequired_eq_nil {members : Members} :
    checkRequired members schema place = [] ↔
      ∀ names, schema.lookup "required" = some (.arr names) →
      ∀ name, .str name ∈ names → ∃ w, (name, w) ∈ members := by
  unfold checkRequired
  cases schema.lookup "required" with
  | none => simp
  | some w =>
    cases w with
    | arr names =>
      simp only [List.filterMap_eq_nil_iff, List.mem_filterMap, Option.some.injEq, Json.arr.injEq,
        forall_eq']
      constructor
      · intro h name hname
        have hfound := h name ⟨.str name, hname, rfl⟩
        by_contra hno
        have hnone : members.lookup name = none :=
          lookup_eq_none_iff_forall.mpr fun w hw => hno ⟨w, hw⟩
        rw [hnone] at hfound
        cases hfound
      · rintro h name ⟨w, hw, hname⟩
        cases w with
        | str n =>
          cases hname
          obtain ⟨u, hu⟩ := h name hw
          cases hl : members.lookup name with
          | some _ => rfl
          | none => exact absurd hu (lookup_eq_none_iff_forall.mp hl u)
        | _ => cases hname
    | _ => simp

/-- An object that is not closed, or a member that is declared, breaks nothing. -/
theorem known_iff {members : Members} :
    (schema.lookup "additionalProperties" = some (.bool false) → ∀ name w, (name, w) ∈ members →
      ∃ memberSchema, (declared schema).lookup name = some memberSchema) ↔
    ∀ p ∈ members, (declared schema).lookup p.1 = none →
      schema.lookup "additionalProperties" ≠ some (.bool false) := by
  constructor
  · rintro h ⟨name, w⟩ hp hnone hclosed
    obtain ⟨_, hsome⟩ := h hclosed name w hp
    rw [hnone] at hsome
    cases hsome
  · intro h hclosed name w hp
    cases hl : (declared schema).lookup name with
    | some memberSchema => exact ⟨memberSchema, rfl⟩
    | none => exact absurd hclosed (h (name, w) hp hl)

/-! ## Parts of a node -/

/-- The search for an alternative ends with none exactly when some alternative is met, and else
collects a report for each of them. -/
theorem failures_eq_ok {check : Json → Loading Report} {P : Json → Prop}
    (hsteady : ∀ a, Steady files (check a)) (hP : ∀ a, Decides (check a) s (P a)) :
    ∀ {alternatives r}, (failures check alternatives).outcome s = .ok r →
      (r = none ↔ ∃ a ∈ alternatives, P a) ∧
        ∀ reports, r = some reports → (reports = [] ↔ alternatives = [])
  | [], r, h => by
    cases h
    simp
  | a :: rest, r, h => by
    obtain ⟨report, ha, h⟩ := (outcome_bind_eq_ok (hsteady a) fun report => by
      split
      · exact Steady.pure _
      · exact (failures_steady hsteady rest).bind fun _ => Steady.pure _).mp h
    have hmet := hP a report ha
    split at h
    · next hempty =>
      cases h
      have hnil : report = [] := by simpa using hempty
      exact ⟨by simpa using .inl (hmet.mp hnil), by simp⟩
    · next hempty =>
      have hnot : ¬P a := by rw [← hmet]; simpa using hempty
      obtain ⟨others, ho, h⟩ :=
        (outcome_bind_eq_ok (failures_steady hsteady rest) fun _ => Steady.pure _).mp h
      cases h
      have ih := (failures_eq_ok hsteady hP ho).1
      refine ⟨by simp [ih, hnot], ?_⟩
      intro reports hr
      cases others with
      | none => cases hr
      | some others => cases hr; simp

/-- The report on alternatives is empty when there are none or one of them is met. -/
theorem checkAnyOf_report {P : Json → Prop} {alternatives : List Json}
    (ha : schema.lookup "anyOf" = some (.arr alternatives)) (hsteady : SteadyVisit files visit)
    (hP : ∀ a, Decides (visit v a context place chain) s (P a)) :
    Decides (checkAnyOf settings visit v schema context place chain) s
      (alternatives = [] ∨ ∃ a ∈ alternatives, P a) := by
  intro report hr
  rw [checkAnyOf, ha] at hr
  obtain ⟨r, hf, hr⟩ := (outcome_bind_eq_ok (failures_steady (fun _ => hsteady _ _ _ _ _) _)
    fun _ => Steady.pure _).mp hr
  cases hr
  obtain ⟨hnone, hsome⟩ := failures_eq_ok (fun _ => hsteady _ _ _ _ _) hP hf
  -- One alternative is met; or each has a report, and there is one unless the list is empty.
  cases r with
  | none => simpa [anyOfReport] using Or.inr (hnone.mp rfl)
  | some reports =>
    have hno : ¬∃ a ∈ alternatives, P a := by
      rw [← hnone]
      simp
    have hlen := hsome reports rfl
    cases reports with
    | nil => simpa [anyOfReport] using Or.inl (hlen.mp rfl)
    | cons first others =>
      have hne : alternatives ≠ [] := fun he => by simpa using hlen.mpr he
      simp [anyOfReport, hno, hne]

/-- Alternatives are decided by deciding each of them. -/
theorem checkAnyOf_decides (hsteady : SteadyVisit files visit) (h : VisitDecides files s visit) :
    Decides (checkAnyOf settings visit v schema context place chain) s
      (SomeAlternative files s Json.equal context schema v) := by
  cases ha : schema.lookup "anyOf" with
  | none =>
    rw [checkAnyOf, ha]
    exact Decides.pure ⟨fun _ => .absent (by simp [ha]), fun _ => rfl⟩
  | some keyword =>
    cases keyword with
    | arr alternatives =>
      rw [someAlternative_iff ha]
      exact checkAnyOf_report ha hsteady fun a => h v a context place chain
    | _ =>
      rw [checkAnyOf, ha]
      exact Decides.pure ⟨fun _ => .absent (by simp [ha]), fun _ => rfl⟩

/-- The part behind a reference is decided by deciding its target. -/
theorem checkReference_decides (hsteady : SteadyVisit files visit)
    (h : VisitDecides files s visit) :
    Decides (checkReference files visit v schema context place chain) s
      (BehindReference files s Json.equal context schema v) := by
  intro report hr
  rcases follow_eq_ok (fun _ _ _ => hsteady _ _ _ _ _) hr with
    ⟨href, rfl, -⟩ | ⟨text, target, chain', next, follows, hvisited, -⟩
  · exact ⟨fun _ => .absent href, fun _ => rfl⟩
  · rw [behindReference_iff follows.reference follows.leads]
    exact h _ _ _ _ _ report hvisited

/-- All items are decided by deciding each of them. -/
theorem eachItem_decides {check : Nat → Json → Loading Report} {P : Json → Prop}
    (hsteady : ∀ i w, Steady files (check i w)) (hP : ∀ i w, Decides (check i w) s (P w)) :
    ∀ i items, Decides (eachItem check i items) s (∀ w ∈ items, P w)
  | _, [] => Decides.pure (by simp)
  | i, w :: rest => by
    rw [List.forall_mem_cons]
    exact Decides.append (hsteady i w) (eachItem_steady hsteady (i + 1) rest) (hP i w)
      (eachItem_decides hsteady hP (i + 1) rest)

/-- All members are decided by deciding each of them. -/
theorem eachMember_decides {check : String → Json → Loading Report} {P : String → Json → Prop}
    (hsteady : ∀ name w, Steady files (check name w))
    (hP : ∀ name w, Decides (check name w) s (P name w)) (ms : Members) :
    Decides (eachMember check ms) s (∀ p ∈ ms, P p.1 p.2) := by
  induction ms with
  | nil => exact Decides.pure (by simp)
  | cons p rest ih =>
    rw [List.forall_mem_cons]
    exact Decides.append (hsteady p.1 p.2) (eachMember_steady hsteady rest) (hP p.1 p.2) ih

/-- The array keywords are decided by deciding each item. -/
theorem checkArray_decides (hsteady : SteadyVisit files visit) (h : VisitDecides files s visit)
    (items : List Json) :
    Decides (checkArray visit items schema context place chain) s
      (SizeHolds schema items ∧ ItemsSatisfy files s Json.equal context schema (.arr items)) := by
  unfold checkArray ItemsSatisfy
  dsimp only
  split
  · next itemSchema hi =>
    have hall := Decides.prepend (checkSize items schema place)
      (eachItem_steady (fun _ _ => hsteady _ _ _ _ _) 0 items) checkSize_eq_nil
      (eachItem_decides (fun _ _ => hsteady _ _ _ _ _)
        (fun i w => h w (.obj itemSchema) context (place.index i) chain.fresh) 0 items)
    simpa [hi] using hall
  · next hi =>
    refine Decides.pure ?_
    rw [checkSize_eq_nil]
    exact ⟨fun hs => ⟨hs, fun _ itemSchema _ ha => absurd ha (hi itemSchema)⟩, fun hs => hs.1⟩

/-- What an object keyword checks about one member. -/
def checkMember (visit : Visit) (schema : Members) (context : Context) (place : Locator)
    (chain : Chain) (name : String) (w : Json) : Loading Report :=
  match (declared schema).lookup name with
  | some memberSchema => visit w memberSchema context (place.property name) chain.fresh
  | none =>
    pure (if (match schema.lookup "additionalProperties" with
      | some (.bool false) => true
      | _ => false) then
      [⟨place, .additionalProperty, "additional property '" ++ name ++ "' not allowed"⟩] else [])

/-- The check of one member is steady when the walk goes on so. -/
theorem checkMember_steady (h : SteadyVisit files visit) (name : String) (w : Json) :
    Steady files (checkMember visit schema context place chain name w) := by
  unfold checkMember
  split
  · exact h _ _ _ _ _
  · exact Steady.pure _

/-- A member is decided by deciding it against the schema declared for it. -/
theorem checkMember_decides (h : VisitDecides files s visit) (schema : Members)
    (context : Context) (place : Locator) (chain : Chain) (name : String) (w : Json) :
    Decides (checkMember visit schema context place chain name w) s
      (((declared schema).lookup name = none →
          schema.lookup "additionalProperties" ≠ some (.bool false)) ∧
        ∀ memberSchema, (declared schema).lookup name = some memberSchema →
          Satisfies files s Json.equal context memberSchema w) := by
  unfold checkMember
  split
  · next memberSchema hm => simpa [hm] using h w memberSchema context _ _
  · next hm =>
    refine Decides.pure ?_
    split
    · next hc => simp [hm, hc]
    · next hc => simpa [hm] using hc

/-- The object keywords are decided by deciding each member. -/
theorem checkObject_decides (hsteady : SteadyVisit files visit) (h : VisitDecides files s visit)
    (members : Members) :
    Decides (checkObject visit members schema context place chain) s
      (NamesHold schema members ∧
        MembersSatisfy files s Json.equal context schema (.obj members)) := by
  -- Closedness and the declared schemas are checked member by member, and are two clauses of the
  -- meaning.
  have hall := Decides.prepend (checkRequired members schema place)
    (eachMember_steady (checkMember_steady hsteady) members) checkRequired_eq_nil
    (eachMember_decides (checkMember_steady hsteady)
      (checkMember_decides h schema context place chain) members)
  have hiff : (NamesHold schema members ∧
        MembersSatisfy files s Json.equal context schema (.obj members)) ↔
      (∀ names, schema.lookup "required" = some (.arr names) →
        ∀ name, .str name ∈ names → ∃ w, (name, w) ∈ members) ∧
      ∀ p ∈ members, ((declared schema).lookup p.1 = none →
          schema.lookup "additionalProperties" ≠ some (.bool false)) ∧
        ∀ memberSchema, (declared schema).lookup p.1 = some memberSchema →
          Satisfies files s Json.equal context memberSchema p.2 := by
    constructor
    · rintro ⟨hnames, hmembers⟩
      refine ⟨hnames.present, fun p hp => ⟨known_iff.mp hnames.known p hp, ?_⟩⟩
      exact fun memberSchema hm => hmembers members rfl p.1 p.2 memberSchema hp hm
    · rintro ⟨hrequired, heach⟩
      refine ⟨⟨hrequired, known_iff.mpr fun p hp => (heach p hp).1⟩, ?_⟩
      rintro ms hms name w memberSchema hp hm
      cases hms
      exact (heach (name, w) hp).2 memberSchema hm
  rw [hiff]
  exact hall

/-- The keywords for values of a kind are decided by deciding what is inside. -/
theorem checkByKind_decides (hsteady : SteadyVisit files visit) (h : VisitDecides files s visit) :
    Decides (checkByKind visit v schema context place chain) s
      (KindHolds schema v ∧ ItemsSatisfy files s Json.equal context schema v ∧
        MembersSatisfy files s Json.equal context schema v) := by
  cases v with
  | arr items =>
    have ha : Decides (checkArray visit items schema context place chain) s _ :=
      checkArray_decides hsteady h items
    simpa [checkByKind, MembersSatisfy, KindHolds] using ha
  | obj members =>
    have ho : Decides (checkObject visit members schema context place chain) s _ :=
      checkObject_decides hsteady h members
    simpa [checkByKind, ItemsSatisfy, KindHolds] using ho
  | str text =>
    intro report hr
    rw [checkString_eq_ok hr]
    simp [ItemsSatisfy, MembersSatisfy, KindHolds]
  | num n =>
    refine Decides.pure ?_
    rw [checkNumber_eq_nil]
    simp [ItemsSatisfy, MembersSatisfy, KindHolds]
  | null => exact Decides.pure (by simp [ItemsSatisfy, MembersSatisfy, KindHolds])
  | bool b => exact Decides.pure (by simp [ItemsSatisfy, MembersSatisfy, KindHolds])

/-! ## The whole walk -/

/-- What is checked of an object after its reference and its alternatives. -/
def checkOwn (visit : Visit) (v : Json) (schema : Members) (context : Context) (place : Locator)
    (chain : Chain) (before : Report) : Loading Report :=
  match (schema.lookup "type").bind (typeMismatch? v) with
  | some message => pure (before ++ [⟨place, .type, message⟩])
  | none => do
    let rest ← checkByKind visit v schema context place chain
    pure (before ++ checkEnum v schema place ++ rest)

/-- An object is checked for its reference, for its alternatives, and then for its own keywords. -/
theorem checkNode_eq (files : Texts) (settings : Settings) (visit : Visit) :
    checkNode files settings visit v schema context place chain = (do
      let behind ← checkReference files visit v schema context place chain
      let alternatives ← checkAnyOf settings visit v schema context place chain
      checkOwn visit v schema context place chain (behind ++ alternatives)) := rfl

/-- The check of a node's own keywords is steady when the walk goes on so. -/
theorem checkOwn_steady (h : SteadyVisit files visit) (before : Report) :
    Steady files (checkOwn visit v schema context place chain before) := by
  unfold checkOwn
  split
  · exact Steady.pure _
  · exact (checkByKind_steady h).bind fun _ => Steady.pure _

/-- A node is decided by deciding what is below it. -/
theorem checkNode_decides (hsteady : SteadyVisit files visit) (h : VisitDecides files s visit) :
    Decides (checkNode files settings visit v schema context place chain) s
      (Satisfies files s Json.equal context (.obj schema) v) := by
  intro report hr
  rw [satisfies_object_iff]
  rw [checkNode_eq] at hr
  obtain ⟨behind, hb, hr⟩ := (outcome_bind_eq_ok (checkReference_steady hsteady) fun _ =>
    (checkAnyOf_steady hsteady).bind fun _ => checkOwn_steady hsteady _).mp hr
  obtain ⟨alternatives, ha, hr⟩ := (outcome_bind_eq_ok (checkAnyOf_steady hsteady) fun _ =>
    checkOwn_steady hsteady _).mp hr
  have hb := checkReference_decides hsteady h behind hb
  have ha := checkAnyOf_decides hsteady h alternatives ha
  have htype : (schema.lookup "type").bind (typeMismatch? v) = none ↔ TypeHolds schema v :=
    typeMismatch_eq_none
  unfold checkOwn at hr
  split at hr
  · next message hm =>
    -- The type is wrong: the report is not empty, and the node is not met.
    cases hr
    have hno : ¬TypeHolds schema v := by rw [← htype, hm]; simp
    have hno' : ¬Holds Json.equal schema v := fun ho => hno ho.type
    simp [hno']
  · next hm =>
    -- The type is right: the report is made of the parts, and it is empty when they all are.
    obtain ⟨rest, hk, hr⟩ := (outcome_bind_eq_ok (checkByKind_steady hsteady) fun _ =>
      Steady.pure _).mp hr
    have hk := checkByKind_decides hsteady h rest hk
    have htype := htype.mp hm
    have henum : checkEnum v schema place = [] ↔ EnumHolds Json.equal schema v := checkEnum_eq_nil
    have hown : Holds Json.equal schema v ↔ EnumHolds Json.equal schema v ∧ KindHolds schema v :=
      ⟨fun ho => ⟨ho.enum, ho.kind⟩, fun ho => ⟨htype, ho.1, ho.2⟩⟩
    cases hr
    rw [List.append_eq_nil_iff, List.append_eq_nil_iff, List.append_eq_nil_iff, hb, ha, hk, henum,
      hown]
    simp only [and_assoc]

/-- The walk decides satisfaction, with any number of levels. -/
theorem walk_decides (files : Texts) (s : Store) (settings : Settings) :
    ∀ levels, VisitDecides files s (walk files settings levels)
  | 0 => fun _ _ _ _ _ _ h => by cases h
  | levels + 1 => by
    intro v node context place chain
    unfold walk
    split
    · exact checkNode_decides (walk_steady files settings levels)
        (walk_decides files s settings levels)
    · next hno =>
      refine Decides.pure ⟨fun _ => .plain ?_, fun _ => rfl⟩
      cases node with
      | obj members => exact absurd rfl (hno members)
      | _ => rfl

/-- A node with neither reference nor alternatives nor type is checked for `enum` and for the keywords
of the kind of value. -/
theorem validateNode_plain (href : schema.lookup "$ref" = none)
    (hany : schema.lookup "anyOf" = none) (htype : schema.lookup "type" = none) :
    validateNode files settings v (.obj schema) context place = (do
      let rest ← checkByKind (walk files settings settings.maxDepth) v schema context place
        (.start settings.maxRefChain)
      pure (checkEnum v schema place ++ rest)) := by
  change checkNode files settings (walk files settings settings.maxDepth) v schema context place _ =
    _
  have hbehind : checkReference files (walk files settings settings.maxDepth) v schema context place
      (.start settings.maxRefChain) = pure [] := by
    rw [checkReference, href]
  have halternatives : checkAnyOf settings (walk files settings settings.maxDepth) v schema context
      place (.start settings.maxRefChain) = pure [] := by
    rw [checkAnyOf, hany]
  rw [checkNode_eq, hbehind, halternatives, pure_bind, pure_bind, checkOwn, htype]
  rfl

/-- Whenever validation returns a report, the report is empty exactly when the instance satisfies
the node; so the verdict is the same under all limits, from all places and in both modes of
reporting. -/
theorem validateNode_report_empty_iff (files : FileTree) (s : Store) (settings : Settings)
    (v node : Json) (context : Context) (place : Locator) (report : Report)
    (h : (validateNode files settings v node context place).outcome s = .ok report) :
    (report = [] ↔ Satisfies files s Json.equal context node v) ∧
      ∀ settings' place' report',
        (validateNode files settings' v node context place').outcome s = .ok report' →
        (report' = [] ↔ report = []) := by
  have hdecides : ∀ settings' place' report',
      (validateNode files settings' v node context place').outcome s = .ok report' →
      (report' = [] ↔ Satisfies files s Json.equal context node v) :=
    fun settings' place' report' => walk_decides files s settings' _ v node context place' _ report'
  refine ⟨hdecides settings place report h, fun settings' place' report' h' => ?_⟩
  rw [hdecides settings place report h, hdecides settings' place' report' h']

/-- A schema of lists: a list is an object with a head, and a tail that is null or again a list. -/
def listSchema : Document where
  location := ⟨["s", "list.json"]⟩
  root := .obj [("type", .str "object"), ("required", .arr [.str "head"]),
    ("properties", .obj [("tail", .obj [("anyOf",
      .arr [.obj [("type", .str "null")], .obj [("$ref", .str "list.json#")]])])])]

/-- A list whose last part has no head. -/
def brokenList : Json :=
  .obj [("head", .null), ("tail", .obj [("head", .null), ("tail", .obj [("tail", .null)])])]

set_option maxRecDepth 10000 in
/-- Validating the broken list reports its tail, so the list does not satisfy the schema, and no
limits under which validation returns lead to an empty report. -/
theorem brokenList_report :
    (validateNode (.empty .root) ⟨4, 20, false⟩ brokenList listSchema.root (.ofDocument listSchema)
        .root).outcome ⟨[listSchema]⟩ =
      .ok [⟨⟨[.name "tail"]⟩, .anyOf, "does not match anyOf options"⟩] ∧
      ¬Satisfies (.empty .root) ⟨[listSchema]⟩ Json.equal (.ofDocument listSchema) listSchema.root
        brokenList ∧
      ∀ settings report,
        (validateNode (.empty .root) settings brokenList listSchema.root (.ofDocument listSchema)
          .root).outcome ⟨[listSchema]⟩ = .ok report → report ≠ [] := by
  have hrun : (validateNode (.empty .root) ⟨4, 20, false⟩ brokenList listSchema.root
      (.ofDocument listSchema) .root).outcome ⟨[listSchema]⟩ =
        .ok [⟨⟨[.name "tail"]⟩, .anyOf, "does not match anyOf options"⟩] := by rfl
  have h := validateNode_report_empty_iff _ _ _ _ _ _ _ _ hrun
  exact ⟨hrun, fun hs => List.cons_ne_nil _ _ (h.1.mpr hs),
    fun settings report hr he => List.cons_ne_nil _ _ ((h.2 settings _ report hr).mp he)⟩

end LinkedSchema.Structural
