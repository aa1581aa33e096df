import LinkedSchema.Draft7.Evaluation
import LinkedSchema.Proofs.CommonSubset
import LinkedSchema.Proofs.Verdict

/-!
# Assertions of the common subset

A keyword of the common subset is read as rules, and the rules find nothing exactly when the
structural keyword of the same name holds (`Answers`). Here are the keywords that speak of the value
itself. They become assertions, so that only their messages count; the sizes and bounds among them
are compared in binary64 by one validator and exactly by the other, which makes no difference where
nothing is rounded.
-/

namespace LinkedSchema.Draft7

open Structural

variable {same : Json → Json → Bool} {check : Check} {schema : Members} {v : Json}
  {place : Locator} {keyword : String}

/-! ## Gathering -/

/-- What is gathered comes from results on all elements. -/
theorem mem_of_gather? {α β : Type} {f : α → Option (List β)} {xs : List α} {ys : List β}
    (h : gather? f xs = some ys) :
    (∀ x ∈ xs, ∃ zs, f x = some zs) ∧ ∀ y, y ∈ ys ↔ ∃ x ∈ xs, ∃ zs, f x = some zs ∧ y ∈ zs := by
  induction xs generalizing ys with
  | nil =>
    cases h
    simp
  | cons x rest ih =>
    rw [gather?] at h
    obtain ⟨found, hfound, h⟩ := Option.bind_eq_some_iff.mp h
    obtain ⟨others, hothers, h⟩ := Option.bind_eq_some_iff.mp h
    cases h
    obtain ⟨hall, hmem⟩ := ih hothers
    refine ⟨List.forall_mem_cons.mpr ⟨⟨found, hfound⟩, hall⟩, fun y => ?_⟩
    rw [List.mem_append, hmem]
    simp [hfound]

/-- Nothing is gathered when nothing is found anywhere. -/
theorem gather?_eq_nil {α β : Type} {f : α → Option (List β)} {xs : List α} {ys : List β}
    (h : gather? f xs = some ys) : ys = [] ↔ ∀ x ∈ xs, f x = some [] := by
  obtain ⟨hall, hmem⟩ := mem_of_gather? h
  constructor
  · rintro rfl x hx
    obtain ⟨zs, hz⟩ := hall x hx
    have hnil : zs = [] := List.eq_nil_iff_forall_not_mem.mpr fun y hy =>
      absurd ((hmem y).mpr ⟨x, hx, zs, hz, hy⟩) (by simp)
    rw [hz, hnil]
  · intro hnone
    refine List.eq_nil_iff_forall_not_mem.mpr fun y hy => ?_
    obtain ⟨x, hx, zs, hz, hyz⟩ := (hmem y).mp hy
    rw [hnone x hx] at hz
    cases hz
    cases hyz

/-- Items keep their values when they get places. -/
theorem map_fst_placedItems (place : Locator) (i : Nat) (vs : List Json) :
    (placedItems place i vs).map Prod.fst = vs := by
  induction vs generalizing i with
  | nil => rfl
  | cons w rest ih => rw [placedItems, List.map_cons, ih]

/-- Placed items are items. -/
theorem mem_of_mem_placedItems {place : Locator} {i : Nat} {vs : List Json} {p : Json × Locator}
    (h : p ∈ placedItems place i vs) : p.1 ∈ vs := by
  rw [← map_fst_placedItems place i vs]
  exact List.mem_map_of_mem h

/-! ## Answers -/

/-- Rules find nothing. -/
def Passes (same : Json → Json → Bool) (check : Check) (v : Json) (place : Locator)
    (rules : List Rule) : Prop :=
  ∀ rule ∈ rules, Rule.evaluate same check v place rule = some []

/-- A keyword is read as rules that, if they can be evaluated, find nothing exactly when a
proposition holds. -/
def Answers (same : Json → Json → Bool) (check : Check) (schema : Members) (v : Json)
    (place : Locator) (keyword : String) (x : Json) (P : Prop) : Prop :=
  ∃ rules, Rule.read? schema keyword x = some rules ∧
    ((∀ rule ∈ rules, ∃ found, Rule.evaluate same check v place rule = some found) →
      (Passes same check v place rules ↔ P))

/-- A single assertion passes when it has no message. -/
theorem passes_assertion {a : Assertion} :
    Passes same check v place [.assertion a] ↔ a.messages same v = [] := by
  unfold Passes
  simp [Rule.evaluate, findingsAt]

/-- A keyword that is read as one assertion. -/
theorem answers_assertion {x : Json} {a : Assertion} {P : Prop}
    (hread : Rule.read? schema keyword x = some [.assertion a]) (h : a.messages same v = [] ↔ P) :
    Answers same check schema v place keyword x P :=
  ⟨_, hread, fun _ => passes_assertion.trans h⟩

/-- A demand has no message when it is met. -/
theorem demand_eq_nil {met : Bool} {message : String} : demand met message = [] ↔ met = true := by
  cases met <;> simp [demand]

/-! ## Types -/

/-- A type holds the values that are of the type with its name. -/
theorem contains_eq_hasType (t : TypeName) (v : Json) : t.contains v = hasType v t.name := by
  cases t <;> cases v <;> simp [TypeName.contains, hasType, TypeName.name]

/-- A type is read from its name. -/
theorem ofName?_name (t : TypeName) : TypeName.ofName? t.name = some t := by
  cases t <;> decide

/-- Every type is one of all. -/
theorem mem_all (t : TypeName) : t ∈ TypeName.all := by
  cases t <;> decide

/-- The results of a function on a list of texts. -/
theorem mapM_map_eq_some {α β γ : Type} {f : α → β} {g : β → Option γ} {k : α → γ}
    (h : ∀ x, g (f x) = some (k x)) (xs : List α) : (xs.map f).mapM g = some (xs.map k) := by
  induction xs with
  | nil => rfl
  | cons x rest ih =>
    rw [List.map_cons, List.mapM_cons, h, ih]
    rfl

/-- Names of types are read as the types. -/
theorem type?_names (ts : List TypeName) (v : Json) :
    ∃ a, Rule.type? (.arr (ts.map fun t => .str t.name)) = some a ∧
      (a.messages same v = [] ↔ ∃ t ∈ ts, t.contains v = true) := by
  have hlist : (do
      let names ← Rule.strings? (.arr (ts.map fun t => .str t.name))
      let types ← names.mapM TypeName.ofName?
      pure (Assertion.types (TypeName.all.filter types.contains))) =
        some (.types (TypeName.all.filter ts.contains)) := by
    have hstrings : Rule.strings? (.arr (ts.map fun t => .str t.name)) =
        some (ts.map TypeName.name) := by
      have htext : ∀ t : TypeName, Json.text? (.str t.name) = some t.name := fun _ => rfl
      exact mapM_map_eq_some htext ts
    have htypes := mapM_map_eq_some ofName?_name ts
    rw [List.map_id'] at htypes
    rw [hstrings, Option.bind_eq_bind, Option.bind_some, htypes]
    rfl
  have hmany : (Assertion.types (TypeName.all.filter ts.contains)).messages same v = [] ↔
      ∃ t ∈ ts, t.contains v = true := by
    rw [Assertion.messages, demand_eq_nil, List.any_eq_true]
    simp [mem_all]
  -- A list of one name is read as that type, every other one as a set of types.
  match ts, hlist, hmany with
  | [], hlist, hmany => exact ⟨_, hlist, hmany⟩
  | [t], _, _ =>
    refine ⟨.type t, ?_, ?_⟩
    · have hone : ((Json.str t.name).text?.bind TypeName.ofName?).map Assertion.type =
          some (.type t) := by
        rw [Json.text?, Option.bind_some, ofName?_name]
        rfl
      exact hone
    · rw [Assertion.messages, demand_eq_nil]
      simp
  | _ :: _ :: _, hlist, hmany => exact ⟨_, hlist, hmany⟩

/-- The keyword `type`. -/
theorem answers_type {x : Json} (hx : schema.lookup "type" = some x) (ha : Allowed "type" x) :
    Answers same check schema v place "type" x (TypeHolds schema v) := by
  have hread : ∀ a, Rule.type? x = some a → Rule.read? schema "type" x = some [.assertion a] := by
    intro a h
    have hmap : Rule.read? schema "type" x = (Rule.type? x).map fun a => [.assertion a] := rfl
    rw [hmap, h]
    rfl
  unfold TypeHolds
  rw [hx]
  rcases ha with ⟨t, rfl⟩ | ⟨ts, rfl⟩
  · have htype : Rule.type? (.str t.name) = some (.type t) := by
      rw [Rule.type?, ofName?_name]
      rfl
    refine answers_assertion (hread _ htype) ?_
    rw [Assertion.messages, demand_eq_nil, contains_eq_hasType]
  · obtain ⟨a, htype, hmessages⟩ := type?_names ts v
    refine answers_assertion (hread a htype) (hmessages.trans ?_)
    simp [contains_eq_hasType]

/-- The keyword `enum`. -/
theorem answers_enum {x : Json} (hx : schema.lookup "enum" = some x) (ha : Allowed "enum" x) :
    Answers same check schema v place "enum" x (EnumHolds same schema v) := by
  obtain ⟨values, rfl⟩ := ha
  refine answers_assertion rfl ?_
  rw [Assertion.messages, demand_eq_nil, List.any_eq_true, EnumHolds]
  simp [hx]

/-! ## Limits -/

/-- A number of whole units is one unit at least. -/
theorem one_pos : (0 : Int) < Binary64.one := by
  have hpow : ∀ n, 0 < Nat.pow 2 n := fun n => Nat.pow_pos (by decide)
  have hone : 0 < Binary64.one := by
    unfold Binary64.one
    exact hpow 1074
  exact Int.natCast_pos.mpr hone

/-- A whole number that is not negative limits a length as its exact value does. -/
theorem sizeLimit?_eq_some {n : Number} (whole : n.isIntegral = true) (nonneg : 0 ≤ n.units) :
    ∃ limit, Rule.sizeLimit? (.num n) = some limit ∧ ∀ k, Countable k →
      (k < limit ↔ (k : Int) * Binary64.one < n.units) ∧
        (limit < k ↔ n.units < (k : Int) * Binary64.one) := by
  have hone := one_pos
  cases n with
  | int m =>
    have hm : 0 ≤ m := by
      by_contra hneg
      have : m * Binary64.one < 0 := Int.mul_neg_of_neg_of_pos (by omega) hone
      exact absurd nonneg (Int.not_le.mpr this)
    refine ⟨m.toNat, rfl, fun k _ => ?_⟩
    rw [Number.units, Int.mul_lt_mul_right hone, Int.mul_lt_mul_right hone]
    omega
  | float x =>
    have hwhole : x.units % Binary64.one = 0 := beq_iff_eq.mp whole
    have hq : x.units = x.truncate * Binary64.one :=
      (Int.tdiv_mul_cancel (Int.dvd_of_emod_eq_zero hwhole)).symm
    have hnonneg : 0 ≤ x.truncate := Int.tdiv_nonneg nonneg (Int.le_of_lt hone)
    -- A limit that does not fit is cut to the largest one, below which every length stays.
    refine ⟨min x.truncate.toNat Rule.maxSize, ?_, fun k hk => ?_⟩
    · have hif : Rule.sizeLimit? (.num (.float x)) =
          if x.isIntegral then some (min x.truncate.toNat Rule.maxSize) else none := rfl
      have hintegral : x.isIntegral = true := whole
      rw [hif, if_pos hintegral]
    · have hsmall := hk.small
      rw [Number.units, hq, Int.mul_lt_mul_right hone, Int.mul_lt_mul_right hone]
      omega

/-- A number stays on its side of a limit. -/
def Side.Keeps : Side → Int → Int → Prop
  | low, limit, n => limit ≤ n
  | high, limit, n => n ≤ limit

/-- A number stays on its side of a limit that it does not cross. -/
theorem crossed_eq_false {side : Side} {limit n : Int} :
    side.crossed limit n = false ↔ side.Keeps limit n := by
  cases side <;> simp [Side.crossed, Side.Keeps]

/-- The size of a value, if it can be counted so, stays on its side of a limit. -/
def LimitsSize (schema : Members) (v : Json) (measure : Measure) (side : Side) (keyword : String) :
    Prop :=
  ∀ k, measure.of? v = some k →
    LimitHolds schema keyword fun limit => side.Keeps limit.units (Binary64.ofNat k).units

/-- A value, if it is a number, stays on its side of a limit. -/
def LimitsNumber (schema : Members) (v : Json) (side : Side) (keyword : String) : Prop :=
  ∀ n, v = .num n →
    LimitHolds schema keyword fun limit => side.Keeps limit.units n.toBinary64.units

/-- A limit that is there. -/
theorem limitHolds_iff {n : Number} {within : Binary64 → Prop}
    (hx : schema.lookup keyword = some (.num n)) :
    LimitHolds schema keyword within ↔ within n.toBinary64 := by
  simp [LimitHolds, hx]

/-- The numbers of keywords are exact. -/
theorem exact_of_lookup {n : Number} (hexact : Json.Exact (.obj schema))
    (hx : schema.lookup keyword = some (.num n)) : n.toBinary64.units = n.units :=
  hexact n (Json.Inside.here.member (Json.mem_of_lookup hx))

/-- A keyword that limits the size of a value. -/
theorem answers_size {x : Json} {measure : Measure} {side : Side}
    (hread : Rule.read? schema keyword x = Rule.size? measure side x)
    (hx : schema.lookup keyword = some x) (hexact : Json.Exact (.obj schema))
    (ha : ∃ n, x = .num n ∧ n.isIntegral = true ∧ 0 ≤ n.units)
    (hcount : ∀ k, measure.of? v = some k → Countable k) :
    Answers same check schema v place keyword x (LimitsSize schema v measure side keyword) := by
  obtain ⟨n, rfl, whole, nonneg⟩ := ha
  obtain ⟨limit, hlimit, hcompare⟩ := sizeLimit?_eq_some whole nonneg
  have hsize : Rule.size? measure side (.num n) = some [.assertion (.size measure side limit)] := by
    rw [Rule.size?, hlimit]
    rfl
  refine answers_assertion (hread.trans hsize) ?_
  rw [Assertion.messages, LimitsSize]
  cases hk : measure.of? v with
  | none => simp
  | some k =>
    have hcountable := hcount k hk
    obtain ⟨hlow, hhigh⟩ := hcompare k hcountable
    have hkeeps : side.Keeps limit k ↔ side.Keeps n.units ((k : Int) * Binary64.one) := by
      cases side with
      | low => exact Int.ofNat_le.trans (not_lt.symm.trans ((not_congr hlow).trans Int.not_lt))
      | high => exact Int.ofNat_le.trans (not_lt.symm.trans ((not_congr hhigh).trans Int.not_lt))
    dsimp only
    rw [demand_eq_nil, Bool.not_eq_true', crossed_eq_false, hkeeps]
    simp only [Option.some.injEq, forall_eq', limitHolds_iff hx, exact_of_lookup hexact hx,
      hcountable.exact]

/-- A keyword that bounds a number. -/
theorem answers_bound {x : Json} {side : Side}
    (hread : Rule.read? schema keyword x = Rule.bound? side false x)
    (hx : schema.lookup keyword = some x) (hexact : Json.Exact (.obj schema))
    (ha : ∃ n, x = .num n) (hv : v.Exact) :
    Answers same check schema v place keyword x (LimitsNumber schema v side keyword) := by
  obtain ⟨limit, rfl⟩ := ha
  refine answers_assertion hread ?_
  unfold LimitsNumber
  cases v with
  | num n =>
    have hn : n.toBinary64.units = n.units := hv n .here
    rw [Assertion.messages, demand_eq_nil, Bool.false_and, Bool.or_false, Bool.not_eq_true',
      crossed_eq_false]
    simp only [Json.num.injEq, forall_eq', limitHolds_iff hx, exact_of_lookup hexact hx, hn]
  | _ => simp [Assertion.messages]

/-! ## Members by name -/

/-- Members that are named are there. -/
def HasMembers (schema : Members) (v : Json) : Prop :=
  ∀ ms, v = .obj ms → ∀ names, schema.lookup "required" = some (.arr names) →
    ∀ name, .str name ∈ names → ∃ w, (name, w) ∈ ms

/-- The keyword `required`. -/
theorem answers_required {x : Json} (hx : schema.lookup "required" = some x)
    (ha : Allowed "required" x) :
    Answers same check schema v place "required" x (HasMembers schema v) := by
  obtain ⟨names, rfl⟩ := ha
  have hstrings : Rule.strings? (.arr (names.map .str)) = some names := by
    have htext : ∀ name : String, Json.text? (.str name) = some name := fun _ => rfl
    have hmap := mapM_map_eq_some htext names
    rw [List.map_id'] at hmap
    exact hmap
  have hread : Rule.read? schema "required" (.arr (names.map .str)) =
      some [.assertion (.required names)] := by
    have hmap : Rule.read? schema "required" (.arr (names.map .str)) =
        (Rule.strings? (.arr (names.map .str))).map fun names => [.assertion (.required names)] :=
      rfl
    rw [hmap, hstrings]
    rfl
  refine answers_assertion hread ?_
  unfold HasMembers
  cases v with
  | obj ms =>
    have hmember : ∀ name, (ms.lookup name).isNone = false ↔ ∃ w, (name, w) ∈ ms := by
      intro name
      cases hl : ms.lookup name with
      | none => simpa using lookup_eq_none_iff_forall.mp hl
      | some w => simpa using ⟨w, Json.mem_of_lookup hl⟩
    rw [Assertion.messages, List.map_eq_nil_iff, List.filter_eq_nil_iff]
    simp only [Bool.not_eq_true, hmember, Json.obj.injEq, forall_eq', hx, Option.some.injEq,
      Json.arr.injEq, List.mem_map, Json.str.injEq, exists_eq_right]
  | _ => simp [Assertion.messages]

end LinkedSchema.Draft7
