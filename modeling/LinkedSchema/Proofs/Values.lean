import LinkedSchema.Documents.Store
import Mathlib.Data.List.Nodup
import Mathlib.Tactic.Common

/-!
# Values inside values

`Json.Inside root v` says that a value occurs in another one, at any depth. A value is `Distinct`
when no object inside it has two members of one name. Every value that is read from a file is, as
`putMember` never adds a second member of a name (`Texts.distinct_of_readValue`).
-/

namespace LinkedSchema

namespace Json

/-- A value occurs in another one. -/
inductive Inside (root : Json) : Json → Prop
  /-- A value occurs in itself. -/
  | here : Inside root root
  /-- The items of an array inside are inside. -/
  | item {items : List Json} {v : Json} (h : Inside root (.arr items)) (mem : v ∈ items) :
    Inside root v
  /-- The members of an object inside are inside. -/
  | member {members : Members} {name : String} {v : Json} (h : Inside root (.obj members))
    (mem : (name, v) ∈ members) : Inside root v

/-- Every value holds itself. -/
theorem size_pos (v : Json) : 0 < v.size := by
  cases v <;> simp [size]

/-- What occurs in a value inside occurs in the whole. -/
theorem Inside.trans {root v w : Json} (h : Inside root v) (h' : Inside v w) : Inside root w := by
  induction h' with
  | here => exact h
  | item _ mem ih => exact .item ih mem
  | member _ mem ih => exact .member ih mem

/-- Below a value the steps can also be counted from the top. -/
theorem Inside.cases_top {root v : Json} (h : Inside root v) :
    v = root ∨ (∃ items w, root = .arr items ∧ w ∈ items ∧ Inside w v) ∨
      ∃ members name w, root = .obj members ∧ (name, w) ∈ members ∧ Inside w v := by
  induction h with
  | here => exact .inl rfl
  | item _ mem ih =>
    right
    rcases ih with rfl | ⟨items, w, rfl, hw, hin⟩ | ⟨members, name, w, rfl, hw, hin⟩
    · exact .inl ⟨_, _, rfl, mem, .here⟩
    · exact .inl ⟨items, w, rfl, hw, hin.item mem⟩
    · exact .inr ⟨members, name, w, rfl, hw, hin.item mem⟩
  | member _ mem ih =>
    right
    rcases ih with rfl | ⟨items, w, rfl, hw, hin⟩ | ⟨members, name, w, rfl, hw, hin⟩
    · exact .inr ⟨_, _, _, rfl, mem, .here⟩
    · exact .inl ⟨items, w, rfl, hw, hin.member mem⟩
    · exact .inr ⟨members, name, w, rfl, hw, hin.member mem⟩

/-! ## Sizes -/

/-- An item is smaller than the items together. -/
theorem size_le_sizeItems {v : Json} {items : List Json} (h : v ∈ items) :
    v.size ≤ sizeItems items := by
  induction items with
  | nil => cases h
  | cons w rest ih =>
    rw [sizeItems]
    rcases List.mem_cons.mp h with rfl | h
    · omega
    · have := ih h
      omega

/-- A member is smaller than the members together. -/
theorem size_le_sizeMembers {name : String} {v : Json} {members : Members}
    (h : (name, v) ∈ members) : v.size ≤ sizeMembers members := by
  induction members with
  | nil => cases h
  | cons p rest ih =>
    obtain ⟨k, w⟩ := p
    rw [sizeMembers]
    rcases List.mem_cons.mp h with he | h
    · cases he
      omega
    · have := ih h
      omega

/-- An item is smaller than its array. -/
theorem size_lt_of_mem_items {v : Json} {items : List Json} (h : v ∈ items) :
    v.size < (arr items).size := by
  have := size_le_sizeItems h
  rw [size]
  omega

/-- A member is smaller than its object. -/
theorem size_lt_of_mem_members {name : String} {v : Json} {members : Members}
    (h : (name, v) ∈ members) : v.size < (obj members).size := by
  have := size_le_sizeMembers h
  rw [size]
  omega

/-- What occurs in a value is no larger. -/
theorem Inside.size_le {root v : Json} (h : Inside root v) : v.size ≤ root.size := by
  induction h with
  | here => exact Nat.le_refl _
  | item _ mem ih => exact Nat.le_trans (Nat.le_of_lt (size_lt_of_mem_items mem)) ih
  | member _ mem ih => exact Nat.le_trans (Nat.le_of_lt (size_lt_of_mem_members mem)) ih

/-! ## Heights -/

/-- An item reaches less high than the items together. -/
theorem height_lt_heightItems {v : Json} {items : List Json} (h : v ∈ items) :
    v.height < heightItems items := by
  induction items with
  | nil => cases h
  | cons w rest ih =>
    rw [heightItems]
    rcases List.mem_cons.mp h with rfl | h
    · omega
    · have := ih h
      omega

/-- A member reaches less high than the members together. -/
theorem height_lt_heightMembers {name : String} {v : Json} {members : Members}
    (h : (name, v) ∈ members) : v.height < heightMembers members := by
  induction members with
  | nil => cases h
  | cons p rest ih =>
    obtain ⟨k, w⟩ := p
    rw [heightMembers]
    rcases List.mem_cons.mp h with he | h
    · cases he
      omega
    · have := ih h
      omega

/-- An item reaches less high than its array. -/
theorem height_lt_of_mem_items {v : Json} {items : List Json} (h : v ∈ items) :
    v.height < (arr items).height := by
  rw [height]
  exact height_lt_heightItems h

/-- A member reaches less high than its object. -/
theorem height_lt_of_mem_members {name : String} {v : Json} {members : Members}
    (h : (name, v) ∈ members) : v.height < (obj members).height := by
  rw [height]
  exact height_lt_heightMembers h

/-- What occurs in a value reaches no higher. -/
theorem Inside.height_le {root v : Json} (h : Inside root v) : v.height ≤ root.height := by
  induction h with
  | here => exact Nat.le_refl _
  | item _ mem ih => exact Nat.le_trans (Nat.le_of_lt (height_lt_of_mem_items mem)) ih
  | member _ mem ih => exact Nat.le_trans (Nat.le_of_lt (height_lt_of_mem_members mem)) ih

/-! ## Distinct names -/

/-- No object in a value has two members of one name. -/
def Distinct (root : Json) : Prop :=
  ∀ members, Inside root (.obj members) → (members.map Prod.fst).Nodup

/-- What occurs in a value with distinct names has distinct names. -/
theorem Distinct.inside {root v : Json} (h : Distinct root) (hv : Inside root v) : Distinct v :=
  fun members hm => h members (hv.trans hm)

/-- Members have distinct names, also in their values. -/
structure DistinctMembers (members : Members) : Prop where
  /-- The names of the members. -/
  names : (members.map Prod.fst).Nodup
  /-- The names inside. -/
  values : ∀ p ∈ members, Distinct p.2

/-- An object has distinct names when its members have. -/
theorem distinct_obj {members : Members} (h : DistinctMembers members) :
    Distinct (.obj members) := by
  intro ms hms
  rcases hms.cases_top with he | ⟨items, w, he, -⟩ | ⟨_, name, w, he, hw, hin⟩
  · cases he
    exact h.names
  · cases he
  · cases he
    exact h.values (name, w) hw ms hin

/-- An array has distinct names when its items have. -/
theorem distinct_arr {items : List Json} (h : ∀ v ∈ items, Distinct v) : Distinct (.arr items) := by
  intro ms hms
  rcases hms.cases_top with he | ⟨_, w, he, hw, hin⟩ | ⟨members, name, w, he, -⟩
  · cases he
  · cases he
    exact h w hw ms hin
  · cases he

/-- A value that is neither an array nor an object. -/
def IsScalar : Json → Prop
  | arr _ => False
  | obj _ => False
  | _ => True

/-- A value without items and members has no names that could be the same. -/
theorem distinct_scalar {v : Json} (h : IsScalar v) : Distinct v := by
  intro ms hms
  rcases hms.cases_top with he | ⟨items, w, he, -⟩ | ⟨members, name, w, he, -⟩
  all_goals
    subst he
    exact h.elim

/-- Of distinct names every member is found by its name. -/
theorem lookup_of_mem {β : Type} {members : List (String × β)} (h : (members.map Prod.fst).Nodup)
    {name : String} {v : β} (hv : (name, v) ∈ members) : members.lookup name = some v := by
  induction members with
  | nil => cases hv
  | cons p rest ih =>
    obtain ⟨k, w⟩ := p
    rw [List.map_cons, List.nodup_cons] at h
    rcases List.mem_cons.mp hv with he | hv
    · cases he
      simp
    · have hne : name ≠ k := by
        intro he
        rw [← he] at h
        exact h.1 (List.mem_map.mpr ⟨(name, v), hv, rfl⟩)
      rw [List.lookup_cons, beq_eq_false_iff_ne.mpr hne]
      exact ih h.2 hv

/-- A member that is found is a member. -/
theorem mem_of_lookup {β : Type} {members : List (String × β)} {name : String} {v : β}
    (h : members.lookup name = some v) : (name, v) ∈ members := by
  obtain ⟨before, after, rfl, -⟩ := List.lookup_eq_some_iff.mp h
  simp

/-- Putting a member changes the names only if the name is new. -/
theorem map_fst_putMember (members : Members) (name : String) (v : Json) :
    (putMember members name v).map Prod.fst =
      if name ∈ members.map Prod.fst then members.map Prod.fst
      else members.map Prod.fst ++ [name] := by
  induction members with
  | nil => simp [putMember]
  | cons q rest ih =>
    obtain ⟨k, w⟩ := q
    rw [putMember]
    by_cases hk : k = name
    · simp [hk]
    · rw [if_neg hk, List.map_cons, ih]
      by_cases hn : name ∈ rest.map Prod.fst
      · simp [hn]
      · simp [hn, Ne.symm hk]

/-- The values of members after one has been put. -/
theorem mem_putMember {members : Members} {name : String} {v : Json} {p : String × Json}
    (h : p ∈ putMember members name v) : p.2 = v ∨ p ∈ members := by
  induction members with
  | nil => exact .inl (by rw [List.mem_singleton.mp h])
  | cons q rest ih =>
    obtain ⟨k, w⟩ := q
    rw [putMember] at h
    split at h
    · rcases List.mem_cons.mp h with rfl | h
      · exact .inl rfl
      · exact .inr (List.mem_cons_of_mem _ h)
    · rcases List.mem_cons.mp h with rfl | h
      · exact .inr (List.mem_cons_self ..)
      · exact (ih h).imp_right (List.mem_cons_of_mem _)

/-- Putting a member keeps names distinct. -/
theorem DistinctMembers.put {members : Members} (h : DistinctMembers members) (name : String)
    {v : Json} (hv : Distinct v) : DistinctMembers (putMember members name v) where
  names := by
    rw [map_fst_putMember]
    split
    · exact h.names
    · next hn =>
      rw [← List.concat_eq_append]
      exact h.names.concat hn
  values p hp := by
    rcases mem_putMember hp with he | hp
    · rw [he]
      exact hv
    · exact h.values p hp

/-- No members have distinct names. -/
theorem DistinctMembers.nil : DistinctMembers [] := ⟨List.nodup_nil, by simp⟩

/-! ## Values that are read -/

/-- What a reader of JSON yields with so much fuel has distinct names. -/
structure ReadsDistinct (fuel : Nat) : Prop where
  /-- A value. -/
  value : ∀ {depth text v rest}, readValue? fuel depth text = some (v, rest) → Distinct v
  /-- The items of an array. -/
  items : ∀ {depth text vs rest}, readItems? fuel depth text = some (vs, rest) →
    ∀ v ∈ vs, Distinct v
  /-- The members of an object. -/
  members : ∀ {depth before text ms rest}, DistinctMembers before →
    readMembers? fuel depth before text = some (ms, rest) → DistinctMembers ms

/-- A value that is read from a first character. -/
theorem ReadsDistinct.value_succ {fuel : Nat} (ih : ReadsDistinct fuel) {depth : Nat}
    {text rest : List Char} {v : Json} (h : readValue? (fuel + 1) depth text = some (v, rest)) :
    Distinct v := by
  unfold readValue? at h
  split at h
  · obtain ⟨_, -, he⟩ := Option.map_eq_some_iff.mp h
    cases he
    exact distinct_scalar trivial
  · obtain ⟨_, -, he⟩ := Option.map_eq_some_iff.mp h
    cases he
    exact distinct_scalar trivial
  · obtain ⟨_, -, he⟩ := Option.map_eq_some_iff.mp h
    cases he
    exact distinct_scalar trivial
  · obtain ⟨_, -, he⟩ := Option.map_eq_some_iff.mp h
    cases he
    exact distinct_scalar trivial
  · split at h
    · cases h
    · split at h
      · cases h
        exact distinct_arr (by simp)
      · obtain ⟨⟨vs, _⟩, hvs, he⟩ := Option.map_eq_some_iff.mp h
        cases he
        exact distinct_arr (ih.items hvs)
  · split at h
    · cases h
    · split at h
      · cases h
        exact distinct_obj .nil
      · obtain ⟨⟨ms, _⟩, hms, he⟩ := Option.map_eq_some_iff.mp h
        cases he
        exact distinct_obj (ih.members .nil hms)
  · obtain ⟨⟨_, _⟩, -, h⟩ := Option.bind_eq_some_iff.mp h
    obtain ⟨_, -, h⟩ := Option.bind_eq_some_iff.mp h
    cases h
    exact distinct_scalar trivial

/-- Items that are read, the first one and the others. -/
theorem ReadsDistinct.items_succ {fuel : Nat} (ih : ReadsDistinct fuel) {depth : Nat}
    {text rest : List Char} {vs : List Json}
    (h : readItems? (fuel + 1) depth text = some (vs, rest)) : ∀ v ∈ vs, Distinct v := by
  unfold readItems? at h
  obtain ⟨⟨v, _⟩, hv, h⟩ := Option.bind_eq_some_iff.mp h
  dsimp only at h
  split at h
  · cases h
    simpa using ih.value hv
  · obtain ⟨⟨others, _⟩, hvs, h⟩ := Option.bind_eq_some_iff.mp h
    cases h
    exact List.forall_mem_cons.mpr ⟨ih.value hv, ih.items hvs⟩
  · cases h

/-- Members that are read, put one after the other. -/
theorem ReadsDistinct.members_succ {fuel : Nat} (ih : ReadsDistinct fuel) {depth : Nat}
    {before ms : Members} {text rest : List Char} (hbefore : DistinctMembers before)
    (h : readMembers? (fuel + 1) depth before text = some (ms, rest)) : DistinctMembers ms := by
  unfold readMembers? at h
  obtain ⟨⟨name, _⟩, -, h⟩ := Option.bind_eq_some_iff.mp h
  dsimp only at h
  split at h
  · obtain ⟨⟨v, _⟩, hv, h⟩ := Option.bind_eq_some_iff.mp h
    dsimp only at h
    -- A name that comes again replaces the value of the first one.
    have hput := hbefore.put name (ih.value hv)
    split at h
    · cases h
      exact hput
    · exact ih.members hput h
    · cases h
  · cases h

/-- What a reader of JSON yields has distinct names, with any fuel. -/
theorem readsDistinct : ∀ fuel, ReadsDistinct fuel
  | 0 => ⟨fun h => by simp [readValue?] at h, fun h => by simp [readItems?] at h,
      fun _ h => by simp [readMembers?] at h⟩
  | fuel + 1 =>
    have ih := readsDistinct fuel
    ⟨ih.value_succ, ih.items_succ, ih.members_succ⟩

/-- A text of JSON holds a value with distinct names. -/
theorem distinct_of_read? {text : String} {v : Json} (h : read? text = some v) : Distinct v := by
  unfold read? at h
  obtain ⟨⟨w, rest⟩, hw, h⟩ := Option.bind_eq_some_iff.mp h
  dsimp only at h
  split at h
  · cases h
    exact (readsDistinct _).value hw
  · cases h

end Json

namespace Yaml

open Json (Distinct DistinctMembers distinct_scalar distinct_arr distinct_obj)

mutual

/-- A YAML value becomes a value with distinct names. -/
theorem distinct_of_toJson : ∀ {y : Yaml} {v : Json}, y.toJson = .ok v → Distinct v
  | .null, v, h | .bool _, v, h | .str _, v, h => by
    cases h
    exact distinct_scalar trivial
  | .num n, v, h => by
    rw [toJson] at h
    cases n with
    | int _ => cases h; exact distinct_scalar trivial
    | float _ => cases h; exact distinct_scalar trivial
    | infinity negative => cases negative <;> cases h
    | nan => cases h
  | .seq items, v, h => by
    rw [toJson] at h
    cases hi : itemsToJson items with
    | error e => rw [hi] at h; cases h
    | ok vs =>
      rw [hi] at h
      cases h
      exact distinct_arr (distinct_of_itemsToJson hi)
  | .map pairs, v, h => by
    rw [toJson] at h
    cases hp : pairsToJson pairs [] with
    | error e => rw [hp] at h; cases h
    | ok ms =>
      rw [hp] at h
      cases h
      exact distinct_obj (distinct_of_pairsToJson .nil hp)
  | .tagged _ y, v, h => by
    rw [toJson] at h
    exact distinct_of_toJson h

/-- The items of a sequence become values with distinct names. -/
theorem distinct_of_itemsToJson : ∀ {items : List Yaml} {vs : List Json},
    itemsToJson items = .ok vs → ∀ v ∈ vs, Distinct v
  | [], vs, h => by
    cases h
    simp
  | y :: rest, vs, h => by
    rw [itemsToJson] at h
    cases hy : y.toJson with
    | error e => rw [hy] at h; cases h
    | ok v =>
      cases hr : itemsToJson rest with
      | error e => rw [hy, hr] at h; cases h
      | ok others =>
        rw [hy, hr] at h
        cases h
        exact List.forall_mem_cons.mpr ⟨distinct_of_toJson hy, distinct_of_itemsToJson hr⟩

/-- The entries of a mapping become members with distinct names. -/
theorem distinct_of_pairsToJson : ∀ {pairs : List (Yaml × Yaml)} {before ms : Members},
    DistinctMembers before → pairsToJson pairs before = .ok ms → DistinctMembers ms
  | [], before, ms, hb, h => by
    cases h
    exact hb
  | (k, y) :: rest, before, ms, hb, h => by
    rw [pairsToJson] at h
    cases hk : keyName k with
    | error e => rw [hk] at h; cases h
    | ok name =>
      cases hy : y.toJson with
      | error e => rw [hk, hy] at h; cases h
      | ok v =>
        rw [hk, hy] at h
        exact distinct_of_pairsToJson (hb.put name (distinct_of_toJson hy)) h

end

end Yaml

/-- A value that is read from a file has distinct names. -/
theorem Texts.distinct_of_readValue {files : Texts} {l : Location} {r : Option String}
    {v : Json} (h : files.readValue l r = .ok v) : v.Distinct := by
  unfold Texts.readValue at h
  split at h
  · cases h
  · cases h
  · next text _ =>
    split at h
    · cases h
    · next value hp =>
      cases h
      unfold Document.parse at hp
      split at hp
      · split at hp
        · cases hp
        · exact Yaml.distinct_of_toJson hp
      · split at hp
        · cases hp
        · next hr =>
          cases hp
          exact Json.distinct_of_read? hr

end LinkedSchema
