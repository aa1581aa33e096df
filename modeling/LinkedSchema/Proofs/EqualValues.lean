import LinkedSchema.Proofs.Reordering
import LinkedSchema.Proofs.Verdict

/-!
# Equality of values is an equivalence

`Json.equal` looks for the members of the first object in the second one and not the other way
round, and numbers may be equal as they are or as binary64. Still, what it decides has no sides: two
values are equal exactly when they are the same up to the order of members once every number in
them is rounded to binary64 (`equal_iff_reordered`). This takes distinct names on the left. Each of
them is found on the right, where there are as many members, so no name on the right is left over
(`perm_names`).

Symmetry then comes from `Reordered.symm`, next to reflexivity (`Reordered.equal`) and transitivity
(`equal_trans`). As equal values compare alike (`equal_congr`), `enum` cannot tell them apart.
-/

namespace LinkedSchema

/-- A number as binary64, without the sign of zero. -/
def Number.rounded (n : Number) : Number := .float { units := n.toBinary64.units }

/-- Rounded numbers are equal when the numbers are. -/
theorem Number.equal_rounded (x y : Number) : x.rounded.equal y.rounded = x.equal y := by
  rw [Bool.eq_iff_iff, Number.equal_iff_units, Number.equal_iff_units]
  rfl

namespace Json

variable {v w : Json} {ms ns : Members}

/-! ## Rounding -/

mutual

/-- A value with all its numbers rounded. -/
def rounded : Json → Json
  | num x => num x.rounded
  | arr items => arr (roundedItems items)
  | obj members => obj (roundedMembers members)
  | v => v

/-- The items of an array with all their numbers rounded. -/
def roundedItems : List Json → List Json
  | [] => []
  | v :: rest => v.rounded :: roundedItems rest

/-- The members of an object with all their numbers rounded. -/
def roundedMembers : Members → Members
  | [] => []
  | (name, v) :: rest => (name, v.rounded) :: roundedMembers rest

end

/-- The items are rounded one by one. -/
theorem roundedItems_eq (vs : List Json) : roundedItems vs = vs.map rounded := by
  induction vs with
  | nil => rfl
  | cons v rest ih => rw [roundedItems, ih, List.map_cons]

/-- The values of the members are rounded one by one, under the same names. -/
theorem roundedMembers_eq (ms : Members) :
    roundedMembers ms = ms.map fun p => (p.1, p.2.rounded) := by
  induction ms with
  | nil => rfl
  | cons p rest ih => rw [roundedMembers, ih, List.map_cons]

/-- Rounding keeps the names of members. -/
theorem map_fst_roundedMembers (ms : Members) :
    (roundedMembers ms).map Prod.fst = ms.map Prod.fst := by
  rw [roundedMembers_eq, List.map_map]
  rfl

/-- A member of a rounded object is a rounded member. -/
theorem mem_roundedMembers {name : String} :
    (name, v) ∈ roundedMembers ms ↔ ∃ u, (name, u) ∈ ms ∧ u.rounded = v := by
  simp [roundedMembers_eq]

/-- In a rounded object the rounded value is found. -/
theorem lookup_roundedMembers (ms : Members) (name : String) :
    (roundedMembers ms).lookup name = (ms.lookup name).map rounded := by
  induction ms with
  | nil => rfl
  | cons p rest ih =>
    obtain ⟨k, v⟩ := p
    rw [roundedMembers, List.lookup_cons, List.lookup_cons, ih]
    cases name == k <;> rfl

mutual

/-- Rounding keeps what is equal and what is not. -/
theorem equal_rounded : ∀ v w : Json, v.rounded.equal w.rounded = v.equal w
  | null, w | bool _, w | str _, w => by cases w <;> rfl
  | num x, w => by
    cases w with
    | num y => exact Number.equal_rounded x y
    | _ => rfl
  | arr vs, w => by
    cases w with
    | arr ws => exact equalItems_rounded vs ws
    | _ => rfl
  | obj ms, w => by
    cases w with
    | obj ns =>
      have hlength (ms : Members) : (roundedMembers ms).length = ms.length := by
        rw [roundedMembers_eq, List.length_map]
      rw [rounded, rounded, equal, equal, hlength, hlength, equalMembers_rounded ms ns]
    | _ => rfl

/-- Rounding keeps whether items are equal. -/
theorem equalItems_rounded : ∀ vs ws : List Json,
    equalItems (roundedItems vs) (roundedItems ws) = equalItems vs ws
  | [], ws => by cases ws <;> rfl
  | v :: rest, [] => rfl
  | v :: rest, w :: others => by
    rw [roundedItems, roundedItems, equalItems, equalItems, equal_rounded v w,
      equalItems_rounded rest others]

/-- Rounding keeps whether members are found equal ones. -/
theorem equalMembers_rounded : ∀ ms ns : Members,
    equalMembers (roundedMembers ms) (roundedMembers ns) = equalMembers ms ns
  | [], _ => rfl
  | (name, v) :: rest, ns => by
    rw [roundedMembers, equalMembers, equalMembers, equalMembers_rounded rest ns,
      lookup_roundedMembers]
    cases ns.lookup name with
    | none => rfl
    | some w =>
      change (v.rounded.equal w.rounded && _) = (v.equal w && _)
      rw [equal_rounded v w]

end

/-! ## Equality without sides -/

/-- Distinct names that are all found among as many others are the same names in another order. -/
theorem perm_names (hdistinct : (ms.map Prod.fst).Nodup) (hlength : ms.length = ns.length)
    (hfound : ∀ p ∈ ms, ∃ w, ns.lookup p.1 = some w ∧ p.2.equal w = true) :
    (ms.map Prod.fst).Perm (ns.map Prod.fst) := by
  have hsubset : ms.map Prod.fst ⊆ ns.map Prod.fst := by
    intro name hname
    obtain ⟨p, hp, rfl⟩ := List.mem_map.mp hname
    obtain ⟨w, hw, -⟩ := hfound p hp
    exact List.mem_map.mpr ⟨_, mem_of_lookup hw, rfl⟩
  -- The second list has no room for another name.
  have hcount : (ns.map Prod.fst).length ≤ (ms.map Prod.fst).length := by
    rw [List.length_map, List.length_map]
    exact Nat.le_of_eq hlength.symm
  exact (List.subperm_of_subset hdistinct hsubset).perm_of_length_le hcount

/-- Equal values are the same up to the order of members once they are rounded. -/
theorem reordered_of_equal (hd : v.Distinct) (h : v.equal w = true) :
    v.rounded.Reordered w.rounded := by
  induction hn : v.size using Nat.strong_induction_on generalizing v w with
  | _ n ih =>
    subst hn
    cases v with
    | null => exact equal_null_iff.mp h ▸ .scalar trivial
    | bool b => exact equal_bool_iff.mp h ▸ .scalar trivial
    | str text => exact equal_str_iff.mp h ▸ .scalar trivial
    | num x =>
      obtain ⟨y, rfl, hxy⟩ := equal_num_iff.mp h
      have hsame : x.rounded = y.rounded := by rw [Number.rounded, Number.rounded, hxy]
      rw [rounded, rounded, hsame]
      exact .scalar trivial
    | arr vs =>
      obtain ⟨ws, rfl, hlength, hitems⟩ := equal_arr_iff.mp h
      rw [rounded, rounded, roundedItems_eq, roundedItems_eq]
      refine .arr (by rw [List.length_map, List.length_map, hlength]) fun i v' w' hv' hw' => ?_
      rw [List.getElem?_map] at hv' hw'
      obtain ⟨v, hv, rfl⟩ := Option.map_eq_some_iff.mp hv'
      obtain ⟨w, hw, rfl⟩ := Option.map_eq_some_iff.mp hw'
      have hmem := List.mem_of_getElem? hv
      exact ih _ (size_lt_of_mem_items hmem) (hd.inside (.item .here hmem))
        (hitems i v w hv hw) rfl
    | obj ms =>
      obtain ⟨ns, rfl, hlength, hmembers⟩ := equal_obj_iff.mp h
      have hdistinct := hd ms .here
      have hnames := perm_names hdistinct hlength hmembers
      rw [rounded, rounded]
      refine .obj ?_ ?_ fun name v' w' hv' hw' => ?_
      · rwa [map_fst_roundedMembers]
      · rwa [map_fst_roundedMembers, map_fst_roundedMembers]
      · obtain ⟨v, hv, rfl⟩ := mem_roundedMembers.mp hv'
        obtain ⟨w, hw, rfl⟩ := mem_roundedMembers.mp hw'
        -- The names of the second object are distinct too, so it is this member that was found.
        have hlookup := lookup_of_mem (hnames.nodup hdistinct) hw
        obtain ⟨u, hu, he⟩ := hmembers (name, v) hv
        cases hu.symm.trans hlookup
        exact ih _ (size_lt_of_mem_members hv) (hd.inside (.member .here hv)) he rfl

/-- What equality decides, with distinct names on the left. -/
theorem equal_iff_reordered (hd : v.Distinct) :
    v.equal w = true ↔ v.rounded.Reordered w.rounded := by
  constructor
  · exact reordered_of_equal hd
  · intro h
    rw [← equal_rounded]
    exact h.equal

/-- The sides of an equality may be swapped where the names on the left are distinct. -/
theorem equal_symm (hd : v.Distinct) (h : v.equal w = true) : w.equal v = true := by
  rw [← equal_rounded]
  exact (reordered_of_equal hd h).symm.equal

/-- Equal values compare alike. -/
theorem equal_congr {v' w' : Json} (hd : v.Distinct) (hd' : w.Distinct) (hv : v.equal v' = true)
    (hw : w.equal w' = true) : v'.equal w' = v.equal w := by
  rw [Bool.eq_iff_iff]
  constructor
  · intro h
    have hleft : v.equal w' = true := equal_trans hv h
    exact equal_trans hleft (equal_symm hd' hw)
  · intro h
    have hleft : v'.equal w = true := equal_trans (equal_symm hd hv) h
    exact equal_trans hleft hw

end Json

/-! ## Listed values -/

namespace Structural

variable {v v' : Json} {allowed allowed' : List Json} {schema : Members} {place : Locator}

/-- The keyword `enum` asks for an equal value in its list. -/
theorem checkEnum_eq_nil_iff (h : schema.lookup "enum" = some (.arr allowed)) :
    checkEnum v schema place = [] ↔ allowed.any (v.equal ·) = true := by
  rw [checkEnum_eq_nil, List.any_eq_true]
  simp [EnumHolds, h]

/-- Of equal values the one is listed when the other one is, in a list of equal values. -/
theorem any_equal_congr (hd : v.Distinct) (hv : v.equal v' = true)
    (h : List.Forall₂ (fun w w' => w.Distinct ∧ w.equal w' = true) allowed allowed') :
    allowed.any (v.equal ·) = allowed'.any (v'.equal ·) := by
  induction h with
  | nil => rfl
  | cons hw _ ih => rw [List.any_cons, List.any_cons, ih, Json.equal_congr hd hw.1 hv hw.2]

/-- Equality of values with distinct names is being the same up to the order of members after
rounding. It is an equivalence, it does not see the order of members, and `enum` does not see
whether the instance or the values it lists are exchanged for equal ones. -/
theorem equal_equivalence :
    (∀ v w : Json, v.Distinct → (v.equal w = true ↔ v.rounded.Reordered w.rounded)) ∧
      Equivalence (fun v w : {v : Json // v.Distinct} => v.1.equal w.1 = true) ∧
      (∀ v w : Json, v.Reordered w → v.equal w = true) ∧
      ∀ (v v' : Json) (allowed allowed' : List Json) (schema schema' : Members)
        (place place' : Locator), v.Distinct → (∀ w ∈ allowed, w.Distinct) →
        v.equal v' = true → List.Forall₂ (fun w w' => w.equal w' = true) allowed allowed' →
        schema.lookup "enum" = some (.arr allowed) →
        schema'.lookup "enum" = some (.arr allowed') →
        (checkEnum v schema place = [] ↔ checkEnum v' schema' place' = []) := by
  refine ⟨fun v w => Json.equal_iff_reordered, ⟨?refl, ?symm, ?trans⟩, fun v w h => h.equal, ?enum⟩
  case refl => exact fun v => (Json.Reordered.refl v.2).equal
  case symm => exact fun {v _} h => Json.equal_symm v.2 h
  case trans => exact fun h h' => Json.equal_trans h h'
  case enum =>
    intro v v' allowed allowed' schema schema' place place' hd hallowed hv hw hschema hschema'
    have hboth := (List.forall₂_and_left _ _).mpr ⟨hallowed, hw⟩
    rw [checkEnum_eq_nil_iff hschema, checkEnum_eq_nil_iff hschema', any_equal_congr hd hv hboth]

/-- A track of one point, with a coordinate that binary64 does not hold. -/
def track : Json :=
  .arr [.obj [("x", .num (.int 9007199254740993)), ("y", .num (.int 1))], .null]

/-- The same track, the coordinates of its point in the other order. -/
def swappedTrack : Json :=
  .arr [.obj [("y", .num (.int 1)), ("x", .num (.int 9007199254740993))], .null]

/-- The same track again, the coordinates being what binary64 makes of them. -/
def roundedTrack : Json :=
  .arr [.obj [("x", .num (.float { units := Nat.pow 2 53 * Binary64.one })),
    ("y", .num (.float { units := Binary64.one }))], .null]

/-- A track whose coordinates have two names is one with distinct names. -/
theorem distinct_track {a b : String} (hne : a ≠ b) (m n : Number) :
    (Json.arr [.obj [(a, .num m), (b, .num n)], .null]).Distinct := by
  have hnumber (n : Number) : (Json.num n).Distinct := Json.distinct_scalar trivial
  have hnull : Json.null.Distinct := Json.distinct_scalar trivial
  have hpoint : (Json.obj [(a, .num m), (b, .num n)]).Distinct :=
    Json.distinct_obj ⟨by simp [hne], by simp [hnumber]⟩
  exact Json.distinct_arr (by simp [hpoint, hnull])

/-- A track is listed as it is, with its coordinates swapped, and rounded. -/
theorem track_listed :
    track.Distinct ∧ swappedTrack.Distinct ∧ roundedTrack.Distinct ∧ track ≠ swappedTrack ∧
      track.equal swappedTrack = true ∧ track.rounded.Reordered swappedTrack.rounded ∧
      track.rounded.equal swappedTrack.rounded = true ∧ roundedTrack.equal track = true ∧
      checkEnum track [("enum", .arr [.null, swappedTrack])] .root = [] := by
  obtain ⟨hdecides, hequivalence, hreordered, henum⟩ := equal_equivalence
  have hd : track.Distinct := distinct_track (by decide) _ _
  have hd' : swappedTrack.Distinct := distinct_track (by decide) _ _
  have hd'' : roundedTrack.Distinct := distinct_track (by decide) _ _
  have hswapped : track.equal swappedTrack = true := by decide +kernel
  have hrounded : swappedTrack.equal roundedTrack = true := by decide +kernel
  have hsame : track.rounded.Reordered swappedTrack.rounded := (hdecides _ _ hd).mp hswapped
  have hback : roundedTrack.equal track = true :=
    hequivalence.symm (x := ⟨track, hd⟩) (y := ⟨roundedTrack, hd''⟩)
      (hequivalence.trans (y := ⟨swappedTrack, hd'⟩) hswapped hrounded)
  have hlisted : checkEnum roundedTrack [("enum", .arr [.null, track])] .root = [] := by
    decide +kernel
  have hdistinct : ∀ w ∈ [Json.null, track], w.Distinct := by
    simp [hd, Json.distinct_scalar (v := .null) trivial]
  refine ⟨hd, hd', hd'', by simp [track, swappedTrack], hswapped, hsame, hreordered _ _ hsame,
    hback, ?_⟩
  exact (henum roundedTrack track [.null, track] [.null, swappedTrack] _ _ .root .root hd''
    hdistinct hback (.cons rfl (.cons hswapped .nil)) rfl rfl).mp hlisted

end Structural

end LinkedSchema
