import LinkedSchema.Proofs.Comparison
import LinkedSchema.Proofs.EqualParts
import Mathlib.Data.List.Perm.Basic
import Mathlib.Data.Nat.Init

/-!
# Values up to the order of members

`Json.Reordered` relates two values that differ only in the order of the members of objects, at any
depth; no object has two members of one name. What is done with a value by looking up names does not
see the difference: a reordered object has reordered values under the same names
(`Reordered.looks`), and a pointer leads to reordered values (`Pointer.find_reordered`). Reordered
values are equal (`Reordered.equal`), and as equality can be chained (`equal_trans`), it is the same
on both sides of a reordering (`Reordered.equal_left`, `Reordered.equal_right`).
-/

namespace LinkedSchema

namespace Json

/-- Values that are the same up to the order of members. -/
inductive Reordered : Json → Json → Prop
  /-- Scalars are the same. -/
  | scalar {v} (h : v.IsScalar) : Reordered v v
  /-- Arrays have the same items in the same order, up to the order of members in them. -/
  | arr {vs ws} (hlength : vs.length = ws.length)
    (h : ∀ (i : Nat) v w, vs[i]? = some v → ws[i]? = some w → Reordered v w) :
    Reordered (.arr vs) (.arr ws)
  /-- Objects have the same names in some order, and under each of them the same value, up to the
  order of members in it. -/
  | obj {ms ns} (hdistinct : (ms.map Prod.fst).Nodup)
    (hnames : (ms.map Prod.fst).Perm (ns.map Prod.fst))
    (h : ∀ name v w, (name, v) ∈ ms → (name, w) ∈ ns → Reordered v w) :
    Reordered (.obj ms) (.obj ns)

variable {v v' w w' : Json} {vs ws : List Json} {ms ns : Members}

/-- A value with distinct names is the same as itself. -/
theorem Reordered.refl (h : v.Distinct) : Reordered v v := by
  induction hn : v.size using Nat.strong_induction_on generalizing v with
  | _ n ih =>
    subst hn
    cases v with
    | arr vs =>
      refine .arr rfl fun i w w' hw hw' => ?_
      cases hw.symm.trans hw'
      have hmem := List.mem_of_getElem? hw
      exact ih _ (size_lt_of_mem_items hmem) (h.inside (.item .here hmem)) rfl
    | obj ms =>
      have hdistinct := h ms .here
      refine .obj hdistinct (.refl _) fun name w w' hw hw' => ?_
      cases (lookup_of_mem hdistinct hw).symm.trans (lookup_of_mem hdistinct hw')
      exact ih _ (size_lt_of_mem_members hw) (h.inside (.member .here hw)) rfl
    | _ => exact .scalar trivial

/-- Items are reordered in order. -/
theorem Reordered.items (h : Reordered (.arr vs) (.arr ws)) : List.Forall₂ Reordered vs ws := by
  cases h with
  | scalar h => exact h.elim
  | arr hlength h => exact forall₂_iff_getElem?.mpr ⟨hlength, h⟩

/-- The names of both objects are distinct. -/
theorem Reordered.distinct (h : Reordered (.obj ms) (.obj ns)) :
    (ms.map Prod.fst).Nodup ∧ (ns.map Prod.fst).Nodup := by
  cases h with
  | scalar h => exact h.elim
  | obj hdistinct hnames h => exact ⟨hdistinct, hnames.nodup hdistinct⟩

/-- A name that is found in one object is found in the other. -/
theorem exists_lookup (hnames : (ms.map Prod.fst).Perm (ns.map Prod.fst))
    (hdistinct : (ns.map Prod.fst).Nodup) {name : String} (h : (name, v) ∈ ms) :
    ∃ w, (name, w) ∈ ns ∧ ns.lookup name = some w := by
  have hname : name ∈ ms.map Prod.fst := List.mem_map.mpr ⟨(name, v), h, rfl⟩
  obtain ⟨⟨_, w⟩, hw, rfl⟩ := List.mem_map.mp (hnames.mem_iff.mp hname)
  exact ⟨w, hw, lookup_of_mem hdistinct hw⟩

/-- Reordered objects have reordered values under the same names. -/
theorem Reordered.looks (h : Reordered (.obj ms) (.obj ns)) : LooksAlike Reordered ms ns := by
  intro name
  obtain ⟨hdistinct, hdistinct'⟩ := h.distinct
  cases h with
  | scalar h => exact h.elim
  | obj _ hnames h =>
    cases hv : ms.lookup name with
    | some v =>
      have hmem := mem_of_lookup hv
      obtain ⟨w, hmem', hw⟩ := exists_lookup hnames hdistinct' hmem
      rw [hw]
      exact .some (h name v w hmem hmem')
    | none =>
      cases hw : ns.lookup name with
      | none => exact .none
      | some w =>
        obtain ⟨v, -, hv'⟩ := exists_lookup hnames.symm hdistinct (mem_of_lookup hw)
        cases hv.symm.trans hv'

/-- Reordering keeps the shape of values. -/
theorem keepsShape_reordered : KeepsShape Reordered where
  items {_ w} h := by
    cases w with
    | arr ws => exact ⟨ws, rfl, h.items⟩
    | _ => cases h
  members {_ w} h := by
    cases w with
    | obj ns => exact ⟨ns, rfl, h.looks⟩
    | _ => cases h
  scalar hscalar h := by
    cases h with
    | scalar => rfl
    | arr => exact hscalar.elim
    | obj => exact hscalar.elim

/-- The members of a reordered object can be put in the order of the first one. -/
theorem Reordered.aligned (h : Reordered (.obj ms) (.obj ns)) :
    ∃ ks, List.Forall₂ (fun p q => p.1 = q.1 ∧ Reordered p.2 q.2) ms ks ∧ ks.Perm ns := by
  cases h with
  | scalar h => exact h.elim
  | obj _ hnames h =>
    have hcomp : Relation.Comp (fun l k => l = k.map Prod.fst) List.Perm (ms.map Prod.fst) ns := by
      rw [List.eq_map_comp_perm]
      exact hnames
    obtain ⟨ks, hks, hperm⟩ := hcomp
    have hsame : List.Forall₂ (fun p q => p.1 = q.1) ms ks := by
      rw [← List.forall₂_eq_eq_eq, List.forall₂_map_left_iff, List.forall₂_map_right_iff] at hks
      exact hks
    obtain ⟨hlength, hzip⟩ := List.forall₂_iff_zip.mp hsame
    refine ⟨ks, List.forall₂_iff_zip.mpr ⟨hlength, fun {p q} hpq => ⟨hzip hpq, ?_⟩⟩, hperm⟩
    obtain ⟨hp, hq⟩ := List.of_mem_zip hpq
    exact h p.1 p.2 q.2 hp (hzip hpq ▸ hperm.mem_iff.mp hq)

/-- Reordered objects have as many members. -/
theorem Reordered.length (h : Reordered (.obj ms) (.obj ns)) : ns.length = ms.length := by
  cases h with
  | scalar h => exact h.elim
  | obj _ hnames _ =>
    have hlength := hnames.length_eq
    rw [List.length_map, List.length_map] at hlength
    exact hlength.symm

/-- Reordering can be undone. -/
theorem Reordered.symm (h : Reordered v w) : Reordered w v := by
  induction h with
  | scalar h => exact .scalar h
  | arr hlength h ih => exact .arr hlength.symm fun i w v hw hv => ih i v w hv hw
  | obj hdistinct hnames h ih =>
    exact .obj (hnames.nodup hdistinct) hnames.symm fun name w v hw hv => ih name v w hv hw

/-! ## Equality -/

/-- Reordered values are equal. -/
theorem Reordered.equal (h : Reordered v w) : v.equal w = true := by
  induction h with
  | @scalar v hscalar =>
    cases v with
    | null => rfl
    | bool b => exact equal_bool_iff.mpr rfl
    | num x => exact equal_num_iff.mpr ⟨x, rfl, rfl⟩
    | str text => exact equal_str_iff.mpr rfl
    | arr vs => exact hscalar.elim
    | obj ms => exact hscalar.elim
  | arr hlength h ih => exact equal_arr_iff.mpr ⟨_, rfl, hlength, ih⟩
  | @obj ms ns hdistinct hnames h ih =>
    have hlength := (Reordered.obj hdistinct hnames h).length.symm
    refine equal_obj_iff.mpr ⟨ns, rfl, hlength, fun p hp => ?_⟩
    obtain ⟨w, hw, hlookup⟩ := exists_lookup hnames (hnames.nodup hdistinct) hp
    exact ⟨w, hlookup, ih p.1 p.2 w hp hw⟩

/-- Equality can be chained, whether names are distinct or not: what is found for a member of the
first object has something found for it in turn. -/
theorem equal_trans {u : Json} (h : u.equal v = true) (h' : v.equal w = true) :
    u.equal w = true := by
  induction hn : u.size using Nat.strong_induction_on generalizing u v w with
  | _ n ih =>
    subst hn
    cases u with
    | null => exact equal_null_iff.mp h ▸ h'
    | bool b => exact equal_bool_iff.mp h ▸ h'
    | str text => exact equal_str_iff.mp h ▸ h'
    | num x =>
      obtain ⟨y, rfl, hxy⟩ := equal_num_iff.mp h
      obtain ⟨z, rfl, hyz⟩ := equal_num_iff.mp h'
      exact equal_num_iff.mpr ⟨z, rfl, hxy.trans hyz⟩
    | arr us =>
      obtain ⟨vs, rfl, hlength, hitems⟩ := equal_arr_iff.mp h
      obtain ⟨ws, rfl, hlength', hitems'⟩ := equal_arr_iff.mp h'
      refine equal_arr_iff.mpr ⟨ws, rfl, hlength.trans hlength', fun i u w hu hw => ?_⟩
      obtain ⟨hi, -⟩ := List.getElem?_eq_some_iff.mp hu
      have hv : vs[i]? = some vs[i] := List.getElem?_eq_getElem (hlength ▸ hi)
      exact ih _ (size_lt_of_mem_items (List.mem_of_getElem? hu)) (hitems i u _ hu hv)
        (hitems' i _ w hv hw) rfl
    | obj ls =>
      obtain ⟨ms, rfl, hlength, hmembers⟩ := equal_obj_iff.mp h
      obtain ⟨ns, rfl, hlength', hmembers'⟩ := equal_obj_iff.mp h'
      refine equal_obj_iff.mpr ⟨ns, rfl, hlength.trans hlength', fun p hp => ?_⟩
      obtain ⟨v, hv, he⟩ := hmembers p hp
      obtain ⟨w, hw, he'⟩ := hmembers' (p.1, v) (mem_of_lookup hv)
      exact ⟨w, hw, ih _ (size_lt_of_mem_members hp) he he' rfl⟩

/-- A value may be compared with a reordered one instead. -/
theorem Reordered.equal_right (h : Reordered w w') (v : Json) : v.equal w' = v.equal w := by
  rw [Bool.eq_iff_iff]
  exact ⟨fun he => equal_trans he h.symm.equal, fun he => equal_trans he h.equal⟩

/-- A reordered value may be compared instead. -/
theorem Reordered.equal_left (h : Reordered v v') (w : Json) : v'.equal w = v.equal w := by
  rw [Bool.eq_iff_iff]
  exact ⟨equal_trans h.equal, equal_trans h.symm.equal⟩

end Json

/-! ## Pointers -/

namespace Pointer

variable {v w : Json}

/-- A step leads to reordered values, or nowhere on both sides. -/
theorem step_reordered (h : v.Reordered w) (name : String) :
    Option.Rel Json.Reordered (step? v name) (step? w name) := by
  cases h with
  | scalar hscalar =>
    cases v with
    | arr => exact hscalar.elim
    | obj => exact hscalar.elim
    | _ => exact .none
  | @arr vs ws hlength h =>
    unfold step?
    cases natural? name with
    | none => exact .none
    | some i =>
      change Option.Rel Json.Reordered vs[i]? ws[i]?
      by_cases hi : i < vs.length
      · have hv := List.getElem?_eq_getElem hi
        have hw := List.getElem?_eq_getElem (hlength ▸ hi : i < ws.length)
        rw [hv, hw]
        exact .some (h i _ _ hv hw)
      · rw [List.getElem?_eq_none (Nat.le_of_not_lt hi),
          List.getElem?_eq_none (hlength ▸ Nat.le_of_not_lt hi)]
        exact .none
  | obj hdistinct hnames h => exact (Json.Reordered.obj hdistinct hnames h).looks name

/-- A path leads to reordered values, or fails at the same name. -/
theorem descend_reordered (h : v.Reordered w) (path : List String) :
    (∃ v' w', descend v path = .ok v' ∧ descend w path = .ok w' ∧ v'.Reordered w') ∨
      ∃ name, descend v path = .error name ∧ descend w path = .error name := by
  induction path generalizing v w with
  | nil => exact .inl ⟨v, w, rfl, rfl, h⟩
  | cons name rest ih =>
    have hstep := step_reordered h name
    unfold descend
    generalize step? v name = a, step? w name = b at hstep
    cases hstep with
    | none => exact .inr ⟨name, rfl, rfl⟩
    | some hnext => exact ih hnext

/-- A pointer leads to reordered values, or fails at the same name. -/
theorem find_reordered (h : v.Reordered w) (pointer : String) :
    (∃ v' w', find v pointer = .ok v' ∧ find w pointer = .ok w' ∧ v'.Reordered w') ∨
      ∃ name, find v pointer = .error name ∧ find w pointer = .error name := by
  unfold find
  dsimp only
  split
  · exact .inl ⟨v, w, rfl, rfl, h⟩
  · exact descend_reordered h _

end Pointer

end LinkedSchema
