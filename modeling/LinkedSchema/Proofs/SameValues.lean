import LinkedSchema.Proofs.CommonSubset
import LinkedSchema.Proofs.EqualValues

/-!
# When two values are the same

The language of schemas says when two values are the same: they are of one kind, numbers have one
value, arrays have the same items in the same order, and objects have the same names, in any order,
with the same value under each (`Json.SameValue`). Nothing is computed here, and numbers are taken
exactly.

A comparison may be asked only about values as they occur in documents of the common subset, where
names are distinct and binary64 holds every number. On those, deciding what is the same is all that
`Json.DecidesSame` asks of it. `Json.equal` does so, although it rounds numbers and looks for names
on one side only (`decidesSame_equal`).
-/

namespace LinkedSchema.Json

/-- Two values are the same in the language of schemas. -/
inductive SameValue : Json → Json → Prop
  /-- There is one `null`. -/
  | null : SameValue .null .null
  /-- A truth value is the same as itself. -/
  | bool (b : Bool) : SameValue (.bool b) (.bool b)
  /-- A text is the same as itself. -/
  | str (text : String) : SameValue (.str text) (.str text)
  /-- Numbers are the same when their exact values are, be they written as integers or not. -/
  | num {x y : Number} (h : x.units = y.units) : SameValue (.num x) (.num y)
  /-- Arrays are the same when they are as long as each other and have the same item at every
  place. -/
  | arr {vs ws : List Json} (hlength : vs.length = ws.length)
    (h : ∀ (i : Nat) v w, vs[i]? = some v → ws[i]? = some w → SameValue v w) :
    SameValue (.arr vs) (.arr ws)
  /-- Objects are the same when they have the same names and the same value under every name. -/
  | obj {ms ns : Members} (hnames : ∀ name, name ∈ ms.map Prod.fst ↔ name ∈ ns.map Prod.fst)
    (h : ∀ name v w, (name, v) ∈ ms → (name, w) ∈ ns → SameValue v w) :
    SameValue (.obj ms) (.obj ns)

/-- A comparison tells which values are the same, as long as their names are distinct and their
numbers exact. -/
def DecidesSame (same : Json → Json → Bool) : Prop :=
  ∀ v w : Json, v.Distinct → w.Distinct → v.Exact → w.Exact → (same v w = true ↔ v.SameValue w)

variable {v w : Json}

/-- Equal values are the same. -/
theorem sameValue_of_equal (hv : v.Distinct) (hw : w.Distinct) (hve : v.Exact) (hwe : w.Exact)
    (h : v.equal w = true) : v.SameValue w := by
  induction hn : v.size using Nat.strong_induction_on generalizing v w with
  | _ n ih =>
    subst hn
    cases v with
    | null => exact equal_null_iff.mp h ▸ .null
    | bool b => exact equal_bool_iff.mp h ▸ .bool b
    | str text => exact equal_str_iff.mp h ▸ .str text
    | num x =>
      obtain ⟨y, rfl, hxy⟩ := equal_num_iff.mp h
      have hx : x.toBinary64.units = x.units := hve x .here
      have hy : y.toBinary64.units = y.units := hwe y .here
      exact .num (hx.symm.trans (hxy.trans hy))
    | arr vs =>
      obtain ⟨ws, rfl, hlength, hitems⟩ := equal_arr_iff.mp h
      refine .arr hlength fun i v w hvi hwi => ?_
      have hv' : v ∈ vs := List.mem_of_getElem? hvi
      have hw' : w ∈ ws := List.mem_of_getElem? hwi
      exact ih _ (size_lt_of_mem_items hv') (hv.inside (.item .here hv'))
        (hw.inside (.item .here hw')) (hve.inside (.item .here hv'))
        (hwe.inside (.item .here hw')) (hitems i v w hvi hwi) rfl
    | obj ms =>
      obtain ⟨ns, rfl, hlength, hmembers⟩ := equal_obj_iff.mp h
      -- Equality finds every name on the right, and then none is left over there.
      have hnames := perm_names (hv ms .here) hlength hmembers
      refine .obj (fun name => hnames.mem_iff) fun name v w hv' hw' => ?_
      obtain ⟨w', hlookup, he⟩ := hmembers (name, v) hv'
      cases (lookup_of_mem (hw ns .here) hw').symm.trans hlookup
      exact ih _ (size_lt_of_mem_members hv') (hv.inside (.member .here hv'))
        (hw.inside (.member .here hw')) (hve.inside (.member .here hv'))
        (hwe.inside (.member .here hw')) he rfl

/-- Values that are the same are equal. -/
theorem SameValue.equal (h : v.SameValue w) (hv : v.Distinct) (hw : w.Distinct) (hve : v.Exact)
    (hwe : w.Exact) : v.equal w = true := by
  induction h with
  | null => rfl
  | bool b => exact equal_bool_iff.mpr rfl
  | str text => exact equal_str_iff.mpr rfl
  | @num x y hxy =>
    have hx : x.toBinary64.units = x.units := hve x .here
    have hy : y.toBinary64.units = y.units := hwe y .here
    exact equal_num_iff.mpr ⟨y, rfl, hx.trans (hxy.trans hy.symm)⟩
  | arr hlength _ ih =>
    refine equal_arr_iff.mpr ⟨_, rfl, hlength, fun i v w hvi hwi => ?_⟩
    have hv' := List.mem_of_getElem? hvi
    have hw' := List.mem_of_getElem? hwi
    exact ih i v w hvi hwi (hv.inside (.item .here hv')) (hw.inside (.item .here hw'))
      (hve.inside (.item .here hv')) (hwe.inside (.item .here hw'))
  | @obj ms ns hnames _ ih =>
    have hdistinct : (ns.map Prod.fst).Nodup := hw ns .here
    have hperm : (ms.map Prod.fst).Perm (ns.map Prod.fst) :=
      (List.perm_ext_iff_of_nodup (hv ms .here) hdistinct).mpr hnames
    have hlength : ms.length = ns.length := by simpa using hperm.length_eq
    refine equal_obj_iff.mpr ⟨ns, rfl, hlength, fun p hp => ?_⟩
    obtain ⟨w, hw', hlookup⟩ := exists_lookup hperm hdistinct hp
    exact ⟨w, hlookup, ih p.1 p.2 w hp hw' (hv.inside (.member .here hp))
      (hw.inside (.member .here hw')) (hve.inside (.member .here hp))
      (hwe.inside (.member .here hw'))⟩

/-- Equality of values decides which values are the same. -/
theorem decidesSame_equal : DecidesSame equal := fun _ _ hv hw hve hwe =>
  ⟨sameValue_of_equal hv hw hve hwe, fun h => h.equal hv hw hve hwe⟩

end LinkedSchema.Json
