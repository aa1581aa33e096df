import LinkedSchema.Proofs.Loading
import LinkedSchema.Proofs.Values
import Mathlib.Data.List.Forall2
import Mathlib.Data.List.Induction

/-!
# What YAML becomes as JSON

A YAML value is made of pieces: the items of a sequence, the keys and values of a mapping in turn,
the value behind a tag. A place in it numbers the pieces on the way down, so that the order of
places, number by number, is the order of the document. `Yaml.FaultAt` says at which places
something stands that JSON has no form for, and `Yaml.Converts` says what a value becomes that has
no such places; neither knows anything of the conversion. The texts that keys become are listed kind
by kind (`Yaml.KeyText`).

The conversion fails with the fault at the first of all places that have one
(`Yaml.exists_firstFault`), and otherwise returns the one value that the YAML value converts to
(`Yaml.converts_of_toJson`). Both are shown by induction on the pieces: those in front of the one
that fails have been converted, and what has been converted has no fault. The members of an object
come from the entries of a mapping one after the other, by `putMember`. So their names are the texts
of the keys without later repetitions, and a member has the value that was put last.
-/

namespace LinkedSchema

/-! ## Members put one after the other -/

/-- A name at the end is left out if it has come before. -/
theorem eraseDups_concat (names : List String) (name : String) :
    (names ++ [name]).eraseDups =
      if name ∈ names then names.eraseDups else names.eraseDups ++ [name] := by
  rw [List.eraseDups_append]
  split
  · next hin =>
    have hremoved : [name].removeAll names = [] := by simp [List.removeAll, hin]
    rw [hremoved, List.eraseDups_nil, List.append_nil]
  · next hin =>
    have hkept : [name].removeAll names = [name] := by simp [List.removeAll, hin]
    rw [hkept]
    rfl

/-- No repetition is left. -/
theorem nodup_eraseDups (names : List String) : names.eraseDups.Nodup := by
  induction names using List.reverseRec with
  | nil => exact List.nodup_nil
  | append_singleton names name ih =>
    rw [eraseDups_concat]
    split
    · exact ih
    · next hin =>
      rw [← List.concat_eq_append]
      exact ih.concat (by rwa [List.mem_eraseDups])

namespace Json

/-- The members of an object to which entries are put, the first one first. -/
def putMembers (members entries : Members) : Members :=
  entries.foldl (fun members entry => putMember members entry.1 entry.2) members

/-- The last entry is put after all the others. -/
theorem putMembers_concat (members entries : Members) (entry : String × Json) :
    putMembers members (entries ++ [entry]) =
      putMember (putMembers members entries) entry.1 entry.2 := by
  simp [putMembers]

/-- A member that has been put has its new value, and the others have theirs. -/
theorem lookup_putMember (members : Members) (name other : String) (v : Json) :
    (putMember members name v).lookup other =
      if other = name then some v else members.lookup other := by
  induction members with
  | nil =>
    rw [putMember, List.lookup_cons]
    by_cases ho : other = name
    · simp [ho]
    · rw [beq_eq_false_iff_ne.mpr ho, if_neg ho]
  | cons member rest ih =>
    obtain ⟨k, w⟩ := member
    rw [putMember]
    by_cases hk : k = name
    · subst hk
      rw [if_pos rfl, List.lookup_cons, List.lookup_cons]
      by_cases ho : other = k
      · simp [ho]
      · rw [beq_eq_false_iff_ne.mpr ho, if_neg ho]
    · rw [if_neg hk, List.lookup_cons, List.lookup_cons, ih]
      by_cases ho : other = k
      · simp [ho, hk]
      · rw [beq_eq_false_iff_ne.mpr ho]

/-- A member with a new name comes last. -/
theorem putMember_of_notMem {members : Members} {name : String}
    (h : name ∉ members.map Prod.fst) (v : Json) :
    putMember members name v = members ++ [(name, v)] := by
  induction members with
  | nil => rfl
  | cons member rest ih =>
    obtain ⟨k, w⟩ := member
    rw [List.map_cons, List.mem_cons, not_or] at h
    rw [putMember, if_neg (Ne.symm h.1), ih h.2, List.cons_append]

/-- The names of the members are those of the entries, at the places of their first occurrence. -/
theorem map_fst_putMembers (entries : Members) :
    (putMembers [] entries).map Prod.fst = (entries.map Prod.fst).eraseDups := by
  induction entries using List.reverseRec with
  | nil => rfl
  | append_singleton entries entry ih =>
    rw [putMembers_concat, map_fst_putMember, ih, List.map_append, List.map_singleton,
      eraseDups_concat]
    simp only [List.mem_eraseDups]

/-- The value of a member is that of the last entry of its name. -/
theorem lookup_putMembers (entries : Members) (name : String) :
    (putMembers [] entries).lookup name = entries.reverse.lookup name := by
  induction entries using List.reverseRec with
  | nil => rfl
  | append_singleton entries entry ih =>
    rw [putMembers_concat, lookup_putMember, ih, List.reverse_concat, List.lookup_cons]
    by_cases hn : name = entry.1
    · simp [hn]
    · rw [if_neg hn, beq_eq_false_iff_ne.mpr hn]

/-- Members of the same distinct names that have the same values are the same. -/
theorem members_ext {ms ns : Members} (hnames : ms.map Prod.fst = ns.map Prod.fst)
    (hdistinct : (ms.map Prod.fst).Nodup)
    (h : ∀ name v w, ms.lookup name = some v → ns.lookup name = some w → v = w) : ms = ns := by
  have hlength : ms.length = ns.length := by simpa using congrArg List.length hnames
  refine List.ext_getElem hlength fun i hi hi' => ?_
  have hname : ms[i].1 = ns[i].1 := by
    have hi : i < (ms.map Prod.fst).length := by simpa using hi
    have he := List.getElem_of_eq hnames hi
    rwa [List.getElem_map, List.getElem_map] at he
  have hv : ms.lookup ms[i].1 = some ms[i].2 := lookup_of_mem hdistinct (List.getElem_mem hi)
  have hw : ns.lookup ns[i].1 = some ns[i].2 :=
    lookup_of_mem (hnames ▸ hdistinct) (List.getElem_mem hi')
  exact Prod.ext hname (h _ _ _ hv (hname ▸ hw))

end Json

section Related

variable {α β : Type} {R : α → β → Prop}

/-- Every item of a list is related to one of the other list. -/
theorem exists_related {xs : List α} {ys : List β} (h : List.Forall₂ R xs ys) {x : α}
    (hx : x ∈ xs) : ∃ y, R x y := by
  obtain ⟨i, hi, rfl⟩ := List.getElem_of_mem hx
  exact ⟨_, h.get hi (h.length_eq ▸ hi)⟩

variable {xs : List (String × α)} {ys : List (String × β)}

/-- Lists with the same names in the same order have related values under every name. -/
theorem lookup_related (h : List.Forall₂ (fun x y => x.1 = y.1 ∧ R x.2 y.2) xs ys)
    (name : String) : Option.Rel R (xs.lookup name) (ys.lookup name) := by
  induction h with
  | nil => exact .none
  | @cons x y xs ys hxy _ ih =>
    obtain ⟨hname, hR⟩ := hxy
    rw [List.lookup_cons, List.lookup_cons, ← hname]
    cases name == x.1 with
    | true => exact .some hR
    | false => exact ih

/-- Lists with the same names in the same order have the same names. -/
theorem map_fst_related (h : List.Forall₂ (fun x y => x.1 = y.1 ∧ R x.2 y.2) xs ys) :
    xs.map Prod.fst = ys.map Prod.fst := by
  induction h with
  | nil => rfl
  | cons hxy _ ih => rw [List.map_cons, List.map_cons, hxy.1, ih]

end Related

namespace Yaml

/-! ## Pieces, places and faults -/

/-- A value that may be a key: a text, a number, a switch or nothing, without a tag. -/
def IsKey : Yaml → Prop
  | null | bool _ | num _ | str _ => True
  | _ => False

/-- What values are made of. -/
inductive Piece where
  /-- The key of an entry. -/
  | key (k : Yaml)
  /-- An item, the value of an entry, or the value behind a tag. -/
  | value (v : Yaml)

/-- What a value is made of directly, in the order of the document. -/
def pieces : Yaml → List Piece
  | seq items => items.map .value
  | map pairs => pairs.flatMap fun p => [.key p.1, .value p.2]
  | tagged _ v => [.value v]
  | _ => []

/-- At a place of a piece, which is given by the numbers of the pieces on the way down, something
stands that JSON has no form for. -/
inductive FaultAt : Piece → List Nat → ParseFailure → Prop
  /-- What is not a number, as a value. -/
  | nan : FaultAt (.value (.num .nan)) [] (.nonFinite "NaN")
  /-- An infinite number, as a value. -/
  | infinity (negative : Bool) :
    FaultAt (.value (.num (.infinity negative))) []
      (.nonFinite (if negative then "-inf" else "inf"))
  /-- A key that is no scalar or has a tag. -/
  | key {k : Yaml} (h : ¬k.IsKey) : FaultAt (.key k) [] (.mappingKey k.display)
  /-- A fault of a piece of a value. -/
  | inside {y : Yaml} {piece : Piece} {i : Nat} {place : List Nat} {e : ParseFailure}
    (hpiece : y.pieces[i]? = some piece) (h : FaultAt piece place e) :
    FaultAt (.value y) (i :: place) e

/-- A piece has no fault anywhere. -/
def Faultless (piece : Piece) : Prop := ∀ place e, ¬FaultAt piece place e

/-- A piece has a fault at a place and none in front of it. -/
structure FirstFault (piece : Piece) (place : List Nat) (e : ParseFailure) : Prop where
  /-- The fault. -/
  here : FaultAt piece place e
  /-- No other fault comes earlier. -/
  first : ∀ other e', FaultAt piece other e' → ¬other < place

/-- There is one fault at a place. -/
theorem FaultAt.unique {piece : Piece} {place : List Nat} {e e' : ParseFailure}
    (h : FaultAt piece place e) (h' : FaultAt piece place e') : e = e' := by
  induction h generalizing e' with
  | nan | infinity | key =>
    cases h'
    rfl
  | inside hpiece _ ih =>
    cases h' with
    | inside hpiece' h' =>
      cases hpiece.symm.trans hpiece'
      exact ih h'

/-- There is one first fault. -/
theorem FirstFault.unique {piece : Piece} {place place' : List Nat} {e e' : ParseFailure}
    (h : FirstFault piece place e) (h' : FirstFault piece place' e') : e = e' := by
  have hplace : place = place' :=
    List.le_antisymm (List.not_lt.mp (h.first _ _ h'.here)) (List.not_lt.mp (h'.first _ _ h.here))
  subst hplace
  exact h.here.unique h'.here

/-- A fault that stands at the top is the first one. -/
theorem firstFault_top {piece : Piece} {e : ParseFailure} (h : FaultAt piece [] e) :
    FirstFault piece [] e :=
  ⟨h, fun other _ _ => List.not_lt_nil other⟩

/-- The first fault of a piece is the first fault of the value, if the pieces in front have none. -/
theorem FirstFault.inside {y : Yaml} {before after : List Piece} {piece : Piece} {place : List Nat}
    {e : ParseFailure} (hy : y.pieces = before ++ piece :: after)
    (hbefore : ∀ p ∈ before, Faultless p) (h : FirstFault piece place e) :
    FirstFault (.value y) (before.length :: place) e where
  here := .inside (by simp [hy]) h.here
  first := by
    intro other e' h' hlt
    cases h' with
    | nan => simp [pieces] at hy
    | infinity => simp [pieces] at hy
    | @inside _ piece' i other _ hpiece h' =>
      rw [hy] at hpiece
      rcases List.cons_lt_cons_iff.mp hlt with hi | ⟨rfl, hother⟩
      · rw [List.getElem?_append_left hi] at hpiece
        exact hbefore _ (List.mem_of_getElem? hpiece) _ _ h'
      · have hsame : piece = piece' := by simpa using hpiece
        exact h.first _ _ (hsame ▸ h') hother

/-! ## What the conversion takes and where it stops -/

/-- A piece that the conversion takes: a key that has a text, or a value that becomes one. -/
def Piece.Passes : Piece → Prop
  | key k => ∃ name, keyName k = .ok name
  | value v => ∃ w, v.toJson = .ok w

/-- A piece that the conversion refuses. -/
def Piece.Fails (e : ParseFailure) : Piece → Prop
  | key k => keyName k = .error e
  | value v => v.toJson = .error e

/-- Of several pieces the conversion refuses one, after having taken those in front of it. -/
def StopsAt (pieces : List Piece) (e : ParseFailure) : Prop :=
  ∃ before piece after, pieces = before ++ piece :: after ∧ (∀ p ∈ before, p.Passes) ∧
    piece.Fails e

/-- The conversion stops at the first piece if it refuses this one. -/
theorem Piece.Fails.stopsAt (piece : Piece) {e : ParseFailure} (h : piece.Fails e)
    (rest : List Piece) : StopsAt (piece :: rest) e :=
  ⟨[], piece, rest, rfl, by simp, h⟩

/-- The conversion stops further on if it takes the first piece. -/
theorem StopsAt.cons {rest : List Piece} {e : ParseFailure} (h : StopsAt rest e) (piece : Piece)
    (hpiece : piece.Passes) : StopsAt (piece :: rest) e := by
  obtain ⟨before, stop, after, rfl, hbefore, hstop⟩ := h
  exact ⟨piece :: before, stop, after, rfl, List.forall_mem_cons.mpr ⟨hpiece, hbefore⟩, hstop⟩

/-- A key that is refused is none, and is refused for that. -/
theorem keyName_eq_error {k : Yaml} {e : ParseFailure} :
    keyName k = .error e ↔ ¬k.IsKey ∧ e = .mappingKey k.display := by
  cases k <;> simp [keyName, IsKey, eq_comm]

/-- The text of a key. A text is its own, a switch and nothing have their names, and a number is
written out, one that is not finite as YAML spells it. -/
inductive KeyText : Yaml → String → Prop
  /-- A text. -/
  | str (s : String) : KeyText (.str s) s
  /-- A switch that is on. -/
  | yes : KeyText (.bool true) "true"
  /-- A switch that is off. -/
  | no : KeyText (.bool false) "false"
  /-- Nothing. -/
  | null : KeyText .null "null"
  /-- An integer, in decimal. -/
  | int (n : Int) : KeyText (.num (.int n)) (toString n)
  /-- A finite number, in the shortest digits that are read as it. -/
  | float (x : Binary64) : KeyText (.num (.float x)) (YamlNumber.floatStyle.render x)
  /-- Infinity. -/
  | infinity : KeyText (.num (.infinity false)) ".inf"
  /-- Negative infinity. -/
  | negativeInfinity : KeyText (.num (.infinity true)) "-.inf"
  /-- No number. -/
  | nan : KeyText (.num .nan) ".nan"

/-- The name that a key becomes is its text, and what has no text becomes none. -/
theorem keyName_eq_ok {k : Yaml} {name : String} : keyName k = .ok name ↔ KeyText k name := by
  constructor
  · intro h
    cases k with
    | null => cases h; exact .null
    | str s => cases h; exact .str _
    | bool b => cases b <;> cases h <;> constructor
    | num n =>
      cases n with
      | int n => cases h; exact .int _
      | float x => cases h; exact .float _
      | infinity negative => cases negative <;> cases h <;> constructor
      | nan => cases h; exact .nan
    | _ => cases h
  · intro h
    cases h <;> rfl

/-- A key that has a text is one. -/
theorem isKey_of_keyName {k : Yaml} {name : String} (h : keyName k = .ok name) : k.IsKey := by
  by_contra hk
  rw [keyName_eq_error.mpr ⟨hk, rfl⟩] at h
  cases h

/-- Items that become values become one each, in order. -/
theorem itemsToJson_ok {items : List Yaml} {values : List Json}
    (h : itemsToJson items = .ok values) :
    List.Forall₂ (fun v w => v.toJson = .ok w) items values := by
  induction items generalizing values with
  | nil =>
    cases h
    exact .nil
  | cons v rest ih =>
    rw [itemsToJson] at h
    obtain ⟨w, hw, h⟩ := bind_eq_ok.mp h
    obtain ⟨ws, hws, h⟩ := bind_eq_ok.mp h
    cases h
    exact .cons hw (ih hws)

/-- Items that become no values stop the conversion. -/
theorem itemsToJson_error {items : List Yaml} {e : ParseFailure}
    (h : itemsToJson items = .error e) : StopsAt (seq items).pieces e := by
  induction items with
  | nil => cases h
  | cons v rest ih =>
    rw [itemsToJson] at h
    rcases bind_eq_error.mp h with hv | ⟨w, hw, h⟩
    · exact Piece.Fails.stopsAt (.value v) hv _
    · rcases bind_eq_error.mp h with hrest | ⟨ws, -, h⟩
      · exact (ih hrest).cons (.value v) ⟨w, hw⟩
      · cases h

/-- Entries that become members are put one after the other. -/
theorem pairsToJson_ok {pairs : List (Yaml × Yaml)} {before members : Members}
    (h : pairsToJson pairs before = .ok members) :
    ∃ entries, List.Forall₂ (fun p entry => keyName p.1 = .ok entry.1 ∧
        p.2.toJson = .ok entry.2) pairs entries ∧ members = Json.putMembers before entries := by
  induction pairs generalizing before with
  | nil =>
    cases h
    exact ⟨[], .nil, rfl⟩
  | cons p rest ih =>
    obtain ⟨k, v⟩ := p
    rw [pairsToJson] at h
    obtain ⟨name, hname, h⟩ := bind_eq_ok.mp h
    obtain ⟨w, hw, h⟩ := bind_eq_ok.mp h
    obtain ⟨entries, hentries, hmembers⟩ := ih h
    exact ⟨(name, w) :: entries, .cons ⟨hname, hw⟩ hentries, hmembers⟩

/-- Entries that become no members stop the conversion, at a key or at a value. -/
theorem pairsToJson_error {pairs : List (Yaml × Yaml)} {before : Members} {e : ParseFailure}
    (h : pairsToJson pairs before = .error e) : StopsAt (map pairs).pieces e := by
  induction pairs generalizing before with
  | nil => cases h
  | cons p rest ih =>
    obtain ⟨k, v⟩ := p
    rw [pairsToJson] at h
    rcases bind_eq_error.mp h with hk | ⟨name, hname, h⟩
    · exact Piece.Fails.stopsAt (.key k) hk _
    · refine StopsAt.cons ?_ (.key k) ⟨name, hname⟩
      rcases bind_eq_error.mp h with hv | ⟨w, hw, h⟩
      · exact Piece.Fails.stopsAt (.value v) hv _
      · exact (ih h).cons (.value v) ⟨w, hw⟩

/-- The conversion takes all pieces of a value that becomes one. -/
theorem passes_of_toJson {y : Yaml} {w : Json} (h : y.toJson = .ok w) :
    ∀ piece ∈ y.pieces, piece.Passes := by
  intro piece hpiece
  cases y with
  | seq items =>
    rw [toJson] at h
    obtain ⟨values, hvalues, -⟩ := map_eq_ok.mp h
    obtain ⟨v, hv, rfl⟩ := List.mem_map.mp hpiece
    exact exists_related (itemsToJson_ok hvalues) hv
  | map pairs =>
    rw [toJson] at h
    obtain ⟨members, hmembers, -⟩ := map_eq_ok.mp h
    obtain ⟨entries, hentries, -⟩ := pairsToJson_ok hmembers
    obtain ⟨p, hp, hpiece⟩ := List.mem_flatMap.mp hpiece
    obtain ⟨entry, hname, hvalue⟩ := exists_related hentries hp
    rcases List.mem_pair.mp hpiece with rfl | rfl
    · exact ⟨_, hname⟩
    · exact ⟨_, hvalue⟩
  | tagged tag v =>
    rw [List.mem_singleton.mp hpiece]
    exact ⟨w, h⟩
  | _ => cases hpiece

/-- A value that becomes none has a fault of its own, or one of its pieces stops the conversion. -/
theorem toJson_error {y : Yaml} {e : ParseFailure} (h : y.toJson = .error e) :
    FaultAt (.value y) [] e ∨ StopsAt y.pieces e := by
  cases y with
  | num n =>
    rw [toJson] at h
    cases n with
    | int _ => cases h
    | float _ => cases h
    | infinity negative =>
      left
      cases negative <;> cases h
      · exact .infinity false
      · exact .infinity true
    | nan =>
      cases h
      exact .inl .nan
  | seq items =>
    rw [toJson] at h
    exact .inr (itemsToJson_error (map_eq_error.mp h))
  | map pairs =>
    rw [toJson] at h
    exact .inr (pairsToJson_error (map_eq_error.mp h))
  | tagged tag v => exact .inr (Piece.Fails.stopsAt (.value v) h [])
  | _ => cases h

/-! ## Faults -/

/-- What holds of a value when it holds of all values among its pieces holds of every value. -/
@[elab_as_elim]
theorem pieces_induction {P : Yaml → Prop}
    (step : ∀ y, (∀ v, .value v ∈ y.pieces → P v) → P y) (y : Yaml) : P y := by
  refine step y fun v hv => ?_
  have hsize : sizeOf v < sizeOf y := by
    cases y with
    | seq items =>
      obtain ⟨u, hu, he⟩ := List.mem_map.mp hv
      cases he
      have := List.sizeOf_lt_of_mem hu
      simp only [seq.sizeOf_spec]
      omega
    | map pairs =>
      obtain ⟨⟨k, u⟩, hp, hpiece⟩ := List.mem_flatMap.mp hv
      have hu : v = u := by simpa using hpiece
      have := List.sizeOf_lt_of_mem hp
      simp only [map.sizeOf_spec, Prod.mk.sizeOf_spec, hu] at *
      omega
    | tagged tag u =>
      cases List.mem_singleton.mp hv
      simp only [tagged.sizeOf_spec]
      omega
    | _ => cases hv
  exact pieces_induction step v
termination_by sizeOf y

/-- What becomes a value has no fault. -/
theorem faultless_of_toJson {y : Yaml} {w : Json} (h : y.toJson = .ok w) :
    Faultless (.value y) := by
  induction y using pieces_induction generalizing w with
  | step y ih =>
    intro place e hfault
    cases hfault with
    | nan => cases h
    | infinity negative => cases negative <;> cases h
    | @inside _ piece i _ _ hpiece hfault =>
      have hmem := List.mem_of_getElem? hpiece
      cases piece with
      | key k =>
        obtain ⟨name, hname⟩ := passes_of_toJson h _ hmem
        cases hfault with
        | key hk => exact hk (isKey_of_keyName hname)
      | value v =>
        obtain ⟨w, hw⟩ := passes_of_toJson h _ hmem
        exact ih v hmem hw _ _ hfault

/-- A piece that the conversion takes has no fault. -/
theorem Piece.Passes.faultless {piece : Piece} (h : piece.Passes) : Faultless piece := by
  cases piece with
  | key k =>
    obtain ⟨name, hname⟩ := h
    intro place e hfault
    cases hfault with
    | key hk => exact hk (isKey_of_keyName hname)
  | value v =>
    obtain ⟨w, hw⟩ := h
    exact faultless_of_toJson hw

/-- The conversion fails with the first fault. -/
theorem exists_firstFault {y : Yaml} {e : ParseFailure} (h : y.toJson = .error e) :
    ∃ place, FirstFault (.value y) place e := by
  induction y using pieces_induction generalizing e with
  | step y ih =>
    rcases toJson_error h with hfault | ⟨before, piece, after, hy, hbefore, hpiece⟩
    · exact ⟨[], firstFault_top hfault⟩
    · obtain ⟨place, hplace⟩ : ∃ place, FirstFault piece place e := by
        cases piece with
        | key k =>
          obtain ⟨hk, rfl⟩ := keyName_eq_error.mp hpiece
          exact ⟨[], firstFault_top (.key hk)⟩
        | value v => exact ih v (by simp [hy]) hpiece
      exact ⟨_, hplace.inside hy fun p hp => (hbefore p hp).faultless⟩

/-! ## Values -/

/-- The values of the entries of a mapping, under the texts of their keys. -/
def keyed (pairs : List (Yaml × Yaml)) : List (String × Yaml) :=
  pairs.filterMap fun p => (keyName p.1).toOption.map (·, p.2)

/-- What a YAML value becomes. Tags vanish at every level, switches, numbers and texts stay what
they are, and items keep their order. An object has the texts of the keys for names, each at the
place where it comes first, and under a name the value that comes last. -/
inductive Converts : Yaml → Json → Prop
  | null : Converts .null .null
  | bool (b : Bool) : Converts (.bool b) (.bool b)
  | int (n : Int) : Converts (.num (.int n)) (.num (.int n))
  | float (x : Binary64) : Converts (.num (.float x)) (.num (.float x))
  | str (s : String) : Converts (.str s) (.str s)
  | seq {items : List Yaml} {values : List Json} (hlength : items.length = values.length)
    (h : ∀ (i : Nat) (v : Yaml) (w : Json), items[i]? = some v → values[i]? = some w →
      Converts v w) :
    Converts (.seq items) (.arr values)
  | map {pairs : List (Yaml × Yaml)} {members : Members}
    (hnames : members.map Prod.fst = ((keyed pairs).map Prod.fst).eraseDups)
    (h : ∀ (name : String) (v : Yaml) (w : Json), (keyed pairs).reverse.lookup name = some v →
      members.lookup name = some w → Converts v w) :
    Converts (.map pairs) (.obj members)
  | tagged {tag : String} {v : Yaml} {w : Json} (h : Converts v w) : Converts (.tagged tag v) w

/-- A YAML value becomes one value. -/
theorem Converts.unique {y : Yaml} {w w' : Json} (h : Converts y w) (h' : Converts y w') :
    w = w' := by
  induction h generalizing w' with
  | null | bool | int | float | str =>
    cases h'
    rfl
  | @seq items values hlength _ ih =>
    cases h' with
    | @seq _ values' hlength' h' =>
      refine congrArg Json.arr (List.ext_getElem (hlength.symm.trans hlength') fun i hi hi' => ?_)
      have hitem : items[i]? = some items[i] := List.getElem?_eq_getElem (hlength ▸ hi)
      have hvalue' : values'[i]? = some values'[i] := List.getElem?_eq_getElem hi'
      exact ih i _ _ hitem (List.getElem?_eq_getElem hi) (h' i _ _ hitem hvalue')
  | @map pairs members hnames _ ih =>
    cases h' with
    | @map _ members' hnames' h' =>
      refine congrArg Json.obj (Json.members_ext (hnames.trans hnames'.symm)
        (hnames ▸ nodup_eraseDups _) fun name w w' hw hw' => ?_)
      have hname : name ∈ members.map Prod.fst :=
        List.mem_map.mpr ⟨(name, w), Json.mem_of_lookup hw, rfl⟩
      obtain ⟨v, hv⟩ : ∃ v, (keyed pairs).reverse.lookup name = some v := by
        rw [hnames, List.mem_eraseDups] at hname
        obtain ⟨entry, hentry, he⟩ := List.mem_map.mp hname
        rw [← Option.isSome_iff_exists, List.lookup_isSome_iff]
        exact ⟨entry, List.mem_reverse.mpr hentry, beq_iff_eq.mpr he.symm⟩
      exact ih name v w hv hw (h' name v w' hv hw')
  | tagged _ ih =>
    cases h' with
    | tagged h' => exact ih h'

/-- The entries that are put are the keyed values, converted. -/
theorem keyed_related {pairs : List (Yaml × Yaml)} {entries : Members}
    (h : List.Forall₂ (fun p entry => keyName p.1 = .ok entry.1 ∧ p.2.toJson = .ok entry.2)
      pairs entries) :
    List.Forall₂ (fun x entry => x.1 = entry.1 ∧ x.2.toJson = .ok entry.2)
      (keyed pairs) entries := by
  induction h with
  | nil => exact .nil
  | @cons p entry pairs entries hp _ ih =>
    obtain ⟨hname, hvalue⟩ := hp
    have hkeyed : keyed (p :: pairs) = (entry.1, p.2) :: keyed pairs := by
      simp [keyed, hname, Except.toOption]
    rw [hkeyed]
    exact .cons ⟨rfl, hvalue⟩ ih

/-- What is found under a name is the value of an entry. -/
theorem mem_pieces_of_lookup {pairs : List (Yaml × Yaml)} {name : String} {v : Yaml}
    (h : (keyed pairs).reverse.lookup name = some v) : .value v ∈ (map pairs).pieces := by
  obtain ⟨before, after, he, -⟩ := List.lookup_eq_some_iff.mp h
  have hmem : (name, v) ∈ keyed pairs := by
    rw [← List.mem_reverse, he]
    simp
  obtain ⟨⟨k, u⟩, hp, hkeyed⟩ := List.mem_filterMap.mp hmem
  obtain ⟨_, -, he⟩ := Option.map_eq_some_iff.mp hkeyed
  cases he
  exact List.mem_flatMap.mpr ⟨(k, u), hp, by simp⟩

/-- A mapping becomes the object to which its entries are put, if their values become what is put. -/
theorem converts_map {pairs : List (Yaml × Yaml)} {entries : Members}
    (h : List.Forall₂ (fun p entry => keyName p.1 = .ok entry.1 ∧ p.2.toJson = .ok entry.2)
      pairs entries)
    (hvalues : ∀ v, .value v ∈ (map pairs).pieces → ∀ w, v.toJson = .ok w → Converts v w) :
    Converts (.map pairs) (.obj (Json.putMembers [] entries)) := by
  have hkeyed := keyed_related h
  have hnames : (keyed pairs).map Prod.fst = entries.map Prod.fst :=
    map_fst_related (R := fun v w => toJson v = .ok w) hkeyed
  refine .map ?_ fun name v w hv hw => ?_
  · rw [Json.map_fst_putMembers, hnames]
  · -- What is found under a name are the last entry of it and what this entry has become.
    have hlast := lookup_related (R := fun v w => toJson v = .ok w) (List.rel_reverse hkeyed) name
    rw [← Json.lookup_putMembers, hw, hv] at hlast
    cases hlast with
    | some hvalue => exact hvalues v (mem_pieces_of_lookup hv) w hvalue

/-- What the conversion returns is what the value becomes. -/
theorem converts_of_toJson {y : Yaml} {w : Json} (h : y.toJson = .ok w) : Converts y w := by
  induction y using pieces_induction generalizing w with
  | step y ih =>
    cases y with
    | null => cases h; exact .null
    | bool b => cases h; exact .bool b
    | str s => cases h; exact .str s
    | num n =>
      rw [toJson] at h
      cases n with
      | int n => cases h; exact .int n
      | float x => cases h; exact .float x
      | infinity negative => cases negative <;> cases h
      | nan => cases h
    | seq items =>
      rw [toJson] at h
      obtain ⟨values, hvalues, rfl⟩ := map_eq_ok.mp h
      have hrelated := itemsToJson_ok hvalues
      refine .seq hrelated.length_eq fun i v w hv hw => ?_
      obtain ⟨hi, rfl⟩ := List.getElem?_eq_some_iff.mp hv
      obtain ⟨hi', rfl⟩ := List.getElem?_eq_some_iff.mp hw
      exact ih _ (List.mem_map.mpr ⟨_, List.getElem_mem hi, rfl⟩) (hrelated.get hi hi')
    | map pairs =>
      rw [toJson] at h
      obtain ⟨members, hmembers, rfl⟩ := map_eq_ok.mp h
      obtain ⟨entries, hentries, rfl⟩ := pairsToJson_ok hmembers
      exact converts_map hentries fun v hv w hw => ih v hv hw
    | tagged tag v => exact .tagged (ih v (List.mem_singleton.mpr rfl) h)

/-! ## JSON values written in YAML -/

mutual

/-- A JSON value as a YAML value. -/
def ofJson : Json → Yaml
  | .null => .null
  | .bool b => .bool b
  | .num (.int n) => .num (.int n)
  | .num (.float x) => .num (.float x)
  | .str s => .str s
  | .arr items => .seq (ofItems items)
  | .obj members => .map (ofMembers members)

/-- The items of an array as those of a sequence. -/
def ofItems : List Json → List Yaml
  | [] => []
  | v :: rest => ofJson v :: ofItems rest

/-- The members of an object as the entries of a mapping. -/
def ofMembers : Members → List (Yaml × Yaml)
  | [] => []
  | (name, v) :: rest => (.str name, ofJson v) :: ofMembers rest

end

mutual

/-- A JSON value with distinct names is converted to itself. -/
theorem toJson_ofJson : ∀ {v : Json}, v.Distinct → (ofJson v).toJson = .ok v
  | .null, _ | .bool _, _ | .num (.int _), _ | .num (.float _), _ | .str _, _ => rfl
  | .arr items, h => by
    have hitems : ∀ v ∈ items, v.Distinct := fun v hv => h.inside (.item .here hv)
    rw [ofJson, toJson, itemsToJson_ofItems hitems]
    rfl
  | .obj members, h => by
    have hvalues : ∀ p ∈ members, p.2.Distinct := fun p hp => h.inside (.member .here hp)
    have hnames : (([] ++ members).map Prod.fst).Nodup := h members .here
    rw [ofJson, toJson, pairsToJson_ofMembers hnames hvalues]
    rfl

/-- Items with distinct names are converted to themselves. -/
theorem itemsToJson_ofItems : ∀ {items : List Json}, (∀ v ∈ items, v.Distinct) →
    itemsToJson (ofItems items) = .ok items
  | [], _ => rfl
  | v :: rest, h => by
    obtain ⟨hv, hrest⟩ := List.forall_mem_cons.mp h
    rw [ofItems, itemsToJson, toJson_ofJson hv, itemsToJson_ofItems hrest]
    rfl

/-- Members with distinct names are converted to themselves and come behind those before. -/
theorem pairsToJson_ofMembers : ∀ {members before : Members},
    ((before ++ members).map Prod.fst).Nodup → (∀ p ∈ members, p.2.Distinct) →
    pairsToJson (ofMembers members) before = .ok (before ++ members)
  | [], before, _, _ => by rw [List.append_nil, ofMembers, pairsToJson]
  | (name, v) :: rest, before, hnames, h => by
    obtain ⟨hv, hrest⟩ := List.forall_mem_cons.mp h
    have hnew : name ∉ before.map Prod.fst := by
      intro hin
      rw [List.map_append, List.nodup_append] at hnames
      exact hnames.2.2 name hin name (by simp) rfl
    have hput : putMember before name v = before ++ [(name, v)] := Json.putMember_of_notMem hnew v
    have happend : before ++ (name, v) :: rest = before ++ [(name, v)] ++ rest := by simp
    rw [happend] at hnames ⊢
    rw [← pairsToJson_ofMembers hnames hrest, ← hput, ofMembers, pairsToJson, toJson_ofJson hv]
    rfl

end

/-! ## The conversion as a whole -/

/-- The conversion of a YAML value fails exactly when somewhere in it a number that is not finite
stands as a value, or an entry has a key that is no scalar or has a tag. It fails with the first of
these faults in the order of the document, where the key of an entry comes before its value.
Otherwise it returns the one JSON value that the YAML value becomes, where the names in its objects
are the texts of keys. A value that is JSON already, with distinct names in its objects, becomes
itself. -/
theorem toJson_exact (y : Yaml) :
    ((∃ e, y.toJson = .error e) ↔ ∃ place e, FaultAt (.value y) place e) ∧
      (∀ e, y.toJson = .error e ↔ ∃ place, FirstFault (.value y) place e) ∧
      (∀ w, y.toJson = .ok w ↔ Faultless (.value y) ∧ Converts y w) ∧
      (∀ w, Converts y w → ∀ w', Converts y w' → w = w') ∧
      (∀ k name, keyName k = .ok name ↔ KeyText k name) ∧
      ∀ v : Json, y = ofJson v → v.Distinct → y.toJson = .ok v := by
  have herror : ∀ {place e}, FaultAt (.value y) place e → ∃ e', y.toJson = .error e' := by
    intro place e hfault
    cases h : y.toJson with
    | error e' => exact ⟨e', rfl⟩
    | ok w => exact absurd hfault (faultless_of_toJson h place e)
  refine ⟨⟨?_, ?_⟩, fun e => ⟨exists_firstFault, ?_⟩, fun w => ⟨fun h => ?_, ?_⟩, ?_,
    fun _ _ => keyName_eq_ok, ?_⟩
  · rintro ⟨e, h⟩
    obtain ⟨place, hplace⟩ := exists_firstFault h
    exact ⟨place, e, hplace.here⟩
  · rintro ⟨place, e, hfault⟩
    exact herror hfault
  · rintro ⟨place, hfirst⟩
    obtain ⟨e', h⟩ := herror hfirst.here
    obtain ⟨place', hfirst'⟩ := exists_firstFault h
    rw [h, hfirst.unique hfirst']
  · exact ⟨faultless_of_toJson h, converts_of_toJson h⟩
  · rintro ⟨hfaultless, hconverts⟩
    cases h : y.toJson with
    | error e =>
      obtain ⟨place, hplace⟩ := exists_firstFault h
      exact absurd hplace.here (hfaultless place e)
    | ok w' => rw [hconverts.unique (converts_of_toJson h)]
  · exact fun w h w' h' => h.unique h'
  · rintro v rfl hdistinct
    exact toJson_ofJson hdistinct

/-- A number with a fraction. -/
def oneAndHalf : Binary64 := .ofMagnitude false (Binary64.one + Binary64.one / 2)

/-- Entries with an early key that comes again as a text, a value behind a tag, and keys of the
other kinds. -/
def collidingKeys : Yaml :=
  .map [(.num (.int 1), .null), (.str "x", .tagged "t" (.bool true)), (.str "1", .str "last"),
    (.num (.float oneAndHalf), .null), (.bool true, .null), (.null, .bool false),
    (.str "true", .num (.int 2))]

/-- The same as JSON. -/
def collidedKeys : Json :=
  .obj [("1", .str "last"), ("x", .bool true), ("1.5", .null), ("true", .num (.int 2)),
    ("null", .bool false)]

/-- The entries become members, and these become themselves; behind them a key that is no scalar is
the first fault, although its value is one too. -/
theorem collidingKeys_converted :
    Converts collidingKeys collidedKeys ∧
      (∃ place, FirstFault (.value (.seq [collidingKeys, .map [(.seq [], .num .nan)]])) place
        (.mappingKey "Sequence []")) ∧
      KeyText (.num (.float oneAndHalf)) "1.5" ∧
      collidedKeys.Distinct ∧ (ofJson collidedKeys).toJson = .ok collidedKeys := by
  have hrender : YamlNumber.render (.float oneAndHalf) = "1.5" := by decide +kernel
  have hdistinct : collidedKeys.Distinct := by
    refine Json.distinct_obj ⟨by decide, ?_⟩
    simp only [List.forall_mem_cons, List.not_mem_nil, false_implies, implies_true, and_true]
    exact ⟨Json.distinct_scalar trivial, Json.distinct_scalar trivial, Json.distinct_scalar trivial,
      Json.distinct_scalar trivial, Json.distinct_scalar trivial⟩
  have hconverted : collidingKeys.toJson = .ok collidedKeys := by
    simp only [collidingKeys, toJson, pairsToJson, keyName, hrender]
    rfl
  have hrefused : (seq [collidingKeys, .map [(.seq [], .num .nan)]]).toJson =
      .error (.mappingKey "Sequence []") := by
    rw [toJson, itemsToJson, hconverted]
    rfl
  obtain ⟨-, -, hvalue, -, htext, -⟩ := toJson_exact collidingKeys
  obtain ⟨-, hfault, -⟩ := toJson_exact (.seq [collidingKeys, .map [(.seq [], .num .nan)]])
  obtain ⟨-, -, -, -, -, hself⟩ := toJson_exact (ofJson collidedKeys)
  have hkey : KeyText (.num (.float oneAndHalf)) "1.5" :=
    (htext _ _).mp (congrArg Except.ok hrender)
  exact ⟨((hvalue collidedKeys).mp hconverted).2, (hfault _).mp hrefused, hkey, hdistinct,
    hself collidedKeys rfl hdistinct⟩

end Yaml

end LinkedSchema
