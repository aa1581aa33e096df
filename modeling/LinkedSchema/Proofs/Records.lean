import LinkedSchema.Proofs.Values
import LinkedSchema.Yaml.Fields
import Mathlib.Data.List.Forall2

/-!
# Records written in YAML

A record is a mapping from names to values. `Yaml.Node.IsRecord` says which nodes are records with
fields of given names, without reading them: every key is a text and one of the names, and no name
comes twice. The reader goes from entry to entry and keeps the fields that it has read, whose names
are always distinct. From there on it succeeds just when the entries that are left are fields and
all names stay distinct (`go_eq_some_iff`), so it accepts just the records (`fields?_eq_some_iff`).
-/

namespace LinkedSchema.Yaml.Node

/-- An entry of a mapping is a field: its key is the name, as a text, and its value that of the
field. -/
def IsField (entry : Node × Node) (field : String × Node) : Prop :=
  entry.1.text? = some field.1 ∧ entry.2 = field.2

/-- A node is a record with some fields, in order, whose names are among the given ones. -/
inductive IsRecord (names : List String) : Node → List (String × Node) → Prop
  /-- Nothing is written, and so no field. -/
  | blank {node : Node} (h : node.isBlank = true) : IsRecord names node []
  /-- A mapping whose entries are the fields. -/
  | map {tag : Option String} {entries : List (Node × Node)} {fields : List (String × Node)}
    (h : List.Forall₂ IsField entries fields) (known : ∀ field ∈ fields, field.1 ∈ names)
    (distinct : (fields.map Prod.fst).Nodup) : IsRecord names (.map tag entries) fields

variable {names : List String} {before fields : List (String × Node)} {node : Node}

/-- The names of the fields of a record are distinct. -/
theorem IsRecord.distinct (h : IsRecord names node fields) : (fields.map Prod.fst).Nodup := by
  cases h with
  | blank => exact List.nodup_nil
  | map _ _ distinct => exact distinct

/-- A name is refused unless it is one of the given names and has not come before. -/
theorem refused_eq_false_iff {name : String} :
    (!names.contains name || (before.lookup name).isSome) = false ↔
      name ∈ names ∧ name ∉ before.map Prod.fst := by
  have hnew : (before.lookup name).isSome = true ↔ name ∈ before.map Prod.fst := by
    rw [List.lookup_isSome_iff, List.mem_map]
    exact exists_congr fun _ => and_congr_right fun _ => beq_iff_eq.trans eq_comm
  rw [Bool.or_eq_false_iff, Bool.not_eq_false', List.contains_iff_mem, ← hnew, Bool.not_eq_true]

/-- Behind fields with distinct names, entries are read as fields exactly when they are fields with
given names and all names stay distinct. -/
theorem go_eq_some_iff {entries : List (Node × Node)} (hbefore : (before.map Prod.fst).Nodup) :
    fields?.go names entries before = some fields ↔
      ∃ added, fields = before ++ added ∧ List.Forall₂ IsField entries added ∧
        (∀ field ∈ added, field.1 ∈ names) ∧ (fields.map Prod.fst).Nodup := by
  induction entries generalizing before with
  | nil =>
    simp only [fields?.go, Option.some.injEq, List.forall₂_nil_left_iff]
    constructor
    · rintro rfl
      exact ⟨[], (List.append_nil _).symm, rfl, by simp, hbefore⟩
    · rintro ⟨_, rfl, rfl, -, -⟩
      exact (List.append_nil _).symm
  | cons entry rest ih =>
    obtain ⟨key, value⟩ := entry
    have hsplit (name : String) (added : List (String × Node)) :
        before ++ (name, value) :: added = before ++ [(name, value)] ++ added :=
      List.append_cons ..
    rw [fields?.go, Option.bind_eq_bind, Option.bind_eq_some_iff]
    constructor
    · rintro ⟨name, hname, h⟩
      split at h
      · cases h
      · next haccepted =>
        obtain ⟨hknown, hnew⟩ := refused_eq_false_iff.mp (Bool.not_eq_true _ ▸ haccepted)
        -- The entry is accepted, so with its name those read so far stay distinct.
        have hgrown : ((before ++ [(name, value)]).map Prod.fst).Nodup := by
          rw [List.map_append, List.map_singleton, ← List.concat_eq_append]
          exact hbefore.concat hnew
        obtain ⟨added, rfl, hentries, hadded, hdistinct⟩ := (ih hgrown).mp h
        exact ⟨(name, value) :: added, (hsplit name added).symm, .cons ⟨hname, rfl⟩ hentries,
          List.forall_mem_cons.mpr ⟨hknown, hadded⟩, hdistinct⟩
    · rintro ⟨_, rfl, hentries, hadded, hdistinct⟩
      obtain _ | @⟨_, ⟨name, w⟩, _, added, ⟨hname, hvalue⟩, hentries⟩ := hentries
      cases hvalue
      obtain ⟨hknown, hadded⟩ := List.forall_mem_cons.mp hadded
      -- All names together are distinct, so this one has not come before and is accepted.
      have hgrown : ((before ++ [(name, value)]).map Prod.fst).Nodup := by
        rw [hsplit name added, List.map_append] at hdistinct
        exact hdistinct.of_append_left
      have hnew : name ∉ before.map Prod.fst := by
        rw [List.map_append] at hgrown
        exact fun hmem => List.disjoint_of_nodup_append hgrown hmem (List.mem_singleton_self name)
      refine ⟨name, hname, ?_⟩
      rw [if_neg (Bool.not_eq_true _ ▸ refused_eq_false_iff.mpr ⟨hknown, hnew⟩)]
      exact (ih hgrown).mpr ⟨added, hsplit name added, hentries, hadded, hdistinct⟩

/-- The fields that are read are those of a record. -/
theorem fields?_eq_some_iff : node.fields? names = some fields ↔ IsRecord names node fields := by
  cases node with
  | map tag entries =>
    rw [fields?, go_eq_some_iff (by exact List.nodup_nil)]
    constructor
    · rintro ⟨_, rfl, hentries, hknown, hdistinct⟩
      exact .map hentries hknown hdistinct
    · rintro (⟨h⟩ | ⟨hentries, hknown, hdistinct⟩)
      · cases h
      · exact ⟨fields, rfl, hentries, hknown, hdistinct⟩
  | _ =>
    rw [fields?]
    · split
      · next hblank =>
        rw [Option.some.injEq]
        constructor
        · rintro rfl
          exact .blank hblank
        · rintro ⟨-⟩
          rfl
      · next hblank =>
        constructor
        · intro h
          cases h
        · rintro ⟨h⟩
          exact absurd h hblank
    · exact fun _ _ h => by cases h

/-- A choice is made by a name, whatever the names stand for. -/
theorem choice?_eq_bind {α : Type} (ofName? : String → Option α) (node : Node) :
    node.choice? ofName? = (node.choice? some).bind ofName? := by
  cases node with
  | scalar tag style text =>
    unfold choice?
    dsimp only
    split
    · split <;> rfl
    · rfl
  | _ => rfl

end LinkedSchema.Yaml.Node
