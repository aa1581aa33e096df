import LinkedSchema.Json.Pointer
import LinkedSchema.Proofs.Splitting

/-!
# Pointers built step by step

`Pointer.child` appends one escaped name to a pointer. Here is what such a pointer names: reading it
gives the names of the parent and the new one (`names_child`), so it leads where the parent leads
and then one step down.

`Reaches root pointer v` is this meaning as a relation. A pointer reaches at most one value, what
`Pointer.find` finds is reached, and a step into a member or an item extends a pointer that reaches
an object or an array. Unlike `Pointer.find` it does not bound the index of an item, so that every
item of every array is reached.

A pointer is `Plain` when normalizing it changes nothing, which stays so when names are appended.
-/

namespace LinkedSchema

namespace Pointer

/-! ## Escaping -/

/-- Only a tilde is replaced. -/
theorem replaceTilde_cons_of_ne {c mark replacement : Char} (h : c ≠ '~') (rest : List Char) :
    replaceTilde mark replacement (c :: rest) = c :: replaceTilde mark replacement rest := by
  rw [replaceTilde.eq_def]
  split
  · next heq =>
    cases heq
    exact absurd rfl h
  · next heq =>
    cases heq
    rfl
  · next heq => cases heq

/-- A tilde before the mark is replaced together with it. -/
theorem replaceTilde_mark (mark replacement : Char) (rest : List Char) :
    replaceTilde mark replacement ('~' :: mark :: rest) =
      replacement :: replaceTilde mark replacement rest := by
  simp [replaceTilde]

/-- A tilde before another character stays. -/
theorem replaceTilde_other {c mark : Char} (replacement : Char) (h : c ≠ mark) (rest : List Char) :
    replaceTilde mark replacement ('~' :: c :: rest) =
      '~' :: replaceTilde mark replacement (c :: rest) := by
  simp [replaceTilde, h]

/-- Reading an escaped name gives the name. -/
theorem unescape_escape (name : String) : unescape (escape name) = name := by
  have hslash : ∀ cs : List Char, replaceTilde '1' '/' (cs.flatMap fun c =>
      if c = '~' then ['~', '0'] else if c = '/' then ['~', '1'] else [c]) =
      cs.flatMap fun c => if c = '~' then ['~', '0'] else [c] := by
    intro cs
    induction cs with
    | nil => rfl
    | cons c rest ih =>
      rw [List.flatMap_cons, List.flatMap_cons]
      by_cases ht : c = '~'
      · simp only [if_pos ht, List.cons_append, List.nil_append]
        rw [replaceTilde_other _ (by decide), replaceTilde_cons_of_ne (by decide), ih]
      · by_cases hs : c = '/'
        · subst hs
          simp only [if_neg ht, ↓reduceIte, List.cons_append, List.nil_append]
          rw [replaceTilde_mark, ih]
        · simp only [if_neg ht, if_neg hs, List.cons_append, List.nil_append]
          rw [replaceTilde_cons_of_ne ht, ih]
  have htilde : ∀ cs : List Char, replaceTilde '0' '~' (cs.flatMap fun c =>
      if c = '~' then ['~', '0'] else [c]) = cs := by
    intro cs
    induction cs with
    | nil => rfl
    | cons c rest ih =>
      rw [List.flatMap_cons]
      by_cases ht : c = '~'
      · subst ht
        simp only [↓reduceIte, List.cons_append, List.nil_append]
        rw [replaceTilde_mark, ih]
      · simp only [if_neg ht, List.cons_append, List.nil_append]
        rw [replaceTilde_cons_of_ne ht, ih]
  unfold unescape escape
  rw [String.toList_ofList, hslash, htilde, String.ofList_toList]

/-- An escaped name has no slash. -/
theorem slash_notMem_escape (name : String) : '/' ∉ (escape name).toList := by
  unfold escape
  rw [String.toList_ofList, List.mem_flatMap]
  rintro ⟨c, -, hc⟩
  split at hc
  · simp at hc
  · split at hc
    · simp at hc
    · next hs => exact hs (List.mem_singleton.mp hc).symm

/-- Only the empty name is escaped to the empty text. -/
theorem escape_eq_empty {name : String} : escape name = "" ↔ name = "" := by
  constructor
  · intro h
    have hn := unescape_escape name
    rw [h] at hn
    exact hn.symm
  · rintro rfl
    rfl

/-- A pointer with one more name is empty only if it had none and the name is empty. -/
theorem child_ne_empty {pointer name : String} (h : pointer ≠ "" ∨ name ≠ "") :
    child pointer name ≠ "" := by
  unfold child
  split
  · next hp =>
    have hp : pointer = "" := by simpa using hp
    rw [ne_eq, escape_eq_empty]
    exact h.resolve_left fun hne => hne hp
  · intro hc
    have := congrArg String.toList hc
    simp [String.toList_append] at this

/-- The names of a pointer with one more name. -/
theorem names_child {pointer : String} (name : String) (h : pointer ≠ "") :
    names (child pointer name) = names pointer ++ [name] := by
  have hp : pointer.isEmpty = false := by simpa using h
  unfold child names
  rw [hp, if_neg Bool.false_ne_true, Text.split_append,
    Text.split_of_notMem (slash_notMem_escape name), List.map_append, List.map_singleton,
    unescape_escape]

/-- The names of the pointer of one name. -/
theorem names_child_empty (name : String) : names (child "" name) = [name] := by
  have hc : child "" name = escape name := rfl
  rw [hc, names, Text.split_of_notMem (slash_notMem_escape name), List.map_singleton,
    unescape_escape]

/-! ## Plain pointers -/

/-- Normalizing changes nothing. -/
structure Plain (pointer : String) : Prop where
  /-- The pointer does not start with a hash. -/
  hash : pointer.toList.head? ≠ some '#'
  /-- The pointer does not start with a slash. -/
  slash : pointer.toList.head? ≠ some '/'

/-- A leading character that is not there is not dropped. -/
theorem dropLead_of_head?_ne {lead : Char} {text : List Char} (h : text.head? ≠ some lead) :
    dropLead lead text = text := by
  cases text with
  | nil => rfl
  | cons c rest =>
    have hc : c ≠ lead := by simpa using h
    rw [dropLead, if_neg hc]

/-- A plain pointer is normalized. -/
theorem Plain.normalize_eq {pointer : String} (h : Plain pointer) :
    normalize pointer = pointer := by
  unfold normalize
  rw [dropLead_of_head?_ne h.hash, dropLead_of_head?_ne h.slash, String.ofList_toList]

/-- The pointer to the root is plain. -/
theorem Plain.empty : Plain "" := ⟨by simp, by simp⟩

/-- A plain pointer stays plain when a name is appended; a first name must not start with a
hash. -/
theorem Plain.child {pointer name : String} (h : Plain pointer)
    (hn : pointer = "" → name.toList.head? ≠ some '#') : Plain (child pointer name) := by
  unfold Pointer.child
  split
  · next hp =>
    have hp : pointer = "" := by simpa using hp
    have hslash := slash_notMem_escape name
    constructor
    · have hhash := hn hp
      unfold escape
      rw [String.toList_ofList]
      cases hl : name.toList with
      | nil => simp
      | cons c rest =>
        rw [hl] at hhash
        have hc : c ≠ '#' := by simpa using hhash
        rw [List.flatMap_cons]
        split
        · simp
        · split <;> simp [hc]
    · intro hhead
      exact hslash (List.mem_of_mem_head? hhead)
  · next hp =>
    have hp : pointer.toList ≠ [] := by simpa using hp
    obtain ⟨c, rest, hc⟩ := List.exists_cons_of_ne_nil hp
    obtain ⟨hhash, hslash⟩ := h
    rw [hc] at hhash hslash
    constructor
    · simpa [String.toList_append, hc] using hhash
    · simpa [String.toList_append, hc] using hslash

/-! ## What a pointer reaches -/

/-- What follows a plus sign, if there is one in front. -/
def unsigned (text : List Char) : List Char :=
  match text with
  | '+' :: rest => rest
  | all => all

/-- Digits have no sign in front. -/
theorem unsigned_of_digits {digits : List Char} (h : ∀ c ∈ digits, c.isDigit = true) :
    unsigned digits = digits := by
  unfold unsigned
  split
  · next rest =>
    have hplus := h '+' (List.mem_cons_self ..)
    cases hplus
  · rfl

/-- The index that a name stands for, however large. -/
def index? (name : String) : Option Nat :=
  let digits := unsigned name.toList
  if digits.isEmpty || !digits.all Char.isDigit then none else some (ofDigits digits)

/-- A natural number of 64 bits is an index that a machine word holds. -/
theorem natural?_eq_some_iff {name : String} {n : Nat} :
    natural? name = some n ↔ index? name = some n ∧ n < wordLimit := by
  have hn : natural? name =
      if (unsigned name.toList).isEmpty || !(unsigned name.toList).all Char.isDigit then none
      else if ofDigits (unsigned name.toList) < wordLimit then some (ofDigits (unsigned name.toList))
      else none := rfl
  rw [hn]
  unfold index?
  dsimp only
  split
  · simp
  · rw [Option.ite_none_right_eq_some, Option.some.injEq]
    constructor
    · rintro ⟨hlt, rfl⟩
      exact ⟨rfl, hlt⟩
    · rintro ⟨rfl, hlt⟩
      exact ⟨hlt, rfl⟩

/-- A natural number of 64 bits is an index. -/
theorem index?_of_natural? {name : String} {n : Nat} (h : natural? name = some n) :
    index? name = some n :=
  (natural?_eq_some_iff.mp h).1

/-- The digits of a number are read as the number. -/
theorem index?_toString (i : Nat) : index? (toString i) = some i := by
  have hlist : (toString i).toList = Nat.toDigits 10 i := Nat.toList_repr
  have hdigit : ∀ c ∈ Nat.toDigits 10 i, c.isDigit = true := fun c hc =>
    Nat.isDigit_of_mem_toDigits (by decide) (by decide) hc
  have hvalue : ofDigits (Nat.toDigits 10 i) = i := by
    have h := Nat.ofDigitChars_ten_toDigits (n := i)
    rwa [Nat.ofDigitChars_eq_foldl] at h
  unfold index?
  rw [hlist]
  dsimp only
  rw [unsigned_of_digits hdigit, if_neg, hvalue]
  simp only [Bool.or_eq_true, List.isEmpty_iff, Bool.not_eq_true', List.all_eq_false, not_or,
    not_exists, not_and]
  exact ⟨Nat.toDigits_ne_nil, fun c hc hno => hno (hdigit c hc)⟩

/-- One step down by a name. -/
def down? (v : Json) (name : String) : Option Json :=
  match v with
  | .obj members => members.lookup name
  | .arr items => (index? name).bind (items[·]?)
  | _ => none

/-- The way down by one name after the other. -/
def downAlong? (v : Json) : List String → Option Json
  | [] => some v
  | name :: rest => (down? v name).bind (downAlong? · rest)

/-- The way down by two lists of names. -/
theorem downAlong?_append (v : Json) (first second : List String) :
    downAlong? v (first ++ second) = (downAlong? v first).bind (downAlong? · second) := by
  induction first generalizing v with
  | nil => rfl
  | cons name rest ih =>
    rw [List.cons_append, downAlong?, downAlong?]
    cases down? v name with
    | none => rfl
    | some w => exact ih w

/-- A step of a lookup is a step down. -/
theorem down?_of_step? {v w : Json} {name : String} (h : step? v name = some w) :
    down? v name = some w := by
  cases v with
  | obj members => exact h
  | arr items =>
    obtain ⟨i, hi, hw⟩ := Option.bind_eq_some_iff.mp h
    simp only [down?, index?_of_natural? hi]
    exact hw
  | _ => cases h

/-- What is looked up along names lies on the way down. -/
theorem downAlong?_of_descend {names : List String} {v w : Json} (h : descend v names = .ok w) :
    downAlong? v names = some w := by
  induction names generalizing v with
  | nil =>
    cases h
    rfl
  | cons name rest ih =>
    rw [descend] at h
    split at h
    · cases h
    · next next hs =>
      rw [downAlong?, down?_of_step? hs]
      exact ih h

/-- A normalized pointer reaches a value from the root of a document. -/
def Reaches (root : Json) (pointer : String) (v : Json) : Prop :=
  downAlong? root (if pointer = "" then [] else names pointer) = some v

/-- A pointer reaches one value. -/
theorem Reaches.unique {root v w : Json} {pointer : String} (h : Reaches root pointer v)
    (h' : Reaches root pointer w) : v = w :=
  Option.some.inj (h.symm.trans h')

/-- The empty pointer reaches the root. -/
theorem Reaches.root (root : Json) : Reaches root "" root := rfl

/-- A value that is found is reached by the normalized pointer. -/
theorem Reaches.of_find {root v : Json} {pointer : String} (h : find root pointer = .ok v) :
    Reaches root (normalize pointer) v := by
  unfold find at h
  unfold Reaches
  by_cases hp : normalize pointer = ""
  · simp only [hp] at h ⊢
    cases h
    rfl
  · have he : (normalize pointer).isEmpty = false := by simpa using hp
    simp only [he, Bool.false_eq_true, if_false] at h
    rw [if_neg hp]
    exact downAlong?_of_descend h

/-- One step down extends the pointer. -/
theorem Reaches.down {root v w : Json} {pointer name : String} (h : Reaches root pointer v)
    (hd : down? v name = some w) (hn : pointer ≠ "" ∨ name ≠ "") :
    Reaches root (Pointer.child pointer name) w := by
  have hlast : downAlong? v [name] = some w := by
    rw [downAlong?, hd]
    rfl
  unfold Reaches at h ⊢
  rw [if_neg (child_ne_empty hn)]
  by_cases hp : pointer = ""
  · rw [if_pos hp] at h
    cases h
    rw [hp, names_child_empty]
    exact hlast
  · rw [if_neg hp] at h
    rw [names_child name hp, downAlong?_append, h]
    exact hlast

end Pointer

end LinkedSchema
