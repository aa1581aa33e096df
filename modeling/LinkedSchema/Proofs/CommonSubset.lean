import LinkedSchema.Draft7.Rule
import LinkedSchema.Proofs.CommonReferences
import LinkedSchema.Proofs.Meaning

/-!
# The common subset

Two validators read the same schemas: the structural walk and the draft-7 engine. A schema is
`Common` when all its nodes that count hold only keywords that both know, with values that the
language of schemas allows (`Allowed`), a reference standing alone. The nodes that count are those
`Used`: the root, and what references, alternatives, items and declared members lead to from a node
that is used. Numbers are `Exact` when binary64 holds them without rounding; the walk compares in
binary64 and the engine exactly.

An instance is `Ordinary` when its names are distinct, its numbers exact, and its texts and arrays
not longer than binary64 and a machine word can count, as is every length below `2⁵³`
(`countable_of_lt`).
-/

namespace LinkedSchema

open Draft7 (TypeName Placed)

variable {files : Texts} {s : Store} {schema : Document} {context : Context} {node v : Json}

/-! ## Numbers -/

/-- Binary64 holds a number without rounding. -/
def Number.Exact (n : Number) : Prop := n.toBinary64.units = n.units

instance (n : Number) : Decidable n.Exact := inferInstanceAs (Decidable (_ = _))

/-- All numbers in a value are exact. -/
def Json.Exact (v : Json) : Prop := ∀ n, v.Inside (.num n) → n.Exact

/-- What occurs in a value with exact numbers has exact numbers. -/
theorem Json.Exact.inside {w : Json} (h : v.Exact) (hw : v.Inside w) : w.Exact :=
  fun n hn => h n (hw.trans hn)

/-- A length that binary64 and a machine word hold. -/
structure Countable (n : Nat) : Prop where
  /-- Binary64 holds the length without rounding. -/
  exact : (Binary64.ofNat n).units = n * Binary64.one
  /-- The length is below the largest limit. -/
  small : n < Draft7.Rule.maxSize

/-- Multiples of the step to which a number is rounded stay as they are. -/
theorem roundUnits_of_dvd {num : Nat} (h : Nat.pow 2 (Binary64.excessBits num) ∣ num) :
    Binary64.roundUnits num 1 = num := by
  obtain ⟨q, hq⟩ := h
  have hpos : 0 < Nat.pow 2 (Binary64.excessBits num) := Nat.pow_pos (by decide)
  unfold Binary64.roundUnits
  rw [Nat.div_one]
  dsimp only
  rw [Nat.one_mul]
  generalize Nat.pow 2 (Binary64.excessBits num) = step at hq hpos ⊢
  -- The quotient is whole, so there is no half to round.
  have hdiv : num / step = q := by rw [hq, Nat.mul_div_cancel_left _ hpos]
  have hmod : num % step = 0 := by rw [hq, Nat.mul_mod_right]
  have hround : roundHalfEven num step = q := by
    unfold roundHalfEven
    dsimp only
    rw [hdiv, hmod, Nat.mul_zero, if_pos hpos]
  rw [hround, hq, Nat.mul_comm]

/-- A number has as many excess bits of its own as it has bits beyond 53. -/
theorem excessBits_le {n k b : Nat} (h : n < Nat.pow 2 (53 + k)) :
    Binary64.excessBits (n * Nat.pow 2 b) ≤ k + b := by
  have hlt : n * Nat.pow 2 b < Nat.pow 2 (53 + k + b) := by
    have hsplit : Nat.pow 2 (53 + k + b) = Nat.pow 2 (53 + k) * Nat.pow 2 b :=
      Nat.pow_add 2 (53 + k) b
    rw [hsplit]
    exact Nat.mul_lt_mul_of_pos_right h (Nat.pow_pos (by decide))
  unfold Binary64.excessBits
  by_cases hn : n * Nat.pow 2 b = 0
  · rw [hn, Nat.log2_zero]
    exact Nat.zero_le _
  · have hlog := (Nat.log2_lt hn).mpr hlt
    omega

/-- A number of 53 bits is not rounded. -/
theorem roundUnits_mul_pow {n : Nat} (h : n < Nat.pow 2 53) (b : Nat) :
    Binary64.roundUnits (n * Nat.pow 2 b) 1 = n * Nat.pow 2 b := by
  have hexcess : Binary64.excessBits (n * Nat.pow 2 b) ≤ 0 + b := excessBits_le h
  rw [Nat.zero_add] at hexcess
  exact roundUnits_of_dvd (Nat.dvd_trans (Nat.pow_dvd_pow 2 hexcess) (Nat.dvd_mul_left _ _))

/-- Lengths of 53 bits can be counted. -/
theorem countable_of_lt {n : Nat} (h : n < Nat.pow 2 53) : Countable n := by
  constructor
  · have hround : Binary64.roundUnits (n * Binary64.one) 1 = n * Binary64.one := by
      obtain ⟨b, hb⟩ : ∃ b, Binary64.one = Nat.pow 2 b := by
        unfold Binary64.one
        exact ⟨_, rfl⟩
      rw [hb]
      exact roundUnits_mul_pow h b
    have hneg : decide ((n : Int) < 0) = false := decide_eq_false (by omega)
    rw [Binary64.ofNat, Binary64.ofInt, hneg, Int.natAbs_natCast, hround]
    exact Int.natCast_mul _ _
  · exact Nat.lt_trans h (by decide)

/-- An instance whose names are distinct and whose numbers and lengths are exact. -/
structure Ordinary (v : Json) : Prop where
  /-- The names of members are distinct. -/
  distinct : v.Distinct
  /-- The numbers are exact. -/
  exact : v.Exact
  /-- The texts can be counted. -/
  texts : ∀ text, v.Inside (.str text) → Countable text.length
  /-- The arrays can be counted. -/
  arrays : ∀ items, v.Inside (.arr items) → Countable items.length

/-- What occurs in an ordinary instance is ordinary. -/
theorem Ordinary.inside {w : Json} (h : Ordinary v) (hw : v.Inside w) : Ordinary w where
  distinct := h.distinct.inside hw
  exact := h.exact.inside hw
  texts text ht := h.texts text (hw.trans ht)
  arrays items hi := h.arrays items (hw.trans hi)

/-! ## Schemas -/

/-- The value of a keyword is one that the language of schemas has for it, and the keyword is known
to both validators. -/
def Allowed (keyword : String) (x : Json) : Prop :=
  match keyword with
  | "$ref" => ∃ text, x = .str text ∧ CommonReference text
  | "anyOf" => ∃ alternatives, x = .arr alternatives ∧ alternatives ≠ []
  | "type" => (∃ t : TypeName, x = .str t.name) ∨
      ∃ ts : List TypeName, x = .arr (ts.map fun t => .str t.name)
  | "enum" => ∃ values, x = .arr values
  | "minLength" | "minItems" | "maxItems" =>
    ∃ n, x = .num n ∧ n.isIntegral = true ∧ 0 ≤ n.units
  | "minimum" | "maximum" => ∃ n, x = .num n
  | "items" | "properties" | "definitions" => ∃ members, x = .obj members
  | "required" => ∃ names : List String, x = .arr (names.map .str)
  | "additionalProperties" => ∃ b, x = .bool b
  | _ => False

/-- The keywords of the common subset that stand beside each other. -/
def siblingKeywords : List String :=
  ["anyOf", "type", "enum", "minLength", "minimum", "maximum", "minItems", "maxItems", "items",
    "required", "properties", "additionalProperties"]

/-- A keyword that is allowed is a reference, holds definitions, or is one of the others. -/
theorem Allowed.cases {keyword : String} {x : Json} (h : Allowed keyword x) :
    keyword = "$ref" ∨ keyword = "definitions" ∨ keyword ∈ siblingKeywords := by
  unfold Allowed at h
  split at h
  all_goals first
    | exact .inl rfl
    | exact .inr (.inl rfl)
    | exact .inr (.inr (by decide))
    | exact h.elim

/-- A node with allowed keywords only, with a reference alone or with none. -/
structure CommonNode (members : Members) : Prop where
  /-- The keywords are allowed. -/
  allowed : ∀ keyword w, (keyword, w) ∈ members → Allowed keyword w
  /-- A reference has no siblings. -/
  alone : ∀ w, members.lookup "$ref" = some w → ∀ p ∈ members, p.1 = "$ref"
  /-- The numbers are exact. -/
  exact : Json.Exact (.obj members)

/-- A node of a schema counts, in a context. -/
inductive Used (files : Texts) (s : Store) (schema : Document) : Context → Json → Prop
  /-- The root. -/
  | root : Used files s schema (.ofDocument schema) schema.root
  /-- What a reference leads to. -/
  | reference {context : Context} {members : Members} {reference : String} {target : Target}
    {node : Json} (h : Used files s schema context (.obj members))
    (hr : members.lookup "$ref" = some (.str reference))
    (leads : LeadsTo files s context reference target node) :
    Used files s schema target.context node
  /-- An alternative. -/
  | alternative {context : Context} {members : Members} {alternatives : List Json} {node : Json}
    (h : Used files s schema context (.obj members))
    (ha : members.lookup "anyOf" = some (.arr alternatives)) (mem : node ∈ alternatives) :
    Used files s schema context node
  /-- The schema of items. -/
  | items {context : Context} {members : Members} {node : Json}
    (h : Used files s schema context (.obj members)) (hi : members.lookup "items" = some node) :
    Used files s schema context node
  /-- The schema of a member. -/
  | property {context : Context} {members declared : Members} {name : String} {node : Json}
    (h : Used files s schema context (.obj members))
    (hd : members.lookup "properties" = some (.obj declared)) (mem : (name, node) ∈ declared) :
    Used files s schema context node

/-- A schema within the common subset, with the documents to which it refers. -/
structure Common (files : Texts) (s : Store) (schema : Document) : Prop where
  /-- The nodes that count are objects with allowed keywords. -/
  nodes : ∀ context node, Used files s schema context node →
    ∃ members, node = .obj members ∧ CommonNode members
  /-- No document gives itself a URI. -/
  noIds : Draft7.NoIds files s schema (Uri.fileUri schema.location.names)

/-- A schema is the document that the store or the files hold at its location. -/
structure Rooted (files : Texts) (s : Store) (schema : Document) : Prop where
  /-- The document at the location. -/
  held : documentAt files s schema.location none = .ok schema
  /-- The location is normal. -/
  normal : schema.location.Normal
  /-- The store is well formed. -/
  store : s.WellFormed

/-- Whatever counts is a place in a document that the store or the files hold. -/
theorem Used.placed (hs : Rooted files s schema) (h : Used files s schema context node) :
    Placed files s context ∧ context.root.root.Inside node := by
  induction h with
  | root => exact ⟨⟨Context.held_ofDocument hs.held, hs.normal⟩, .here⟩
  | reference _ _ leads ih =>
    refine ⟨⟨held_of_resolved ih.1.held leads.resolved, ?_⟩, leads.reaches.inside⟩
    obtain ⟨c, hbehind, -, rfl⟩ := resolveReference_eq_ok.mp leads.resolved
    exact hbehind.normal ih.1.held.directory ih.1.normal
  | alternative _ ha mem ih => exact ⟨ih.1, (ih.2.member (Json.mem_of_lookup ha)).item mem⟩
  | items _ hi ih => exact ⟨ih.1, ih.2.member (Json.mem_of_lookup hi)⟩
  | property _ hd mem ih => exact ⟨ih.1, (ih.2.member (Json.mem_of_lookup hd)).member mem⟩

end LinkedSchema
