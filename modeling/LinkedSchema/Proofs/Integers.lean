import LinkedSchema.Proofs.CommonSubset
import LinkedSchema.Proofs.Verdict

/-!
# Integers under the numeric keywords

The structural walk compares integers as binary64 numbers, which hold 53 bits. So two integers may
be `Merged`: rounded to the same number. Rounding keeps the order of integers, so `minimum` and
`maximum` never find a violation that the integers do not show, and they miss one, as `enum` does,
only between merged integers. Those are equal, or both at least `2⁵³` in magnitude, on the same side
of zero, and at most `2¹¹` apart.
-/

namespace LinkedSchema

/-! ## Rounding a quotient -/

section Quotient

variable {num num' den k : Nat}

/-- Whole quotients are not rounded. -/
theorem roundHalfEven_mul (h : 0 < den) : roundHalfEven (k * den) den = k := by
  simp [roundHalfEven, Nat.mul_div_cancel k h, h]

/-- A quotient is rounded to its integer part or to the integer above. -/
theorem div_le_roundHalfEven : num / den ≤ roundHalfEven num den := by
  unfold roundHalfEven
  dsimp only
  split_ifs <;> omega

/-- A quotient is rounded to no more than the integer above its integer part. -/
theorem roundHalfEven_le_succ : roundHalfEven num den ≤ num / den + 1 := by
  unfold roundHalfEven
  dsimp only
  split_ifs <;> omega

/-- Rounding keeps the order of quotients. -/
theorem roundHalfEven_mono (h : num ≤ num') :
    roundHalfEven num den ≤ roundHalfEven num' den := by
  rcases (Nat.div_le_div_right h : num / den ≤ num' / den).eq_or_lt with heq | hlt
  · -- With the same integer part, the remainders are in order.
    have hmod : num % den ≤ num' % den := by
      have hnum := Nat.div_add_mod num den
      have hnum' := Nat.div_add_mod num' den
      rw [heq] at hnum
      omega
    unfold roundHalfEven
    dsimp only
    rw [heq]
    split_ifs <;> omega
  · calc roundHalfEven num den ≤ num / den + 1 := roundHalfEven_le_succ
      _ ≤ num' / den := hlt
      _ ≤ roundHalfEven num' den := div_le_roundHalfEven

/-- A quotient is rounded by at most a half. -/
theorem roundHalfEven_near (h : 0 < den) :
    2 * (roundHalfEven num den * den) ≤ 2 * num + den ∧
      2 * num ≤ 2 * (roundHalfEven num den * den) + den := by
  have hnum : num / den * den + num % den = num := Nat.div_add_mod' num den
  have hmod := Nat.mod_lt num h
  have hsucc : (num / den + 1) * den = num / den * den + den := Nat.succ_mul _ _
  unfold roundHalfEven
  dsimp only
  split_ifs with hlow hhigh
  · omega
  · omega
  · rcases Nat.mod_two_eq_zero_or_one (num / den) with heven | hodd
    · rw [heven, Nat.add_zero]
      omega
    · rw [hodd]
      omega

end Quotient

namespace Binary64

/-! ## Rounding units -/

/-- The distance between the representable numbers of units around a given one. -/
def spacing (units : Nat) : Nat := Nat.pow 2 (excessBits units)

/-- Representable numbers are at a distance from each other. -/
theorem spacing_pos (a : Nat) : 0 < spacing a := Nat.pow_pos (by decide)

variable {a b c : Nat}

/-- Units are rounded to a multiple of the distance between the representable numbers. -/
theorem roundUnits_eq (a : Nat) :
    roundUnits a 1 = roundHalfEven a (spacing a) * spacing a := by
  unfold roundUnits spacing
  rw [Nat.div_one]
  dsimp only
  rw [Nat.one_mul]

/-- Units are not rounded past a representable number above them. -/
theorem roundUnits_le (h : a ≤ c) (hc : spacing a ∣ c) : roundUnits a 1 ≤ c := by
  obtain ⟨q, rfl⟩ := hc
  have hround : roundHalfEven a (spacing a) ≤ q := by
    rw [← roundHalfEven_mul (k := q) (spacing_pos a), Nat.mul_comm q]
    exact roundHalfEven_mono h
  rw [roundUnits_eq, Nat.mul_comm]
  exact Nat.mul_le_mul_left _ hround

/-- Units are not rounded past a representable number below them. -/
theorem le_roundUnits (h : c ≤ a) (hc : spacing a ∣ c) : c ≤ roundUnits a 1 := by
  obtain ⟨q, rfl⟩ := hc
  have hround : q ≤ roundHalfEven a (spacing a) := by
    rw [← roundHalfEven_mul (k := q) (spacing_pos a), Nat.mul_comm q]
    exact roundHalfEven_mono h
  rw [roundUnits_eq, Nat.mul_comm _ (spacing a)]
  exact Nat.mul_le_mul_left _ hround

/-- Units are rounded by at most half the spacing. -/
theorem roundUnits_near (a : Nat) :
    2 * roundUnits a 1 ≤ 2 * a + spacing a ∧ 2 * a ≤ 2 * roundUnits a 1 + spacing a := by
  rw [roundUnits_eq]
  exact roundHalfEven_near (spacing_pos a)

/-- Rounding keeps the order of units: where the spacing changes, a power of two stands between
them. -/
theorem roundUnits_mono (h : a ≤ b) : roundUnits a 1 ≤ roundUnits b 1 := by
  by_cases hspacing : excessBits a = excessBits b
  · have heq : spacing a = spacing b := congrArg (Nat.pow 2) hspacing
    rw [roundUnits_eq, roundUnits_eq, heq]
    exact Nat.mul_le_mul_right _ (roundHalfEven_mono h)
  · unfold excessBits at hspacing
    have hb : b ≠ 0 := by
      rintro rfl
      exact hspacing (by rw [Nat.le_zero.mp h])
    have hlog : a.log2 ≤ b.log2 := by
      by_cases ha : a = 0
      · rw [ha, Nat.log2_zero]
        exact Nat.zero_le _
      · exact (Nat.le_log2 hb).mpr ((Nat.log2_self_le ha).trans h)
    have hdvd (n : Nat) (hn : excessBits n ≤ b.log2) : spacing n ∣ Nat.pow 2 b.log2 :=
      Nat.pow_dvd_pow 2 hn
    have ha : a < Nat.pow 2 b.log2 :=
      Nat.lt_log2_self.trans_le (Nat.pow_le_pow_right (by decide) (by omega))
    calc roundUnits a 1 ≤ Nat.pow 2 b.log2 :=
          roundUnits_le ha.le (hdvd a (by unfold excessBits; omega))
      _ ≤ roundUnits b 1 :=
          le_roundUnits (Nat.log2_self_le hb) (hdvd b (Nat.sub_le _ _))

end Binary64

/-! ## Rounding integers -/

/-- Binary64 rounds two integers to the same number. -/
def Merged (i m : Int) : Prop := (Binary64.ofInt i).units = (Binary64.ofInt m).units

instance (i m : Int) : Decidable (Merged i m) := inferInstanceAs (Decidable (_ = _))

/-- An integer of a document: one of 64 bits, signed or unsigned. -/
structure Word (n : Int) : Prop where
  /-- A signed word is at least this. -/
  low : -Nat.pow 2 63 ≤ n
  /-- An unsigned word is below this. -/
  high : n < wordLimit

namespace Binary64

variable {i m : Int}

/-- From zero on, an integer is rounded as its absolute value. -/
theorem units_ofInt_of_nonneg (h : 0 ≤ i) :
    (ofInt i).units = roundUnits (i.natAbs * one) 1 := by
  rw [ofInt, decide_eq_false (by omega)]
  rfl

/-- Up to zero, an integer is rounded as its absolute value, on the other side of zero. -/
theorem units_ofInt_of_nonpos (h : i ≤ 0) :
    (ofInt i).units = -(roundUnits (i.natAbs * one) 1 : Nat) := by
  rcases Int.le_iff_eq_or_lt.mp h with rfl | hlt
  · rw [units_ofInt_of_nonneg (Int.le_refl 0), Int.natAbs_zero, Nat.zero_mul]
    rfl
  · rw [ofInt, decide_eq_true hlt]
    rfl

/-- The opposite integer is rounded to the opposite number. -/
theorem units_ofInt_neg (i : Int) : (ofInt (-i)).units = -(ofInt i).units := by
  rcases Int.le_total 0 i with h | h
  · rw [units_ofInt_of_nonpos (by omega), units_ofInt_of_nonneg h, Int.natAbs_neg]
  · rw [units_ofInt_of_nonneg (by omega), units_ofInt_of_nonpos h, Int.natAbs_neg, Int.neg_neg]

/-- Rounding keeps the order of integers. -/
theorem units_ofInt_mono (h : i ≤ m) : (ofInt i).units ≤ (ofInt m).units := by
  rcases Int.le_total 0 i with hi | hi
  · rw [units_ofInt_of_nonneg hi, units_ofInt_of_nonneg (Int.le_trans hi h)]
    exact_mod_cast roundUnits_mono (Nat.mul_le_mul_right _ (by omega))
  · rcases Int.le_total 0 m with hm | hm
    · rw [units_ofInt_of_nonpos hi, units_ofInt_of_nonneg hm]
      omega
    · rw [units_ofInt_of_nonpos hi, units_ofInt_of_nonpos hm, Int.neg_le_neg_iff]
      exact_mod_cast roundUnits_mono (Nat.mul_le_mul_right _ (by omega))

/-- The number of units in one is a power of two. -/
theorem exists_one_eq_pow : ∃ b, one = Nat.pow 2 b := by
  unfold one
  exact ⟨_, rfl⟩

/-- The number one is a positive number of units. -/
theorem one_pos : 0 < one := by
  obtain ⟨b, hb⟩ := exists_one_eq_pow
  rw [hb]
  exact Nat.pow_pos (by decide)

/-- Integers of 53 bits are not rounded. -/
theorem units_ofInt (h : i.natAbs < Nat.pow 2 53) : (ofInt i).units = i * one := by
  have hround : roundUnits (i.natAbs * one) 1 = i.natAbs * one := by
    obtain ⟨b, hb⟩ := exists_one_eq_pow
    rw [hb]
    exact roundUnits_mul_pow h b
  rcases Int.le_total 0 i with hi | hi
  · rw [units_ofInt_of_nonneg hi, hround, Int.natCast_mul, Int.natAbs_of_nonneg hi]
  · rw [units_ofInt_of_nonpos hi, hround, Int.natCast_mul, Int.ofNat_natAbs_of_nonpos hi,
      ← Int.neg_mul, Int.neg_neg]

/-- Integers of more bits are not rounded below `2⁵³`. -/
theorem le_units_ofInt (h : Nat.pow 2 53 ≤ i) : (Nat.pow 2 53 * one : Nat) ≤ (ofInt i).units := by
  have hround : roundUnits (Nat.pow 2 53 * one) 1 = Nat.pow 2 53 * one := by
    obtain ⟨b, hb⟩ := exists_one_eq_pow
    have hsplit : Nat.pow 2 53 * Nat.pow 2 b = Nat.pow 2 52 * Nat.pow 2 (1 + b) := by
      have hadd : Nat.pow 2 (1 + b) = Nat.pow 2 1 * Nat.pow 2 b := Nat.pow_add 2 1 b
      rw [hadd, ← Nat.mul_assoc]
    rw [hb, hsplit]
    exact roundUnits_mul_pow (by decide) (1 + b)
  have hi : (0 : Int) ≤ i := Int.le_trans (Int.natCast_nonneg _) h
  rw [units_ofInt_of_nonneg hi, ← hround]
  exact_mod_cast roundUnits_mono (Nat.mul_le_mul_right _ (by omega))

/-- Integers of 64 bits are rounded by at most `2¹⁰`. -/
theorem units_ofInt_near (h : i.natAbs < wordLimit) :
    ((ofInt i).units - i * one).natAbs ≤ Nat.pow 2 10 * one := by
  have hspacing : spacing (i.natAbs * one) ≤ 2 * (Nat.pow 2 10 * one) := by
    obtain ⟨b, hb⟩ := exists_one_eq_pow
    have hsplit : Nat.pow 2 (11 + b) = 2 * (Nat.pow 2 10 * Nat.pow 2 b) := by
      have hadd : Nat.pow 2 (11 + b) = Nat.pow 2 11 * Nat.pow 2 b := Nat.pow_add 2 11 b
      rw [hadd, ← Nat.mul_assoc]
    rw [hb, ← hsplit]
    exact Nat.pow_le_pow_right (by decide) (excessBits_le (k := 11) h)
  have hnear := roundUnits_near (i.natAbs * one)
  rcases Int.le_total 0 i with hi | hi
  · have hexact : i * one = (i.natAbs * one : Nat) := by
      rw [Int.natCast_mul, Int.natAbs_of_nonneg hi]
    rw [units_ofInt_of_nonneg hi, hexact]
    omega
  · have hexact : i * one = -(i.natAbs * one : Nat) := by
      rw [Int.natCast_mul, Int.ofNat_natAbs_of_nonpos hi, ← Int.neg_mul, Int.neg_neg]
    rw [units_ofInt_of_nonpos hi, hexact]
    omega

/-- Where an integer is rounded to: it stays as it is, or stays at or beyond `2⁵³` on its side of
zero. -/
theorem ofInt_cases (i : Int) :
    ((ofInt i).units = i * one ∧
        -(Nat.pow 2 53 * one : Nat) < (ofInt i).units ∧
        (ofInt i).units < (Nat.pow 2 53 * one : Nat)) ∨
      (Nat.pow 2 53 ≤ i ∧ (Nat.pow 2 53 * one : Nat) ≤ (ofInt i).units) ∨
      (i ≤ -Nat.pow 2 53 ∧ (ofInt i).units ≤ -(Nat.pow 2 53 * one : Nat)) := by
  have hone : (0 : Int) < one := Int.natCast_pos.mpr one_pos
  by_cases hsmall : i.natAbs < Nat.pow 2 53
  · refine .inl ⟨units_ofInt hsmall, ?_, ?_⟩ <;> rw [units_ofInt hsmall, Int.natCast_mul]
    · rw [← Int.neg_mul]
      exact Int.mul_lt_mul_of_pos_right (by omega) hone
    · exact Int.mul_lt_mul_of_pos_right (by omega) hone
  · rcases Int.le_total 0 i with hi | hi
    · have hlarge : Nat.pow 2 53 ≤ i := by omega
      exact .inr (.inl ⟨hlarge, le_units_ofInt hlarge⟩)
    · have hlarge : Nat.pow 2 53 ≤ -i := by omega
      have hunits := le_units_ofInt hlarge
      rw [units_ofInt_neg] at hunits
      exact .inr (.inr ⟨by omega, by omega⟩)

end Binary64

namespace Merged

variable {i m : Int}

/-- Of two integers that are not merged, the rounded ones are in the order of the integers. -/
theorem lt_iff : (Binary64.ofInt i).lt (.ofInt m) = true ↔ i < m ∧ ¬Merged i m := by
  unfold Merged
  rw [Binary64.lt, decide_eq_true_iff]
  constructor
  · intro h
    refine ⟨Int.not_le.mp fun hle => ?_, Int.ne_of_lt h⟩
    exact Int.not_le.mpr h (Binary64.units_ofInt_mono hle)
  · rintro ⟨hlt, hne⟩
    exact Int.lt_iff_le_and_ne.mpr ⟨Binary64.units_ofInt_mono (Int.le_of_lt hlt), hne⟩

/-- Two integers are merged whichever is named first. -/
theorem comm : Merged i m ↔ Merged m i := eq_comm

/-- Different integers that are merged are both at or beyond `2⁵³`, on the same side of zero. -/
theorem large (h : Merged i m) (hne : i ≠ m) :
    Nat.pow 2 53 ≤ i ∧ Nat.pow 2 53 ≤ m ∨ i ≤ -Nat.pow 2 53 ∧ m ≤ -Nat.pow 2 53 := by
  have hone : 0 < Nat.pow 2 53 * Binary64.one := Nat.mul_pos (by decide) Binary64.one_pos
  unfold Merged at h
  rcases Binary64.ofInt_cases i with ⟨hi, hlow, hhigh⟩ | ⟨hi, hunits⟩ | ⟨hi, hunits⟩ <;>
    rcases Binary64.ofInt_cases m with ⟨hm, hlow', hhigh'⟩ | ⟨hm, hunits'⟩ | ⟨hm, hunits'⟩
  · rw [hi, hm] at h
    exact absurd (Int.eq_of_mul_eq_mul_right (by have := Binary64.one_pos; omega) h) hne
  all_goals omega

/-- Integers of 64 bits that are merged are close to each other. -/
theorem near (h : Merged i m) (hi : i.natAbs < wordLimit) (hm : m.natAbs < wordLimit) :
    (i - m).natAbs ≤ Nat.pow 2 11 := by
  have hnear := Binary64.units_ofInt_near hi
  have hnear' := Binary64.units_ofInt_near hm
  rw [h] at hnear
  have hscaled : ((i - m) * Binary64.one).natAbs ≤ Nat.pow 2 11 * Binary64.one := by
    have htwice : Nat.pow 2 11 * Binary64.one =
        Nat.pow 2 10 * Binary64.one + Nat.pow 2 10 * Binary64.one := by
      rw [← Nat.add_mul]
    rw [htwice, Int.sub_mul]
    omega
  rw [Int.natAbs_mul, Int.natAbs_natCast] at hscaled
  exact Nat.le_of_mul_le_mul_right hscaled Binary64.one_pos

end Merged

/-- The magnitude of a word is below `2⁶⁴`. -/
theorem Word.natAbs_lt {n : Int} (h : Word n) : n.natAbs < wordLimit := by
  have hlow := h.low
  have hhigh := h.high
  have hlimit : wordLimit = Nat.pow 2 63 + Nat.pow 2 63 := by decide
  have hpos : 0 < Nat.pow 2 63 := by decide
  omega

/-! ## Keywords with an integer -/

namespace Structural

variable {files : Texts} {s : Store} {settings : Settings} {context : Context} {place : Locator}

/-- On a number, a node with neither reference nor alternatives nor type reports what `enum` and the
numeric bounds find. -/
theorem outcome_validateNode_num {n : Number} {schema : Members}
    (href : schema.lookup "$ref" = none) (hany : schema.lookup "anyOf" = none)
    (htype : schema.lookup "type" = none) :
    (validateNode files settings (.num n) (.obj schema) context place).outcome s =
      .ok (checkEnum (.num n) schema place ++ checkNumber n schema place) := by
  rw [validateNode_plain href hany htype]
  rfl

/-- A lower limit that is an integer is broken by smaller integers that are not merged with it. -/
theorem checkNumber_minimum (i m : Int) :
    checkNumber (.int i) [("minimum", .num (.int m))] place = if i < m ∧ ¬Merged i m then
      [⟨place, .minimum, "value " ++ toString i ++ " < minimum " ++ toString m⟩] else [] := by
  calc checkNumber (.int i) [("minimum", .num (.int m))] place
      = (if (Binary64.ofInt i).lt (.ofInt m) then
          [⟨place, .minimum, "value " ++ toString i ++ " < minimum " ++ toString m⟩] else []) ++
          [] := rfl
    _ = _ := by simp only [List.append_nil, Merged.lt_iff]

/-- An upper limit that is an integer is broken by larger integers that are not merged with it. -/
theorem checkNumber_maximum (i m : Int) :
    checkNumber (.int i) [("maximum", .num (.int m))] place = if m < i ∧ ¬Merged i m then
      [⟨place, .maximum, "value " ++ toString i ++ " > maximum " ++ toString m⟩] else [] := by
  calc checkNumber (.int i) [("maximum", .num (.int m))] place
      = [] ++ (if (Binary64.ofInt m).lt (.ofInt i) then
          [⟨place, .maximum, "value " ++ toString i ++ " > maximum " ++ toString m⟩] else []) := rfl
    _ = _ := by simp only [List.nil_append, Merged.lt_iff, Merged.comm (i := i)]

/-- Integers are equal as numbers when they are merged. -/
theorem equal_int_iff {i m : Int} : Number.equal (.int i) (.int m) = true ↔ Merged i m :=
  Number.equal_iff_units

/-- A listed integer is found in the place of every integer that is merged with it. -/
theorem checkEnum_integer (i m : Int) :
    checkEnum (.num (.int i)) [("enum", .arr [.num (.int m)])] place = if Merged i m then []
      else [⟨place, .enum, "value " ++ toString i ++ " not in enum"⟩] := by
  calc checkEnum (.num (.int i)) [("enum", .arr [.num (.int m)])] place
      = if Number.equal (.int i) (.int m) || false then []
        else [⟨place, .enum, "value " ++ toString i ++ " not in enum"⟩] := rfl
    _ = _ := by simp only [Bool.or_false, equal_int_iff]

/-- The report on an integer against a schema with one keyword that has an integer for its value:
`minimum`, `maximum` and `enum` find what the integers show, unless the two are merged. Merged
words are equal, or beyond `2⁵³` on the same side of zero and close. -/
theorem validateNode_integer (files : Texts) (s : Store) (settings : Settings) (context : Context)
    (place : Locator) (i m : Int) (hi : Word i) (hm : Word m) :
    (validateNode files settings (.num (.int i)) (.obj [("minimum", .num (.int m))]) context
          place).outcome s =
        .ok (if i < m ∧ ¬Merged i m then
          [⟨place, .minimum, "value " ++ toString i ++ " < minimum " ++ toString m⟩] else []) ∧
      (validateNode files settings (.num (.int i)) (.obj [("maximum", .num (.int m))]) context
          place).outcome s =
        .ok (if m < i ∧ ¬Merged i m then
          [⟨place, .maximum, "value " ++ toString i ++ " > maximum " ++ toString m⟩] else []) ∧
      (validateNode files settings (.num (.int i)) (.obj [("enum", .arr [.num (.int m)])]) context
          place).outcome s =
        .ok (if Merged i m then []
          else [⟨place, .enum, "value " ++ toString i ++ " not in enum"⟩]) ∧
      (Merged i m → i = m ∨ (i - m).natAbs ≤ Nat.pow 2 11 ∧
        (Nat.pow 2 53 ≤ i ∧ Nat.pow 2 53 ≤ m ∨ i ≤ -Nat.pow 2 53 ∧ m ≤ -Nat.pow 2 53)) := by
  refine ⟨?_, ?_, ?_, ?_⟩
  · rw [outcome_validateNode_num (by rfl) (by rfl) (by rfl), checkNumber_minimum]
    rfl
  · rw [outcome_validateNode_num (by rfl) (by rfl) (by rfl), checkNumber_maximum]
    rfl
  · rw [outcome_validateNode_num (by rfl) (by rfl) (by rfl), checkEnum_integer]
    exact congrArg Except.ok (List.append_nil _)
  · intro h
    by_cases heq : i = m
    · exact .inl heq
    · exact .inr ⟨h.near hi.natAbs_lt hm.natAbs_lt, h.large heq⟩

/-- A schema with one keyword. -/
def keywordSchema (keyword : String) (x : Json) : Document where
  location := ⟨["s.json"]⟩
  root := .obj [(keyword, x)]

/-- Beyond `2⁵³`, an integer that is not merged with the limit is found. -/
theorem roundedLimit_report :
    Word 9007199254740993 ∧ Word 9007199254740994 ∧
      (validate (.empty .root) ⟨64, 512, false⟩
        (keywordSchema "minimum" (.num (.int 9007199254740994))) (.num (.int 9007199254740993))
        ).outcome .empty =
        .ok [⟨.root, .minimum, "value 9007199254740993 < minimum 9007199254740994"⟩] := by
  have hi : Word 9007199254740993 := ⟨by decide, by decide⟩
  have hm : Word 9007199254740994 := ⟨by decide, by decide⟩
  have hbroken : (9007199254740993 : Int) < 9007199254740994 ∧
      ¬Merged 9007199254740993 9007199254740994 := by decide +kernel
  refine ⟨hi, hm, (validateNode_integer _ _ _ _ _ _ _ hi hm).1.trans ?_⟩
  rw [if_pos hbroken]
  rfl

/-- `2⁵³` and its successor are merged, so `minimum`, `maximum` and `enum` do not tell them
apart. -/
theorem mergedIntegers_pass :
    ¬∀ (files : FileTree) (s : Store) (settings : Settings) (i m : Int), Word i → Word m →
      ((∃ report v, (validate files settings (keywordSchema "minimum" (.num (.int m)))
          (.num (.int i))).outcome s = .ok report ∧ v ∈ report ∧ v.kind = .minimum) ↔ i < m) ∧
      ((∃ report v, (validate files settings (keywordSchema "maximum" (.num (.int m)))
          (.num (.int i))).outcome s = .ok report ∧ v ∈ report ∧ v.kind = .maximum) ↔ m < i) ∧
      ((∃ report v, (validate files settings (keywordSchema "enum" (.arr [.num (.int m)]))
          (.num (.int i))).outcome s = .ok report ∧ v ∈ report ∧ v.kind = .enum) ↔ i ≠ m) := by
  intro h
  have hpass : (validate (.empty .root) ⟨64, 512, false⟩
      (keywordSchema "minimum" (.num (.int 9007199254740993))) (.num (.int 9007199254740992))
      ).outcome .empty = .ok [] := by decide +kernel
  obtain ⟨report, v, hreport, hv, -⟩ := (h (.empty .root) .empty ⟨64, 512, false⟩ 9007199254740992
    9007199254740993 ⟨by decide, by decide⟩ ⟨by decide, by decide⟩).1.mpr (by decide)
  rw [hpass] at hreport
  cases hreport
  cases hv

end Structural

end LinkedSchema
