import LinkedSchema.Configuration.Settings
import LinkedSchema.Proofs.Pointers
import Mathlib.Data.List.Induction
import Mathlib.Data.List.TakeWhile

/-!
# Settings written as text

A setting can be written as text, with blanks around what counts. Here is said which texts stand for
which value, without reading them: an engine and a switch are one of a few words, in letters of
either case (`Text.Spells`), and a ceiling is a positive number of 64 bits in decimal, with zeros or
a plus sign in front or without (`Text.Writes`). Each of the three readers accepts just these texts,
as just these values (`EngineChoice.read_eq_ok_iff`, `readSwitch?_eq_some_iff`,
`readCeiling?_eq_some_iff`).
-/

namespace LinkedSchema

namespace Text

/-! ## Blanks and letters -/

/-- A text is a piece with blanks around it or none. -/
def Padded (text : String) (piece : List Char) : Prop :=
  ∃ before after, text.toList = before ++ piece ++ after ∧ ∀ c ∈ before ++ after, isSpace c = true

/-- A text is a word, blanks around it and the case of its ASCII letters being ignored. -/
def Spells (text word : String) : Prop :=
  ∃ piece, Padded text piece ∧ piece.map Char.toLower = word.toList

/-- Blanks in front of a piece are dropped, and then nothing else if the piece has none. -/
theorem dropWhile_blanks {before piece after : List Char} (hb : ∀ c ∈ before, isSpace c = true)
    (hne : piece ≠ []) (hp : ∀ c ∈ piece, isSpace c = false) :
    (before ++ piece ++ after).dropWhile isSpace = piece ++ after := by
  obtain ⟨c, rest, rfl⟩ := List.exists_cons_of_ne_nil hne
  have hc : ¬isSpace c = true := by simp [hp c (List.mem_cons_self ..)]
  rw [List.append_assoc, List.dropWhile_append_of_pos hb, List.cons_append,
    List.dropWhile_cons_of_neg hc]

/-- A text is what is left of it without the blanks at its ends, with those blanks around. -/
theorem padded_trim (text : String) : Padded text (trim text).toList := by
  generalize hcore : text.toList.dropWhile isSpace = core
  have htrim : (trim text).toList = (core.reverse.dropWhile isSpace).reverse := by
    rw [trim, String.toList_ofList, hcore]
  have hback : core = (core.reverse.dropWhile isSpace).reverse ++
      (core.reverse.takeWhile isSpace).reverse := by
    rw [← List.reverse_append, List.takeWhile_append_dropWhile, List.reverse_reverse]
  refine ⟨text.toList.takeWhile isSpace, (core.reverse.takeWhile isSpace).reverse, ?_,
    fun c hc => ?_⟩
  · rw [htrim, List.append_assoc, ← hback, ← hcore, List.takeWhile_append_dropWhile]
  · rcases List.mem_append.mp hc with hc | hc
    · exact List.mem_takeWhile_imp hc
    · exact List.mem_takeWhile_imp (List.mem_reverse.mp hc)

/-- A piece without blanks is what is left of a text without the blanks at its ends exactly when the
text is that piece with blanks around it. -/
theorem trim_eq_iff {text : String} {piece : List Char} (hne : piece ≠ [])
    (hp : ∀ c ∈ piece, isSpace c = false) : (trim text).toList = piece ↔ Padded text piece := by
  constructor
  · rintro rfl
    exact padded_trim text
  · rintro ⟨before, after, htext, hblank⟩
    have hbefore : ∀ c ∈ before, isSpace c = true :=
      fun c hc => hblank c (List.mem_append_left _ hc)
    have hafter : ∀ c ∈ after.reverse, isSpace c = true :=
      fun c hc => hblank c (List.mem_append_right _ (List.mem_reverse.mp hc))
    have hback : (piece ++ after).reverse.dropWhile isSpace = piece.reverse := by
      have hdrop : (after.reverse ++ piece.reverse ++ []).dropWhile isSpace = piece.reverse ++ [] :=
        dropWhile_blanks hafter (List.reverse_ne_nil_iff.mpr hne)
          fun c hc => hp c (List.mem_reverse.mp hc)
      rwa [List.append_nil, List.append_nil, ← List.reverse_append] at hdrop
    rw [trim, String.toList_ofList, htext, dropWhile_blanks hbefore hne hp, hback,
      List.reverse_reverse]

/-- Blanks are no letters, and stay what they are in lower case. -/
theorem toLower_of_isSpace {c : Char} (h : isSpace c = true) : c.toLower = c := by
  unfold isSpace at h
  unfold Char.toLower
  split
  · next hupper =>
    have hlow : 65 ≤ c.toNat := hupper.1
    have hhigh : c.toNat ≤ 90 := hupper.2
    simp at h
    omega
  · rfl

/-- What is left of a text without the blanks at its ends, in lower case, is a word exactly when the
text spells it. -/
theorem lower_trim_eq_iff {text word : String} (hne : word ≠ "")
    (hw : ∀ c ∈ word.toList, isSpace c = false) : lower (trim text) = word ↔ Spells text word := by
  -- A piece that is the word in lower case has no blanks, as these would be in the word.
  have hpiece : ∀ {piece : List Char}, piece.map Char.toLower = word.toList →
      piece ≠ [] ∧ ∀ c ∈ piece, isSpace c = false := by
    intro piece h
    constructor
    · rintro rfl
      exact hne (String.toList_eq_nil_iff.mp h.symm)
    · intro c hc
      by_contra hblank
      have hspace : isSpace c = true := Bool.not_eq_false _ ▸ hblank
      have hmem : c ∈ word.toList := by
        rw [← h, ← toLower_of_isSpace hspace]
        exact List.mem_map_of_mem hc
      rw [hw c hmem] at hspace
      cases hspace
  have hlist : lower (trim text) = word ↔
      (trim text).toList.map Char.toLower = word.toList := by
    rw [← String.toList_inj, lower, String.toList_ofList]
  rw [hlist]
  constructor
  · intro h
    obtain ⟨hpne, hblank⟩ := hpiece h
    exact ⟨_, (trim_eq_iff hpne hblank).mp rfl, h⟩
  · rintro ⟨piece, hpadded, h⟩
    obtain ⟨hpne, hblank⟩ := hpiece h
    rw [(trim_eq_iff hpne hblank).mpr hpadded, h]

end Text

/-! ## Words -/

/-- The words for a choice of engine. -/
def EngineChoice.words : EngineChoice → List String
  | auto => ["auto"]
  | draft7 => ["draft7", "draft-7"]
  | structural => ["structural", "builtin"]

/-- The words for a switch that is on or off. -/
def switchWords : Bool → List String
  | true => ["1", "true", "yes", "on"]
  | false => ["0", "false", "no", "off"]

/-- A text spells one of several words exactly when one of them is what is left of it without the
blanks at its ends, in lower case. -/
theorem Text.exists_spells_iff {text : String} {words : List String}
    (hwords : ∀ word ∈ words, word ≠ "" ∧ ∀ c ∈ word.toList, isSpace c = false) :
    (∃ word ∈ words, Spells text word) ↔ lower (trim text) ∈ words := by
  constructor
  · rintro ⟨word, hmem, h⟩
    rwa [(lower_trim_eq_iff (hwords word hmem).1 (hwords word hmem).2).mpr h]
  · intro hmem
    exact ⟨_, hmem, (lower_trim_eq_iff (hwords _ hmem).1 (hwords _ hmem).2).mp rfl⟩

/-- A text is read as a choice of engine exactly when it spells a word for it. -/
theorem EngineChoice.read_eq_ok_iff {text : String} {choice : EngineChoice} :
    EngineChoice.read text = .ok choice ↔ ∃ word ∈ choice.words, Text.Spells text word := by
  rw [Text.exists_spells_iff (by cases choice <;> simp [words, Text.isSpace]), EngineChoice.read]
  generalize Text.lower (Text.trim text) = wanted
  -- Each word leads into its own branch, and any other text is no word.
  split_ifs with hauto hdraft7 hstructural
  · subst hauto
    cases choice <;> decide
  · rcases hdraft7 with rfl | rfl <;> cases choice <;> decide
  · rcases hstructural with rfl | rfl <;> cases choice <;> decide
  · cases choice <;> simp_all [words]

/-- Only the name of a choice is taken for it where its exact name is asked for. -/
theorem EngineChoice.ofName?_eq_some_iff {name : String} {choice : EngineChoice} :
    EngineChoice.ofName? name = some choice ↔ name = choice.name := by
  constructor
  · intro h
    have hname := List.find?_some h
    exact (beq_iff_eq.mp hname).symm
  · rintro rfl
    cases choice <;> rfl

/-- A text is read as a switch that is on or off exactly when it spells a word for that. -/
theorem readSwitch?_eq_some_iff {text : String} {on : Bool} :
    readSwitch? text = some on ↔ ∃ word ∈ switchWords on, Text.Spells text word := by
  rw [Text.exists_spells_iff (by cases on <;> simp [switchWords, Text.isSpace]), readSwitch?]
  generalize Text.lower (Text.trim text) = wanted
  have hdisjoint : ∀ word ∈ switchWords true, word ∉ switchWords false := by decide
  split_ifs with hon hoff
  · have hmem : wanted ∈ switchWords true := List.contains_iff_mem.mp hon
    have hnotMem := hdisjoint wanted hmem
    cases on <;> simp [hmem, hnotMem]
  · have hmem : wanted ∈ switchWords false := List.contains_iff_mem.mp hoff
    have hnotMem : wanted ∉ switchWords true := fun h => hon (List.contains_iff_mem.mpr h)
    cases on <;> simp [hmem, hnotMem]
  · have htrue : wanted ∉ switchWords true := fun h => hon (List.contains_iff_mem.mpr h)
    have hfalse : wanted ∉ switchWords false := fun h => hoff (List.contains_iff_mem.mpr h)
    cases on <;> simp [htrue, hfalse]

/-! ## Decimal numbers -/

namespace Text

/-- A number in decimal, with zeros or a plus sign in front or without. -/
def IsDecimal (piece : List Char) (n : Nat) : Prop :=
  ∃ sign zeros, (sign = [] ∨ sign = ['+']) ∧
    piece = sign ++ (List.replicate zeros '0' ++ (toString n).toList)

/-- A text is a number in decimal, with blanks around it or none. -/
def Writes (text : String) (n : Nat) : Prop := ∃ piece, IsDecimal piece n ∧ Padded text piece

end Text

/-- A digit is the character of its value. -/
theorem digitChar_digitValue {c : Char} (h : c.isDigit = true) :
    digitValue c < 10 ∧ (digitValue c).digitChar = c := by
  have hlow : 48 ≤ c.toNat := (Char.isDigit_iff_toNat.mp h).1
  have hhigh : c.toNat ≤ 57 := (Char.isDigit_iff_toNat.mp h).2
  have hvalue : digitValue c = c.toNat - 48 := rfl
  rw [hvalue]
  refine ⟨by omega, Char.toNat_inj.mp ?_⟩
  rw [Nat.toNat_digitChar_of_lt_ten (by omega)]
  omega

/-- Digits with a value are the digits of that value with zeros in front or none. -/
theorem digits_iff {digits : List Char} {n : Nat} :
    (digits ≠ [] ∧ (∀ c ∈ digits, c.isDigit = true) ∧ ofDigits digits = n) ↔
      ∃ zeros, digits = List.replicate zeros '0' ++ Nat.toDigits 10 n := by
  constructor
  · rintro ⟨hne, hdigits, rfl⟩
    induction digits using List.reverseRec with
    | nil => exact absurd rfl hne
    | append_singleton front c ih =>
      obtain ⟨hfront, hc⟩ := List.forall_mem_append.mp hdigits
      obtain ⟨hsmall, hchar⟩ := digitChar_digitValue (hc c (List.mem_singleton_self c))
      have hlast : Nat.toDigits 10 (digitValue c) = [c] := by
        rw [Nat.toDigits_of_lt_base hsmall, hchar]
      have hvalue : ofDigits (front ++ [c]) = 10 * ofDigits front + digitValue c := by
        rw [ofDigits, List.foldl_append]
        rfl
      rw [hvalue]
      by_cases hnil : front = []
      · subst hnil
        have hfirst : 10 * ofDigits [] + digitValue c = digitValue c := Nat.zero_add _
        rw [hfirst, hlast]
        exact ⟨0, rfl⟩
      · obtain ⟨zeros, hzeros⟩ := ih hnil hfront
        -- The value in front is zero when there are only zeros; then one more of them is in front.
        by_cases hzero : ofDigits front = 0
        · rw [hzero, Nat.toDigits_zero, ← List.replicate_succ'] at hzeros
          refine ⟨zeros + 1, ?_⟩
          rw [hzero, Nat.mul_zero, Nat.zero_add, hlast, hzeros]
        · refine ⟨zeros, ?_⟩
          have happend := Nat.toDigits_append_toDigits (b := 10) (by decide)
            (Nat.pos_of_ne_zero hzero) hsmall
          rw [← happend, hlast, ← List.append_assoc, ← hzeros]
  · rintro ⟨zeros, rfl⟩
    refine ⟨fun h => Nat.toDigits_ne_nil (List.append_eq_nil_iff.mp h).2, fun c hc => ?_, ?_⟩
    · rcases List.mem_append.mp hc with hc | hc
      · rw [List.eq_of_mem_replicate hc]
        rfl
      · exact Nat.isDigit_of_mem_toDigits (by decide) (by decide) hc
    · have hfold : ofDigits (List.replicate zeros '0' ++ Nat.toDigits 10 n) =
          Nat.ofDigitChars 10 (List.replicate zeros '0' ++ Nat.toDigits 10 n) 0 :=
        Nat.ofDigitChars_eq_foldl.symm
      rw [hfold, Nat.ofDigitChars_append, Nat.ofDigitChars_replicate_zero, Nat.mul_zero,
        Nat.ofDigitChars_ten_toDigits]

/-- A text is read as an index exactly when it is that number in decimal. -/
theorem index?_eq_some_iff {text : String} {n : Nat} :
    Pointer.index? text = some n ↔ Text.IsDecimal text.toList n := by
  have hindex : Pointer.index? text = some n ↔
      ∃ zeros, Pointer.unsigned text.toList = List.replicate zeros '0' ++ Nat.toDigits 10 n := by
    rw [← digits_iff, Pointer.index?]
    simp [and_assoc, not_or]
  have hlist : (toString n).toList = Nat.toDigits 10 n := Nat.toList_repr
  rw [hindex, Text.IsDecimal, hlist]
  constructor
  · rintro ⟨zeros, h⟩
    unfold Pointer.unsigned at h
    split at h
    · next rest heq => exact ⟨['+'], zeros, .inr rfl, heq.trans (congrArg ('+' :: ·) h)⟩
    · exact ⟨[], zeros, .inl rfl, h⟩
  · rintro ⟨sign, zeros, hsign, htext⟩
    obtain ⟨-, hdigits, -⟩ := digits_iff.mpr ⟨zeros, rfl⟩
    refine ⟨zeros, ?_⟩
    rw [htext]
    rcases hsign with rfl | rfl
    · exact Pointer.unsigned_of_digits hdigits
    · rfl

/-- A number in decimal is not empty and has no blanks. -/
theorem Text.IsDecimal.noBlanks {piece : List Char} {n : Nat} (h : IsDecimal piece n) :
    piece ≠ [] ∧ ∀ c ∈ piece, isSpace c = false := by
  obtain ⟨sign, zeros, hsign, rfl⟩ := h
  have hlist : (toString n).toList = Nat.toDigits 10 n := Nat.toList_repr
  rw [hlist]
  obtain ⟨hne, hdigits, -⟩ := digits_iff.mpr ⟨zeros, rfl⟩
  refine ⟨fun h => hne (List.append_eq_nil_iff.mp h).2, fun c hc => ?_⟩
  rcases List.mem_append.mp hc with hc | hc
  · rcases hsign with rfl | rfl
    · cases hc
    · rw [List.mem_singleton.mp hc]
      rfl
  · have hlow : 48 ≤ c.toNat := (Char.isDigit_iff_toNat.mp (hdigits c hc)).1
    have hhigh : c.toNat ≤ 57 := (Char.isDigit_iff_toNat.mp (hdigits c hc)).2
    unfold isSpace
    simp
    omega

/-- A text stands for a ceiling: it is a positive number of 64 bits in decimal. -/
def WritesCeiling (text : String) (n : Nat) : Prop := 0 < n ∧ n < Nat.pow 2 64 ∧ Text.Writes text n

/-- A text is read as a ceiling exactly when it stands for it. -/
theorem readCeiling?_eq_some_iff {text : String} {n : Nat} :
    readCeiling? text = some n ↔ WritesCeiling text n := by
  have hwrites : Text.Writes text n ↔ Text.IsDecimal (Text.trim text).toList n := by
    constructor
    · rintro ⟨piece, hdecimal, hpadded⟩
      rwa [(Text.trim_eq_iff hdecimal.noBlanks.1 hdecimal.noBlanks.2).mpr hpadded]
    · exact fun h => ⟨_, h, Text.padded_trim text⟩
  have hlimit : wordLimit = Nat.pow 2 64 := rfl
  rw [readCeiling?, Option.filter_eq_some_iff, Pointer.natural?_eq_some_iff, index?_eq_some_iff,
    hlimit, decide_eq_true_eq, WritesCeiling, hwrites]
  exact ⟨fun ⟨⟨hdecimal, hsmall⟩, hpos⟩ => ⟨hpos, hsmall, hdecimal⟩,
    fun ⟨hpos, hsmall, hdecimal⟩ => ⟨⟨hdecimal, hsmall⟩, hpos⟩⟩

end LinkedSchema
