import LinkedSchema.Draft7.Pattern
import LinkedSchema.Proofs.Loading
import LinkedSchema.Proofs.WrittenOut

/-!
# Reading what is written out

In the text of a pattern, writing out replaces shorthands by bracket expressions and leaves the rest
as it is, as long as every backslash stands in front of a character other than `c` (`Legible`). What
a reader takes in is always such a text, so for each reader there is one statement: what it reads is
legible, and if what is left is legible too, it reads the same in the text written out, of which it
leaves what is left, written out (`Reads`). Here are the readers of digits, names and escapes.
-/

namespace LinkedSchema.Pattern

open Draft7 (writeOut shorthandBrackets)

/-! ## Legible texts -/

/-- A text in which every backslash stands in front of a character, other than `c`. -/
inductive Legible : List Char → Prop
  /-- The empty text. -/
  | nil : Legible []
  /-- A character. -/
  | plain {c : Char} {rest : List Char} (hc : c ≠ '\\') (h : Legible rest) : Legible (c :: rest)
  /-- A backslash and a character. -/
  | escape {c : Char} {rest : List Char} (hc : c ≠ 'c') (h : Legible rest) :
    Legible ('\\' :: c :: rest)

/-- The part of a text in front of what is left of it is legible. -/
def LegibleTo (rest text : List Char) : Prop := ∃ pre, Legible pre ∧ text = pre ++ rest

variable {c : Char} {pre rest mid text : List Char}

/-- Two legible texts are legible one behind the other. -/
theorem Legible.append (hpre : Legible pre) (h : Legible rest) : Legible (pre ++ rest) := by
  induction hpre with
  | nil => exact h
  | plain hc _ ih => exact .plain hc ih
  | escape hc _ ih => exact .escape hc ih

/-- A legible text stays legible without its first character, unless that is a backslash. -/
theorem Legible.tail (h : Legible (c :: rest)) (hc : c ≠ '\\') : Legible rest := by
  cases h with
  | plain _ h => exact h
  | escape => exact (hc rfl).elim

/-- A text without backslash is legible. -/
theorem legible_of_forall (h : ∀ c ∈ text, c ≠ '\\') : Legible text := by
  induction text with
  | nil => exact .nil
  | cons c rest ih =>
    obtain ⟨hc, hrest⟩ := List.forall_mem_cons.mp h
    exact .plain hc (ih hrest)

namespace LegibleTo

/-- Nothing stands in front of the whole text. -/
theorem refl (text : List Char) : LegibleTo text text := ⟨[], .nil, rfl⟩

/-- One more character in front, other than a backslash, keeps that part legible. -/
theorem plain (hc : c ≠ '\\') (h : LegibleTo rest text) : LegibleTo rest (c :: text) := by
  obtain ⟨pre, hpre, rfl⟩ := h
  exact ⟨c :: pre, .plain hc hpre, rfl⟩

/-- One more escape in front, other than of `c`, keeps that part legible. -/
theorem escape (hc : c ≠ 'c') (h : LegibleTo rest text) : LegibleTo rest ('\\' :: c :: text) := by
  obtain ⟨pre, hpre, rfl⟩ := h
  exact ⟨'\\' :: c :: pre, .escape hc hpre, rfl⟩

/-- Two legible parts one behind the other are one legible part. -/
theorem trans (h : LegibleTo mid text) (h' : LegibleTo rest mid) : LegibleTo rest text := by
  obtain ⟨pre, hpre, rfl⟩ := h
  obtain ⟨pre', hpre', rfl⟩ := h'
  exact ⟨pre ++ pre', hpre.append hpre', (List.append_assoc ..).symm⟩

/-- If what is left is legible too, all of the text is. -/
theorem legible (h : LegibleTo rest text) (hrest : Legible rest) : Legible text := by
  obtain ⟨pre, hpre, rfl⟩ := h
  exact hpre.append hrest

/-- What is left is part of the text. -/
theorem mem (h : LegibleTo rest text) (hc : c ∈ rest) : c ∈ text := by
  obtain ⟨pre, -, rfl⟩ := h
  exact List.mem_append_right _ hc

/-- What is behind the legible beginning of a legible text is legible. -/
theorem behind (h : LegibleTo rest text) (htext : Legible text) : Legible rest := by
  obtain ⟨pre, hpre, rfl⟩ := h
  induction hpre with
  | nil => exact htext
  | plain hc _ ih => exact ih (htext.tail hc)
  | escape hc _ ih =>
    cases htext with
    | plain hc _ => exact (hc rfl).elim
    | escape _ htext => exact ih htext

/-- Signs that are no backslashes are legible. -/
theorem lead {signs : List Char} (hsigns : ∀ c ∈ signs, c ≠ '\\') (h : LegibleTo rest text) :
    LegibleTo rest (signs ++ text) :=
  .trans ⟨signs, legible_of_forall hsigns, rfl⟩ h

end LegibleTo

/-! ## Legible texts written out -/

/-- A character other than a backslash stays as it is. -/
theorem writeOut_cons (hc : c ≠ '\\') : writeOut (c :: rest) = c :: writeOut rest := by
  rw [writeOut]
  · exact fun _ _ h => absurd h hc
  · exact fun _ _ h => absurd h hc

/-- An escape that is no shorthand stays as it is. -/
theorem writeOut_escape (hc : c ≠ 'c') (hs : shorthand? c = none) :
    writeOut ('\\' :: c :: rest) = '\\' :: c :: writeOut rest := by
  rw [writeOut, hs]
  exact fun _ _ h => absurd h hc

/-- A shorthand is written out as a bracket expression. -/
theorem writeOut_shorthand {s : Shorthand} {negated : Bool}
    (hs : shorthand? c = some (s, negated)) :
    writeOut ('\\' :: c :: rest) = shorthandBrackets s negated ++ writeOut rest := by
  rw [writeOut, hs]
  rintro _ _ rfl
  cases hs

/-- What stands behind a legible text is written out on its own: no escape goes across. -/
theorem writeOut_append (hpre : Legible pre) :
    writeOut (pre ++ rest) = writeOut pre ++ writeOut rest := by
  induction hpre with
  | nil => rfl
  | plain hc _ ih => rw [List.cons_append, writeOut_cons hc, writeOut_cons hc, ih, List.cons_append]
  | @escape c _ hc _ ih =>
    rw [List.cons_append, List.cons_append]
    cases hs : shorthand? c with
    | none =>
      rw [writeOut_escape hc hs, writeOut_escape hc hs, ih, List.cons_append, List.cons_append]
    | some found =>
      rw [writeOut_shorthand hs, writeOut_shorthand hs, ih, List.append_assoc]

/-- A text without backslash stays as it is. -/
theorem writeOut_plain_append (h : ∀ c ∈ pre, c ≠ '\\') :
    writeOut (pre ++ rest) = pre ++ writeOut rest := by
  induction pre with
  | nil => rfl
  | cons c pre ih =>
    obtain ⟨hc, hpre⟩ := List.forall_mem_cons.mp h
    rw [List.cons_append, writeOut_cons hc, ih hpre, List.cons_append]

/-- Written out, a legible text is at least as long. -/
theorem Legible.length_le (h : Legible text) : text.length ≤ (writeOut text).length := by
  induction h with
  | nil => exact Nat.le_refl _
  | plain hc _ ih =>
    rw [writeOut_cons hc]
    exact Nat.succ_le_succ ih
  | @escape c _ hc _ ih =>
    cases hs : shorthand? c with
    | none =>
      rw [writeOut_escape hc hs]
      exact Nat.succ_le_succ (Nat.succ_le_succ ih)
    | some found =>
      rw [writeOut_shorthand hs, shorthandBrackets]
      simp only [List.length_append, List.length_cons]
      omega

/-- What is left is no longer than the text. -/
theorem LegibleTo.length_le (h : LegibleTo rest text) : rest.length ≤ text.length := by
  obtain ⟨pre, -, rfl⟩ := h
  rw [List.length_append]
  exact Nat.le_add_left ..

/-- Written out, what is in front of what is left is at least as long. -/
theorem LegibleTo.length_writeOut (h : LegibleTo rest text) :
    text.length + (writeOut rest).length ≤ (writeOut text).length + rest.length := by
  obtain ⟨pre, hpre, rfl⟩ := h
  have hle := hpre.length_le
  rw [writeOut_append hpre, List.length_append, List.length_append]
  omega

/-- Writing out adds no character that is not in a shorthand written out. -/
theorem hash_not_mem_writeOut (htext : Legible text) (h : '#' ∉ text) : '#' ∉ writeOut text := by
  induction htext with
  | nil => exact h
  | plain hc _ ih =>
    rw [writeOut_cons hc]
    obtain ⟨hne, hrest⟩ := not_or.mp (mt List.mem_cons.mpr h)
    exact List.not_mem_cons_of_ne_of_not_mem hne (ih hrest)
  | @escape c tail hc _ ih =>
    obtain ⟨-, h⟩ := not_or.mp (mt List.mem_cons.mpr h)
    obtain ⟨hne, hrest⟩ := not_or.mp (mt List.mem_cons.mpr h)
    cases hs : shorthand? c with
    | none =>
      rw [writeOut_escape hc hs]
      exact List.not_mem_cons_of_ne_of_not_mem (by decide)
        (List.not_mem_cons_of_ne_of_not_mem hne (ih hrest))
    | some found =>
      rw [writeOut_shorthand hs]
      refine List.not_mem_append ?_ (ih hrest)
      obtain ⟨s, negated⟩ := found
      cases s <;> cases negated <;> decide

/-- Apart from backslashes and opening brackets, a legible text starts as it does written out. -/
theorem Legible.head?_writeOut (h : Legible text) (hc : c ≠ '\\') (hb : c ≠ '[') :
    (writeOut text).head? = some c ↔ text.head? = some c := by
  cases h with
  | nil => rfl
  | plain hd _ =>
    rw [writeOut_cons hd]
    rfl
  | @escape d _ hd _ =>
    have hne : ∀ {a : Char} {l : List Char}, c ≠ a → ¬(a :: l).head? = some c :=
      fun ha he => ha (Option.some.inj he).symm
    cases hs : shorthand? d with
    | none =>
      rw [writeOut_escape hd hs]
      exact ⟨fun he => (hne hc he).elim, fun he => (hne hc he).elim⟩
    | some found =>
      rw [writeOut_shorthand hs, shorthandBrackets]
      exact ⟨fun he => (hne hb he).elim, fun he => (hne hc he).elim⟩

/-- What does not start a legible text does not start the text written out. -/
theorem Legible.head?_writeOut_ne (h : Legible text) (hc : c ≠ '\\') (hb : c ≠ '[')
    (hne : ∀ tail, text = c :: tail → False) : (writeOut text).head? ≠ some c := by
  rw [Ne, h.head?_writeOut hc hb, List.head?_eq_some_iff]
  rintro ⟨tail, htail⟩
  exact hne tail htail

/-- The part of a text in front of what is left is legible; and something follows if what is left is
legible too. -/
structure Reads (text rest : List Char) (P : Prop) : Prop where
  /-- What is read is legible. -/
  legibleTo : LegibleTo rest text
  /-- What follows. -/
  carried : Legible rest → P

namespace Reads

variable {P : Prop}

/-- Nothing else is read. -/
theorem nothing (h : Legible rest → P) : Reads rest rest P := ⟨.refl _, h⟩

/-- What follows if what is left is legible follows if the text is. -/
theorem of_legible (hto : LegibleTo rest text) (h : Legible text → P) : Reads text rest P :=
  ⟨hto, fun hrest => h (hto.legible hrest)⟩

/-- In a legible text the condition on what is left is met. -/
theorem apply (h : Reads text rest P) (htext : Legible text) : P :=
  h.carried (h.legibleTo.behind htext)

/-- Signs that stand in what is written out as they are, and what is read behind them. -/
theorem lead {α : Type} {read : List Char → α} {result : α} (signs : List Char)
    (hsigns : '\\' ∉ signs) (hto : LegibleTo rest text)
    (h : Legible rest → read (signs ++ writeOut text) = result) :
    Reads (signs ++ text) rest (read (writeOut (signs ++ text)) = result) := by
  have hplain : ∀ c ∈ signs, c ≠ '\\' := fun c hc he => hsigns (he ▸ hc)
  refine ⟨.lead hplain hto, fun hrest => ?_⟩
  rw [writeOut_plain_append hplain]
  exact h hrest

end Reads

/-! ## Digits and names -/

section Span

variable {q : Char → Bool}

/-- Every character taken is of the kind that is taken. -/
theorem takeWhile_spec (hc : c ∈ text.takeWhile q) : q c = true :=
  List.all_eq_true.mp List.all_takeWhile c hc

/-- A kind of characters to which no backslash belongs. -/
theorem ne_backslash_of_mem_takeWhile (hq : q '\\' = false) (hc : c ∈ text.takeWhile q) :
    c ≠ '\\' := by
  rintro rfl
  rw [takeWhile_spec hc] at hq
  cases hq

/-- Characters of a kind, without a backslash, are a legible part of the text. -/
theorem legibleTo_dropWhile (h : ∀ c ∈ text.takeWhile q, c ≠ '\\') :
    LegibleTo (text.dropWhile q) text :=
  ⟨text.takeWhile q, legible_of_forall h, List.takeWhile_append_dropWhile.symm⟩

/-- Where characters of a kind end, without a backslash, they end in what is written out too. -/
theorem span_writeOut (h : ∀ c ∈ text.takeWhile q, c ≠ '\\')
    (hrest : ∀ d, (writeOut (text.dropWhile q)).head? = some d → q d = false) :
    (writeOut text).takeWhile q = text.takeWhile q ∧
      (writeOut text).dropWhile q = writeOut (text.dropWhile q) := by
  have htext : writeOut text = text.takeWhile q ++ writeOut (text.dropWhile q) := by
    rw [← writeOut_plain_append h, List.takeWhile_append_dropWhile]
  have hstop : (writeOut (text.dropWhile q)).takeWhile q = [] ∧
      (writeOut (text.dropWhile q)).dropWhile q = writeOut (text.dropWhile q) := by
    cases hw : writeOut (text.dropWhile q) with
    | nil => exact ⟨rfl, rfl⟩
    | cons d tail =>
      have hd : q d = false := hrest d (by rw [hw]; rfl)
      exact ⟨List.takeWhile_cons_of_neg (by simp [hd]), List.dropWhile_cons_of_neg (by simp [hd])⟩
  rw [htext, List.takeWhile_append_of_pos fun _ => takeWhile_spec,
    List.dropWhile_append_of_pos fun _ => takeWhile_spec, hstop.1, hstop.2, List.append_nil]
  exact ⟨rfl, rfl⟩

/-- The character behind the characters of a kind is of another kind. -/
theorem not_head?_dropWhile (hc : (text.dropWhile q).head? = some c) : q c = false := by
  have hhead := List.head?_dropWhile_not q text
  rw [hc] at hhead
  simpa using hhead

/-- Characters of a kind to which neither backslashes nor opening brackets belong. -/
theorem span_writeOut_kind (hbackslash : q '\\' = false) (hbracket : q '[' = false)
    (hrest : Legible (text.dropWhile q)) :
    (writeOut text).takeWhile q = text.takeWhile q ∧
      (writeOut text).dropWhile q = writeOut (text.dropWhile q) := by
  refine span_writeOut (fun _ => ne_backslash_of_mem_takeWhile hbackslash) fun d hd => ?_
  -- What follows starts with the same character, a backslash or a bracket.
  by_cases hd' : d = '\\' ∨ d = '['
  · rcases hd' with rfl | rfl
    · exact hbackslash
    · exact hbracket
  · obtain ⟨hne, hne'⟩ := not_or.mp hd'
    exact not_head?_dropWhile ((hrest.head?_writeOut hne hne').mp hd)

/-- Characters of a kind that end in front of one that is no backslash. -/
theorem span_writeOut_cons (h : ∀ c ∈ text.takeWhile q, c ≠ '\\')
    (hdrop : text.dropWhile q = c :: rest) (hc : c ≠ '\\') :
    LegibleTo rest text ∧ (writeOut text).takeWhile q = text.takeWhile q ∧
      (writeOut text).dropWhile q = c :: writeOut rest := by
  have hto : LegibleTo (c :: rest) text := hdrop ▸ legibleTo_dropWhile h
  have hstop : q c = false := not_head?_dropWhile (by rw [hdrop]; rfl)
  obtain ⟨htake, hwritten⟩ := span_writeOut h fun d hd => by
    rw [hdrop, writeOut_cons hc] at hd
    rw [← Option.some.inj hd, hstop]
  rw [hdrop, writeOut_cons hc] at hwritten
  exact ⟨hto.trans (.plain hc (.refl _)), htake, hwritten⟩

end Span

/-- Digits end where they end in what is written out. -/
theorem spanDigits_reads {digits : List Char} (h : spanDigits text = (digits, rest)) :
    Reads text rest (spanDigits (writeOut text) = (digits, writeOut rest)) := by
  unfold spanDigits at h
  obtain ⟨rfl, rfl⟩ := Prod.mk.inj h
  refine ⟨legibleTo_dropWhile fun _ => ne_backslash_of_mem_takeWhile (by decide), fun hrest => ?_⟩
  obtain ⟨htake, hdrop⟩ := span_writeOut_kind (by decide) (by decide) hrest
  rw [spanDigits, htake, hdrop]

/-- The name of a group ends where it ends in what is written out. -/
theorem readName_reads {closing : Char} (hclosing : closing ≠ '\\') {name : String}
    (h : readName closing text = .ok (name, rest)) :
    Reads text rest (readName closing (writeOut text) = .ok (name, writeOut rest)) := by
  unfold readName at h
  split at h
  · cases h
  · next _ _ c rest' hdrop hne =>
    split at h
    · next hc =>
      subst hc
      obtain ⟨rfl, rfl⟩ := Prod.mk.inj (Except.ok.inj h)
      obtain ⟨hto, htake, hdrop'⟩ := span_writeOut_cons
        (fun _ => ne_backslash_of_mem_takeWhile Unicode.isNameChar_backslash) hdrop hclosing
      refine ⟨hto, fun _ => ?_⟩
      rw [readName, htake, hdrop']
      cases hname : text.takeWhile isNameChar with
      | nil => exact (hne hname).elim
      | cons a chars => exact if_pos rfl
    · cases h
  · cases h

/-! ## Escapes -/

/-- Hexadecimal digits are no backslashes. -/
theorem ne_backslash_of_hexDigits {n : Nat} (h : Text.ofHexDigits? text = some n) :
    ∀ c ∈ text, c ≠ '\\' := by
  unfold Text.ofHexDigits? at h
  generalize 0 = start at h
  induction text generalizing start with
  | nil => exact fun _ hc => (List.not_mem_nil hc).elim
  | cons c rest ih =>
    rw [List.foldlM_cons] at h
    cases hc : Text.hexValue? c with
    | none =>
      rw [hc] at h
      cases h
    | some d =>
      rw [hc] at h
      refine List.forall_mem_cons.mpr ⟨?_, ih _ h⟩
      rintro rfl
      exact absurd hc (by simp [show Text.hexValue? '\\' = none by decide])

/-- A text that starts with an opening brace has no hexadecimal digits. -/
theorem ofHexDigits?_brace {digits : Nat} (h : 0 < digits) :
    Text.ofHexDigits? (('\x7b' :: text).take digits) = none := by
  obtain ⟨n, rfl⟩ := Nat.exists_eq_add_of_lt h
  rfl

/-- A code point of a fixed number of digits. -/
theorem readCodePoint_digits {digits n : Nat} (hn : Text.ofHexDigits? (text.take digits) = some n)
    (hlength : (text.take digits).length = digits) (hc : charOfCode n = .ok c) :
    readCodePoint digits text = .ok (c, text.drop digits) := by
  unfold readCodePoint
  rw [hn]
  refine (if_pos hlength).trans ?_
  rw [hc]
  rfl

/-- A code point in braces. -/
theorem readCodePoint_braces {digits n : Nat} (hdigits : 0 < digits) {inside : List Char}
    (hinside : text.takeWhile (· ≠ '\x7d') = inside)
    (hrest : text.dropWhile (· ≠ '\x7d') = '\x7d' :: rest)
    (hsound : ¬(inside.isEmpty || decide (maxHexDigits < inside.length)) = true)
    (hn : Text.ofHexDigits? inside = some n) (hc : charOfCode n = .ok c) :
    readCodePoint digits ('\x7b' :: text) = .ok (c, rest) := by
  unfold readCodePoint
  rw [ofHexDigits?_brace hdigits]
  refine (if_neg (by rw [hinside, hrest]; simpa using hsound)).trans ?_
  rw [hinside, hrest, hn]
  dsimp only
  rw [hc]
  rfl

/-- A code point. -/
theorem readCodePoint_reads {digits : Nat} (hdigits : 0 < digits)
    (h : readCodePoint digits text = .ok (c, rest)) :
    Reads text rest (readCodePoint digits (writeOut text) = .ok (c, writeOut rest)) := by
  unfold readCodePoint at h
  split at h
  · next text _ _ n hn =>
    -- A fixed number of digits, which stand in front of the rest in both texts.
    split at h
    · next hlength =>
      obtain ⟨d, hd, hrest⟩ := bind_eq_ok.mp h
      cases hrest
      have hplain := ne_backslash_of_hexDigits hn
      refine ⟨⟨text.take digits, legible_of_forall hplain,
        (List.take_append_drop digits text).symm⟩, fun _ => ?_⟩
      have hwritten : writeOut text = text.take digits ++ writeOut (text.drop digits) := by
        rw [← writeOut_plain_append hplain, List.take_append_drop]
      have htake : (writeOut text).take digits = text.take digits := by
        rw [hwritten, List.take_left' hlength]
      have hdrop : (writeOut text).drop digits = writeOut (text.drop digits) := by
        rw [hwritten, List.drop_left' hlength]
      rw [← hdrop]
      exact readCodePoint_digits (by rw [htake, hn]) (by rw [htake, hlength]) hd
    · cases h
  · next tail hnone =>
    -- Digits in braces, up to the closing one.
    dsimp only at h
    split at h
    · cases h
    · next hsound =>
      split at h
      · next n hn =>
        obtain ⟨d, hd, hrest⟩ := bind_eq_ok.mp h
        cases hrest
        have hplain := ne_backslash_of_hexDigits hn
        cases hdrop : tail.dropWhile (· ≠ '\x7d') with
        | nil =>
          rw [hdrop] at hsound
          simp at hsound
        | cons e rest =>
          have he : e = '\x7d' := by
            simpa using not_head?_dropWhile (q := (· ≠ '\x7d')) (by rw [hdrop]; rfl)
          subst he
          obtain ⟨hto, htake, hdrop'⟩ := span_writeOut_cons hplain hdrop (by decide)
          rw [List.drop_one, List.tail_cons]
          refine ⟨.plain (by decide) hto, fun _ => ?_⟩
          rw [hdrop] at hsound
          rw [writeOut_cons (by decide)]
          exact readCodePoint_braces hdigits htake hdrop' (by simpa using hsound) hn hd
      · cases h
  · cases h

/-- The name of a property, if it has no backslash. -/
theorem readPropertyName_reads {name : String} (hbackslash : '\\' ∉ name.toList)
    (h : readPropertyName text = .ok (name, rest)) :
    Reads text rest (readPropertyName (writeOut text) = .ok (name, writeOut rest)) := by
  unfold readPropertyName at h
  split at h
  · cases h
  · next tail =>
    split at h
    · cases h
    · next d rest' hdrop =>
      obtain ⟨rfl, rfl⟩ := Prod.mk.inj (Except.ok.inj h)
      have hplain : ∀ c ∈ tail.takeWhile (· ≠ '\x7d'), c ≠ '\\' := fun c hc hbad =>
        hbackslash (by rwa [String.toList_ofList, ← hbad])
      have hd : d = '\x7d' := by
        simpa using not_head?_dropWhile (q := (· ≠ '\x7d')) (by rw [hdrop]; rfl)
      subst hd
      obtain ⟨hto, htake, hdrop'⟩ := span_writeOut_cons hplain hdrop (by decide)
      refine .lead ['\x7b'] (by decide) hto fun _ => ?_
      change readPropertyName ('\x7b' :: writeOut tail) = _
      rw [readPropertyName, htake, hdrop']
  · next d rest' hne =>
    obtain ⟨rfl, rfl⟩ := Prod.mk.inj (Except.ok.inj h)
    have hd : d ≠ '\\' := fun hd => hbackslash (by simp [hd])
    refine ⟨.plain hd (.refl _), fun _ => ?_⟩
    rw [writeOut_cons hd, readPropertyName]
    exact hne

/-- A property. No backslash is in its name. -/
theorem readProperty_reads {negated : Bool} {e : Escape}
    (h : readProperty negated text = .ok (e, rest)) :
    Reads text rest (readProperty negated (writeOut text) = .ok (e, writeOut rest)) := by
  unfold readProperty at h
  obtain ⟨⟨name, rest'⟩, hname, h⟩ := bind_eq_ok.mp h
  dsimp only at h
  split at h
  · next p hp =>
    cases h
    have hbackslash : '\\' ∉ name.toList := fun hmem => by
      rw [Unicode.Property.ofName?_eq_none hmem] at hp
      cases hp
    have hreads := readPropertyName_reads hbackslash hname
    refine ⟨hreads.legibleTo, fun hrest => ?_⟩
    exact bind_eq_ok.mpr ⟨(name, writeOut rest), hreads.carried hrest, by dsimp only; rw [hp]; rfl⟩
  · cases h

variable {inBrackets : Bool} {e : Escape}

/-- There is no escape with the letter `c`. -/
theorem readFull_c (inBrackets : Bool) (text : List Char) :
    readFull inBrackets 'c' text = malformed := by
  cases inBrackets <;> rfl

/-- A sign stands for itself. -/
theorem readFullEscape_sign (h : ¬c.isAlpha = true) (text : List Char) :
    readFullEscape false c text = .ok (.char c false, text) := by
  unfold readFullEscape
  rw [if_neg (by decide)]
  split
  · exact absurd (by decide) h
  · exact absurd (by decide) h
  · exact absurd (by decide) h
  · exact absurd (by decide) h
  · exact absurd (by decide) h
  · exact if_neg h

/-- The escapes of letters and signs that stand for themselves or name a group. -/
theorem readFullEscape_reads (h : readFullEscape inBrackets c text = .ok (e, rest)) :
    Reads text rest (readFullEscape inBrackets c (writeOut text) = .ok (e, writeOut rest)) := by
  unfold readFullEscape at h
  cases inBrackets with
  | true =>
    rw [if_pos rfl] at h
    have hrest : text = rest ∧ ∀ t, readFullEscape true c t = .ok (e, t) := by
      split at h
      · next hb =>
        cases h
        exact ⟨rfl, fun t => (if_pos rfl).trans (if_pos hb)⟩
      · next hb =>
        split at h
        · next hself =>
          cases h
          exact ⟨rfl, fun t => (if_pos rfl).trans ((if_neg hb).trans (if_pos hself))⟩
        · cases h
    obtain ⟨rfl, hall⟩ := hrest
    exact .nothing fun _ => hall _
  | false =>
    rw [if_neg (by decide)] at h
    split at h
    · obtain ⟨⟨name, rest'⟩, hname, hrest⟩ := bind_eq_ok.mp h
      cases hrest
      have hreads := readName_reads (by decide) hname
      exact .lead ['<'] (by decide) hreads.legibleTo fun hrest =>
        bind_eq_ok.mpr ⟨_, hreads.carried hrest, rfl⟩
    · obtain ⟨⟨name, rest'⟩, hname, hrest⟩ := bind_eq_ok.mp h
      cases hrest
      have hreads := readName_reads (by decide) hname
      exact .lead ['\''] (by decide) hreads.legibleTo fun hrest =>
        bind_eq_ok.mpr ⟨_, hreads.carried hrest, rfl⟩
    · cases h
      exact .nothing fun _ => rfl
    · cases h
      exact .nothing fun _ => rfl
    · cases h
      exact .nothing fun _ => rfl
    · split at h
      · cases h
      · next halpha =>
        cases h
        exact .nothing fun _ => readFullEscape_sign halpha _

/-- The escapes that are neither shorthands nor code points nor properties. -/
theorem readFull_reads (h : readFull inBrackets c text = .ok (e, rest)) :
    Reads text rest (readFull inBrackets c (writeOut text) = .ok (e, writeOut rest)) := by
  unfold readFull at h
  split at h
  · next hdigit =>
    -- The number starts with the character itself.
    have hcons (t : List Char) :
        spanDigits (c :: t) = (c :: (spanDigits t).1, (spanDigits t).2) := by
      rw [spanDigits, spanDigits, List.takeWhile_cons_of_pos hdigit,
        List.dropWhile_cons_of_pos hdigit]
    rw [hcons] at h
    cases h
    have hdigits : spanDigits text = ((spanDigits text).1, (spanDigits text).2) := rfl
    have hreads := spanDigits_reads hdigits
    refine ⟨hreads.legibleTo, fun hrest => ?_⟩
    rw [readFull, if_pos hdigit, hcons, hreads.carried hrest]
  · next hdigit =>
    split at h
    · next he =>
      cases h
      exact .nothing fun _ => by rw [readFull, if_neg hdigit, if_pos he]
    · next he =>
      split at h
      · next hhex =>
        cases h
        exact .nothing fun _ => by rw [readFull, if_neg hdigit, if_neg he, if_pos hhex]
      · next hhex =>
        split at h
        · next a ha =>
          split at h
          · cases h
          · next hbrace =>
            cases h
            -- An anchor asks whether a brace follows, and it follows in both texts or in neither.
            refine .nothing fun hrest => ?_
            have hhead : ((writeOut rest).head? == some '\x7b') = (rest.head? == some '\x7b') := by
              rw [Bool.eq_iff_iff, beq_iff_eq, beq_iff_eq,
                hrest.head?_writeOut (c := '\x7b') (by decide) (by decide)]
            rw [readFull, if_neg hdigit, if_neg he, if_neg hhex, ha]
            dsimp only
            rw [hhead]
            exact if_neg hbrace
        · next ha =>
          split at h
          · next control hcontrol =>
            cases h
            exact .nothing fun _ => by
              rw [readFull, if_neg hdigit, if_neg he, if_neg hhex, ha]
              dsimp only
              rw [hcontrol]
          · next hcontrol =>
            have hreads := readFullEscape_reads h
            refine ⟨hreads.legibleTo, fun hrest => ?_⟩
            rw [readFull, if_neg hdigit, if_neg he, if_neg hhex, ha]
            dsimp only
            rw [hcontrol]
            exact hreads.carried hrest

/-- An escape that is no shorthand, the backslash having been read. -/
theorem readEscape_reads (hs : shorthand? c = none)
    (h : readEscape .full inBrackets (c :: text) = .ok (e, rest)) :
    c ≠ 'c' ∧ Reads text rest
      (readEscape .full inBrackets (c :: writeOut text) = .ok (e, writeOut rest)) := by
  unfold readEscape at h ⊢
  dsimp only at h ⊢
  rw [hs] at h ⊢
  cases hcode : codeLength? c with
  | some digits =>
    have hdigits : 0 < digits := by
      unfold codeLength? at hcode
      split at hcode <;> cases hcode <;> decide
    have hc : c ≠ 'c' := by
      rintro rfl
      cases hcode
    rw [hcode] at h
    obtain ⟨⟨d, rest'⟩, hd, hrest⟩ := bind_eq_ok.mp h
    cases hrest
    have hreads := readCodePoint_reads hdigits hd
    exact ⟨hc, hreads.legibleTo, fun hrest => bind_eq_ok.mpr ⟨_, hreads.carried hrest, rfl⟩⟩
  | none =>
    rw [hcode] at h
    dsimp only at h ⊢
    split at h
    · next hp =>
      have hc : c ≠ 'c' := by
        rintro rfl
        revert hp
        decide
      have hreads := readProperty_reads h
      exact ⟨hc, hreads.legibleTo, fun hrest => (if_pos hp).trans (hreads.carried hrest)⟩
    · next hp =>
      have hc : c ≠ 'c' := by
        rintro rfl
        rw [readFull_c] at h
        cases h
      have hreads := readFull_reads h
      exact ⟨hc, hreads.legibleTo, fun hrest => (if_neg hp).trans (hreads.carried hrest)⟩

end LinkedSchema.Pattern
