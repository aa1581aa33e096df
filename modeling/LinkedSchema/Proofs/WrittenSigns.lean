import LinkedSchema.Pattern.Parser
import LinkedSchema.Proofs.WrittenBrackets

/-!
# Signs of patterns written out

What a pattern has between its atoms is read in the text written out as it is in the text: counts
and signs of repetitions, flags, the openings of groups, and blanks where they do not count.
Comments are left out: where blanks do not count, a shorthand in a comment is written out with a
line feed, which ends the comment.
-/

namespace LinkedSchema.Pattern

open Draft7 (writeOut)

variable {rest mid text : List Char}

/-! ## Repetitions -/

/-- A number and a closing brace count exactly so many times. -/
theorem readCounts?_brace {low : List Char} (h : spanDigits text = (low, '\x7d' :: rest)) :
    readCounts? text =
      if low.isEmpty then none else some (ofDigits low, some (ofDigits low), rest) := by
  rw [readCounts?, h]
  rfl

/-- Behind a number and a comma comes the upper count, or none, and a closing brace. -/
theorem readCounts?_comma {low : List Char} (h : spanDigits text = (low, ',' :: mid)) :
    readCounts? text = match (spanDigits mid).2 with
      | '\x7d' :: rest => some (ofDigits low,
          if (spanDigits mid).1.isEmpty then none else some (ofDigits (spanDigits mid).1), rest)
      | _ => none := by
  rw [readCounts?, h]
  rfl

/-- A number and a comma without a closing brace are no counts. -/
theorem readCounts?_open {low : List Char} (h : spanDigits text = (low, ',' :: mid))
    (hbrace : (spanDigits mid).2.head? ≠ some '\x7d') : readCounts? text = none := by
  rw [readCounts?_comma h]
  split
  · next heq =>
    rw [heq] at hbrace
    exact (hbrace rfl).elim
  · rfl

/-- Digits without a comma or a closing brace behind them are no counts. -/
theorem readCounts?_other {low : List Char} (h : spanDigits text = (low, rest))
    (hbrace : rest.head? ≠ some '\x7d') (hcomma : rest.head? ≠ some ',') :
    readCounts? text = none := by
  rw [readCounts?, h]
  dsimp only
  split
  · exact (hbrace rfl).elim
  · exact (hcomma rfl).elim
  · rfl

/-- Counts of a repetition are read in what is written out as they are in the text. -/
theorem readCounts?_writeOut (htext : Legible text) :
    readCounts? (writeOut text) =
      (readCounts? text).map fun counts => (counts.1, counts.2.1, writeOut counts.2.2) := by
  obtain ⟨⟨low, rest⟩, hlow⟩ : ∃ digits, spanDigits text = digits := ⟨_, rfl⟩
  have hreads := spanDigits_reads hlow
  have hrest : Legible rest := hreads.legibleTo.behind htext
  have hwritten := hreads.carried hrest
  by_cases hbrace : rest.head? = some '\x7d'
  · obtain ⟨tail, rfl⟩ := List.head?_eq_some_iff.mp hbrace
    rw [writeOut_cons (by decide)] at hwritten
    rw [readCounts?_brace hlow, readCounts?_brace hwritten]
    split <;> rfl
  · by_cases hcomma : rest.head? = some ','
    · obtain ⟨mid, rfl⟩ := List.head?_eq_some_iff.mp hcomma
      have hmid : Legible mid := hrest.tail (by decide)
      rw [writeOut_cons (by decide)] at hwritten
      obtain ⟨⟨high, rest'⟩, hhigh⟩ : ∃ digits, spanDigits mid = digits := ⟨_, rfl⟩
      have hreads' := spanDigits_reads hhigh
      have hwritten' := hreads'.apply hmid
      by_cases hbrace' : rest'.head? = some '\x7d'
      · obtain ⟨tail, rfl⟩ := List.head?_eq_some_iff.mp hbrace'
        rw [writeOut_cons (by decide)] at hwritten'
        rw [readCounts?_comma hlow, readCounts?_comma hwritten, hhigh, hwritten']
        rfl
      · rw [readCounts?_open hlow (by rwa [hhigh]), readCounts?_open hwritten]
        · rfl
        · have hbehind : Legible rest' := hreads'.legibleTo.behind hmid
          rwa [hwritten', Ne, hbehind.head?_writeOut (by decide) (by decide)]
    · rw [readCounts?_other hlow hbrace hcomma, readCounts?_other hwritten]
      · rfl
      · rwa [Ne, hrest.head?_writeOut (by decide) (by decide)]
      · rwa [Ne, hrest.head?_writeOut (by decide) (by decide)]

/-- Digits are a legible part of the text. -/
theorem legibleTo_spanDigits (text : List Char) : LegibleTo (spanDigits text).2 text :=
  have hdigits : spanDigits text = ((spanDigits text).1, (spanDigits text).2) := rfl
  (spanDigits_reads hdigits).legibleTo

/-- Counts are a legible part of the text. -/
theorem readCounts?_legibleTo {least : Nat} {most : Option Nat}
    (h : readCounts? text = some (least, most, rest)) : LegibleTo rest text := by
  have hlow := legibleTo_spanDigits text
  unfold readCounts? at h
  dsimp only at h
  split at h
  · next tail htail =>
    rw [htail] at hlow
    split at h
    · cases h
    · cases h
      exact .trans hlow (.plain (by decide) (.refl _))
  · next mid hmid =>
    rw [hmid] at hlow
    have hhigh := legibleTo_spanDigits mid
    split at h
    · next tail htail =>
      rw [htail] at hhigh
      cases h
      exact .trans hlow (.plain (by decide) (.trans hhigh (.plain (by decide) (.refl _))))
    · cases h
  · cases h

/-- The signs that repetitions start with. -/
def repetitionSigns : List Char := ['?', '*', '+', '\x7b']

/-- Without one of its signs there is no repetition. -/
theorem readRepetition?_nothing (h : ∀ c ∈ repetitionSigns, text.head? ≠ some c) :
    readRepetition? .full text = .ok (none, text) := by
  unfold readRepetition?
  split
  · exact (h '?' (by decide) rfl).elim
  · exact (h '*' (by decide) rfl).elim
  · exact (h '+' (by decide) rfl).elim
  · exact (h '\x7b' (by decide) rfl).elim
  · rfl

/-- A brace that opens no counts stands for itself. -/
theorem readRepetition?_literal (h : readCounts? text = none) :
    readRepetition? .full ('\x7b' :: text) = .ok (none, '\x7b' :: text) := by
  simp only [readRepetition?, h]

/-- Counts are a repetition if they are in order and below the limit, and malformed if not. -/
theorem readRepetition?_counts {least : Nat} {most : Option Nat}
    (h : readCounts? text = some (least, most, rest)) :
    readRepetition? .full ('\x7b' :: text) =
      if least < countLimit ∧ most.all (fun n => least ≤ n && n < countLimit)
      then .ok (some (least, most), rest) else malformed := by
  simp [readRepetition?, h]

/-- A brace starts a repetition or stands for itself. -/
theorem readRepetition?_brace {counts : Option (Nat × Option Nat)}
    (h : readRepetition? .full ('\x7b' :: text) = .ok (counts, rest)) :
    Reads ('\x7b' :: text) rest
      (readRepetition? .full (writeOut ('\x7b' :: text)) = .ok (counts, writeOut rest)) := by
  rw [writeOut_cons (by decide)]
  cases hcounts : readCounts? text with
  | none =>
    rw [readRepetition?_literal hcounts] at h
    cases h
    refine .nothing fun htext => ?_
    rw [readRepetition?_literal, writeOut_cons (by decide)]
    rw [readCounts?_writeOut (htext.tail (by decide)), hcounts]
    rfl
  | some found =>
    obtain ⟨least, most, tail⟩ := found
    rw [readRepetition?_counts hcounts] at h
    split at h
    · next hsound =>
      cases h
      refine .of_legible (.plain (by decide) (readCounts?_legibleTo hcounts)) fun htext => ?_
      have hwritten := readCounts?_writeOut (htext.tail (by decide))
      rw [hcounts] at hwritten
      rw [readRepetition?_counts hwritten, if_pos hsound]
    · cases h

/-- The counts that a repetition starts with, if one does. -/
theorem readRepetition?_reads {counts : Option (Nat × Option Nat)}
    (h : readRepetition? .full text = .ok (counts, rest)) :
    Reads text rest (readRepetition? .full (writeOut text) = .ok (counts, writeOut rest)) := by
  by_cases hsign : ∃ c ∈ repetitionSigns, text.head? = some c
  · obtain ⟨c, hc, hhead⟩ := hsign
    obtain ⟨tail, rfl⟩ := List.head?_eq_some_iff.mp hhead
    simp only [repetitionSigns, List.mem_cons, List.not_mem_nil, or_false] at hc
    obtain rfl | rfl | rfl | rfl := hc
    · cases h
      exact .lead ['?'] (by decide) (.refl _) fun _ => rfl
    · cases h
      exact .lead ['*'] (by decide) (.refl _) fun _ => rfl
    · cases h
      exact .lead ['+'] (by decide) (.refl _) fun _ => rfl
    · exact readRepetition?_brace h
  · have hno : ∀ c ∈ repetitionSigns, text.head? ≠ some c := fun c hc he => hsign ⟨c, hc, he⟩
    rw [readRepetition?_nothing hno] at h
    cases h
    refine .nothing fun htext => readRepetition?_nothing fun c hc => ?_
    have hplain : ∀ c ∈ repetitionSigns, c ≠ '\\' ∧ c ≠ '[' :=
      List.all_iff_forall_prop.mp (by decide)
    rw [Ne, htext.head?_writeOut (hplain c hc).1 (hplain c hc).2]
    exact hno c hc

/-- The signs behind the counts of a repetition: whether as much as possible is matched, and whether
it is kept. -/
def readSigns (reluctant : Bool) : List Char → Except Fault ((Bool × Bool) × List Char)
  | '?' :: '+' :: rest => .ok ((reluctant, true), rest)
  | '?' :: rest => .ok ((reluctant, false), rest)
  | '+' :: rest => .ok ((!reluctant, true), rest)
  | rest => .ok ((!reluctant, false), rest)

section Signs

variable {reluctant : Bool}

/-- A question mark on its own turns around how much is matched. -/
theorem readSigns_mark (hplus : text.head? ≠ some '+') :
    readSigns reluctant ('?' :: text) = .ok ((reluctant, false), text) := by
  rw [readSigns]
  rintro rest rfl
  exact hplus rfl

/-- Without signs as much is matched as the flags say. -/
theorem readSigns_nothing (hmark : text.head? ≠ some '?') (hplus : text.head? ≠ some '+') :
    readSigns reluctant text = .ok ((!reluctant, false), text) := by
  rw [readSigns]
  · rintro rest rfl
    exact hmark rfl
  · rintro rest rfl
    exact hmark rfl
  · rintro rest rfl
    exact hplus rfl

/-- The signs are read in what is written out as they are in the text. -/
theorem readSigns_reads {signs : Bool × Bool} (h : readSigns reluctant text = .ok (signs, rest)) :
    Reads text rest (readSigns reluctant (writeOut text) = .ok (signs, writeOut rest)) := by
  unfold readSigns at h
  split at h
  · cases h
    exact .lead ['?', '+'] (by decide) (.refl _) fun _ => rfl
  · next tail hplus =>
    cases h
    exact .lead ['?'] (by decide) (.refl _) fun hrest =>
      readSigns_mark (hrest.head?_writeOut_ne (by decide) (by decide) hplus)
  · cases h
    exact .lead ['+'] (by decide) (.refl _) fun _ => rfl
  · next hmarkPlus hmark hplus =>
    cases h
    exact .nothing fun hrest => readSigns_nothing
      (hrest.head?_writeOut_ne (by decide) (by decide) hmark)
      (hrest.head?_writeOut_ne (by decide) (by decide) hplus)

end Signs

/-! ## The openings of groups -/

/-- Flags end where they end in what is written out. -/
theorem readFlags_reads {seen : List Char} {flags flags' : Flags} {closing : Char}
    (h : readFlags .full seen flags text = .ok ((flags', closing), rest)) :
    Reads text rest
      (readFlags .full seen flags (writeOut text) = .ok ((flags', closing), writeOut rest)) := by
  induction text generalizing seen flags with
  | nil => cases h
  | cons c tail ih =>
    -- A backslash is neither a flag nor a sign between or behind flags.
    have hc : c ≠ '\\' := by
      rintro rfl
      rw [readFlags] at h
      cases hseen : seen.contains '\\' <;> cases h
    rw [writeOut_cons hc]
    unfold readFlags at h ⊢
    split at h
    · next hclosing =>
      rw [if_pos hclosing]
      dsimp only at h ⊢
      split at h
      · cases h
      · next hsound =>
        cases h
        exact ⟨.plain hc (.refl _), fun _ => if_neg hsound⟩
    · next hclosing =>
      rw [if_neg hclosing]
      split at h
      · next hdash =>
        rw [if_pos hdash]
        split at h
        · cases h
        · next hseen =>
          obtain ⟨hto, hcarried⟩ := ih h
          exact ⟨.plain hc hto, fun hrest => (if_neg hseen).trans (hcarried hrest)⟩
      · next hdash =>
        rw [if_neg hdash]
        split at h
        · cases h
        · next hregular =>
          split at h
          · next flags'' hflag =>
            obtain ⟨hto, hcarried⟩ := ih h
            exact ⟨.plain hc hto, fun hrest => (if_neg hregular).trans (hcarried hrest)⟩
          · cases h

/-- The name of a group that captures. -/
theorem readCaptureName_reads {names : List (String × Nat)} {opening : Opening}
    (h : readCaptureName .full names text = .ok (opening, rest)) :
    Reads text rest
      (readCaptureName .full names (writeOut text) = .ok (opening, writeOut rest)) := by
  unfold readCaptureName at h
  obtain ⟨⟨name, mid⟩, hname, h⟩ := bind_eq_ok.mp h
  dsimp only at h
  split at h
  · next hgood =>
    cases h
    have hreads := readName_reads (by decide) hname
    refine ⟨hreads.legibleTo, fun hrest => bind_eq_ok.mpr ⟨_, hreads.carried hrest, if_pos hgood⟩⟩
  · cases h

variable {flags : Flags} {names : List (String × Nat)}

/-- Without a question mark the group captures, under no name. -/
theorem readOpeningOf_capture (h : text.head? ≠ some '?') :
    readOpeningOf .full flags names text = .ok (.capture none, text) := by
  unfold readOpeningOf
  split <;> first | rfl | exact (h rfl).elim

/-- A name opens here, and no look-around. -/
theorem readOpeningOf_name (hequal : text.head? ≠ some '=') (hmark : text.head? ≠ some '!') :
    readOpeningOf .full flags names ('?' :: '<' :: text) = readCaptureName .full names text := by
  rw [readOpeningOf]
  · rintro rest rfl
    exact hequal rfl
  · rintro rest rfl
    exact hmark rfl

/-- The characters behind which no flags stand. -/
def openingSigns : List Char := ['=', '!', '<', '>', 'P']

/-- A question mark behind which no other sign stands opens flags. -/
theorem readOpeningOf_flags (h : ∀ c ∈ openingSigns, text.head? ≠ some c) :
    readOpeningOf .full flags names ('?' :: text) = (do
      let ((flags, closing), rest) ← readFlags .full [] flags text
      pure (if closing = ')' then .flags flags else .flagged flags, rest)) := by
  rw [readOpeningOf]
  · rintro rest rfl
    exact h '=' (by decide) rfl
  · rintro rest rfl
    exact h '!' (by decide) rfl
  · rintro rest rfl
    exact h '<' (by decide) rfl
  · rintro rest rfl
    exact h '<' (by decide) rfl
  · rintro rest rfl
    exact h '<' (by decide) rfl
  · rintro rest rfl
    exact h 'P' (by decide) rfl
  · rintro rest rfl
    exact h 'P' (by decide) rfl
  · rintro rest rfl
    exact h '>' (by decide) rfl

/-- How a group opens. -/
theorem readOpeningOf_reads {opening : Opening}
    (h : readOpeningOf .full flags names text = .ok (opening, rest)) :
    Reads text rest
      (readOpeningOf .full flags names (writeOut text) = .ok (opening, writeOut rest)) := by
  have hlook (behind negated : Bool) (tail : List Char) :
      look .full behind negated tail = .ok (.look behind negated, tail) := if_neg (by decide)
  unfold readOpeningOf at h
  split at h
  · rw [hlook] at h
    cases h
    exact .lead ['?', '='] (by decide) (.refl _) fun _ => rfl
  · rw [hlook] at h
    cases h
    exact .lead ['?', '!'] (by decide) (.refl _) fun _ => rfl
  · rw [hlook] at h
    cases h
    exact .lead ['?', '<', '='] (by decide) (.refl _) fun _ => rfl
  · rw [hlook] at h
    cases h
    exact .lead ['?', '<', '!'] (by decide) (.refl _) fun _ => rfl
  · next tail hequal hmark =>
    have hreads := readCaptureName_reads h
    refine .lead ['?', '<'] (by decide) hreads.legibleTo fun hrest => ?_
    have htail : Legible tail := hreads.legibleTo.legible hrest
    exact (readOpeningOf_name (htail.head?_writeOut_ne (by decide) (by decide) hequal)
      (htail.head?_writeOut_ne (by decide) (by decide) hmark)).trans (hreads.carried hrest)
  · have hreads := readCaptureName_reads h
    exact .lead ['?', 'P', '<'] (by decide) hreads.legibleTo hreads.carried
  · rw [if_neg (by decide)] at h
    obtain ⟨⟨name, mid⟩, hname, h⟩ := bind_eq_ok.mp h
    cases h
    have hreads := readName_reads (by decide) hname
    exact .lead ['?', 'P', '='] (by decide) hreads.legibleTo fun hrest =>
      bind_eq_ok.mpr ⟨_, hreads.carried hrest, rfl⟩
  · rw [if_neg (by decide)] at h
    cases h
    exact .lead ['?', '>'] (by decide) (.refl _) fun _ => rfl
  · next tail hequal hmark hbehind hnoBehind hname hnamed hreference hatomic =>
    -- What is left are flags, in front of none of the signs above.
    obtain ⟨⟨⟨flags', closing⟩, mid⟩, hflags, h⟩ := bind_eq_ok.mp h
    cases h
    have hreads := readFlags_reads hflags
    have hplain : ∀ c ∈ openingSigns, c ≠ '\\' ∧ c ≠ '[' :=
      List.all_iff_forall_prop.mp (by decide)
    have hno (c : Char) (hc : c ∈ openingSigns) : tail.head? ≠ some c := by
      rintro hhead
      obtain ⟨tail, rfl⟩ := List.head?_eq_some_iff.mp hhead
      simp only [openingSigns, List.mem_cons, List.not_mem_nil, or_false] at hc
      obtain rfl | rfl | rfl | rfl | rfl := hc
      · exact hequal tail rfl
      · exact hmark tail rfl
      · exact hname tail rfl
      · exact hatomic tail rfl
      · -- No flag has this letter.
        cases hflags
    refine ⟨.plain (by decide) hreads.legibleTo, fun hrest => ?_⟩
    rw [writeOut_cons (by decide), readOpeningOf_flags fun c hc => by
      rw [Ne, (hreads.legibleTo.legible hrest).head?_writeOut (hplain c hc).1 (hplain c hc).2]
      exact hno c hc]
    exact bind_eq_ok.mpr ⟨_, hreads.carried hrest, rfl⟩
  · next hno =>
    cases h
    exact .nothing fun htext =>
      readOpeningOf_capture (htext.head?_writeOut_ne (by decide) (by decide) hno)

/-! ## Blanks -/

/-- The blanks that are skipped where they do not count. -/
def isIdle (spaced : Bool) (c : Char) : Bool :=
  spaced && (c == ' ' || c == '\t' || c == '\n' || c == '\r')

/-- Where there are no comments, blanks are all that is skipped. -/
theorem skipIdle_eq {spaced : Bool} {fuel : Nat} (hash : '#' ∉ text) (hfuel : text.length < fuel) :
    skipIdle .full spaced fuel text = .ok (text.dropWhile (isIdle spaced)) := by
  induction text generalizing fuel with
  | nil =>
    cases fuel <;> rfl
  | cons c tail ih =>
    obtain ⟨n, rfl⟩ := Nat.exists_eq_add_one.mpr (Nat.lt_of_le_of_lt (Nat.zero_le _) hfuel)
    have htail : '#' ∉ tail := fun hmem => hash (List.mem_cons_of_mem _ hmem)
    unfold skipIdle
    split
    · next heq =>
      rw [heq] at hash
      exact (hash (by simp)).elim
    · next heq =>
      rw [heq] at hash
      exact (hash (by simp)).elim
    · next heq =>
      obtain ⟨rfl, rfl⟩ := List.cons.inj heq
      split
      · next hidle =>
        rw [List.dropWhile_cons_of_pos (show isIdle spaced c = true from hidle)]
        exact ih htail (Nat.lt_of_succ_lt_succ hfuel)
      · next hidle => rw [List.dropWhile_cons_of_neg (show ¬isIdle spaced c = true from hidle)]
    · next heq => cases heq

end LinkedSchema.Pattern
