import LinkedSchema.Proofs.LegiblePatterns

/-!
# Bracket expressions written out

Inside of brackets a shorthand is written out as brackets inside of brackets. What is read there is
the same set with its shorthands written out (`readCharSet_reads`): items, ranges and classes with
names stay what they are, nested brackets and operations are read as before, and the brackets stay
balanced.
-/

namespace LinkedSchema.Pattern

open Draft7 (writeOut shorthandBrackets)

variable {c : Char} {pre rest mid text : List Char} {e : Escape} {set : CharSet}

/-! ## Items -/

/-- No other escape stands for a set with shorthands. -/
theorem written_of_readFull {inBrackets : Bool}
    (h : readFull inBrackets c text = .ok (.set set, rest)) : set.written = set := by
  unfold readFull at h
  split at h
  · cases h
  · split at h
    · cases h
    · split at h
      · cases h
        rfl
      · split at h
        · split at h <;> cases h
        · split at h
          · cases h
          · unfold readFullEscape at h
            split at h
            · split at h
              · cases h
              · split at h <;> cases h
            · split at h
              · obtain ⟨_, _, h⟩ := bind_eq_ok.mp h
                cases h
              · obtain ⟨_, _, h⟩ := bind_eq_ok.mp h
                cases h
              · cases h
              · cases h
              · cases h
              · split at h <;> cases h

/-- An escape that is no shorthand stands for a set without shorthands, if for a set at all. -/
theorem written_of_readEscape {inBrackets : Bool} (hs : shorthand? c = none)
    (h : readEscape .full inBrackets (c :: text) = .ok (.set set, rest)) : set.written = set := by
  unfold readEscape at h
  dsimp only at h
  rw [hs] at h
  cases hcode : codeLength? c with
  | some digits =>
    rw [hcode] at h
    obtain ⟨_, _, h⟩ := bind_eq_ok.mp h
    cases h
  | none =>
    rw [hcode] at h
    dsimp only at h
    split at h
    · unfold readProperty at h
      obtain ⟨_, _, h⟩ := bind_eq_ok.mp h
      dsimp only at h
      split at h <;> cases h
      rfl
    · exact written_of_readFull h

/-- A text starts with a shorthand. -/
def StartsWithShorthand (text : List Char) : Prop :=
  ∃ c rest, text = '\\' :: c :: rest ∧ (shorthand? c).isSome

/-- A shorthand is read as such. -/
theorem readEscape_shorthand {s : Shorthand} {negated inBrackets : Bool}
    (hs : shorthand? c = some (s, negated)) :
    readEscape .full inBrackets (c :: text) = .ok (.set (.shorthand s negated), text) := by
  unfold readEscape
  dsimp only
  rw [hs]

/-- An item that is no shorthand. -/
theorem readBracketItem_reads (hno : ¬StartsWithShorthand text)
    (h : readBracketItem .full text = .ok (e, rest)) :
    Reads text rest (readBracketItem .full (writeOut text) = .ok (e, writeOut rest)) ∧
      rest.length < text.length ∧ ∀ set, e = .set set → set.written = set := by
  unfold readBracketItem at h
  split at h
  · cases h
  · next tail =>
    cases tail with
    | nil => cases h
    | cons c tail =>
      have hs : shorthand? c = none := by
        cases hs : shorthand? c with
        | none => rfl
        | some found => exact (hno ⟨c, tail, rfl, by rw [hs]; rfl⟩).elim
      obtain ⟨hc, hreads⟩ := readEscape_reads hs h
      refine ⟨⟨.escape hc hreads.legibleTo, fun hrest => ?_⟩, ?_, ?_⟩
      · rw [writeOut_escape hc hs]
        exact hreads.carried hrest
      · exact Nat.lt_succ_of_le (Nat.le_succ_of_le hreads.legibleTo.length_le)
      · rintro set rfl
        exact written_of_readEscape hs h
  · next c tail hne =>
    cases h
    have hc : c ≠ '\\' := fun hc => hne hc
    refine ⟨⟨.plain hc (.refl _), fun _ => ?_⟩, Nat.lt_succ_self _, fun set hset => by cases hset⟩
    rw [writeOut_cons hc, readBracketItem]
    exact hne

/-- An item behind which no range goes on. -/
theorem readRange_item (hitem : readBracketItem .full text = .ok (e, rest))
    (hset : itemSet e = .ok set)
    (hdash : ∀ tail, rest = '-' :: tail → tail.head? = some ']' ∨ tail.head? = some '-') :
    readRange .full text = .ok (set, rest) := by
  unfold readRange
  refine bind_eq_ok.mpr ⟨(e, rest), hitem, ?_⟩
  dsimp only
  split
  · rw [hset]
    rfl
  · rw [hset]
    rfl
  · next tail hclose hdouble =>
    cases tail with
    | nil => rcases hdash _ rfl with h | h <;> cases h
    | cons d tail =>
      rcases hdash _ rfl with h | h
      · exact (hclose _ (by rw [Option.some.inj h])).elim
      · exact (hdouble _ (by rw [Option.some.inj h])).elim
  · rw [hset]
    rfl

/-- Two characters with a dash between them. -/
theorem readRange_range {a b : Char} {cased cased' : Bool} {tail : List Char}
    (hfirst : readBracketItem .full text = .ok (.char a cased, '-' :: tail))
    (hlast : readBracketItem .full tail = .ok (.char b cased', rest)) (hle : a ≤ b)
    (hclose : tail.head? ≠ some ']') (hdouble : tail.head? ≠ some '-') :
    readRange .full text = .ok (.range a b, rest) := by
  unfold readRange
  refine bind_eq_ok.mpr ⟨_, hfirst, ?_⟩
  dsimp only
  split
  · next heq =>
    obtain ⟨-, rfl⟩ := List.cons.inj heq
    exact (hclose rfl).elim
  · next heq =>
    obtain ⟨-, rfl⟩ := List.cons.inj heq
    exact (hdouble rfl).elim
  · next heq =>
    obtain ⟨-, rfl⟩ := List.cons.inj heq
    rw [hlast]
    exact if_pos hle
  · next hno => exact (hno _ rfl).elim

/-- The set of an item has no shorthands when the escape it is made of has none. -/
theorem written_of_itemSet (hset : itemSet e = .ok set)
    (hwritten : ∀ set, e = .set set → set.written = set) : set.written = set := by
  cases e with
  | char c cased => cases hset; rfl
  | set s => cases hset; exact hwritten _ rfl
  | _ => cases hset

/-- A dash that does not go on a range does not do so either in what is written out. -/
theorem dash_writeOut (hrest : Legible rest)
    (hdash : ∀ tail, rest = '-' :: tail → tail.head? = some ']' ∨ tail.head? = some '-')
    (tail : List Char) (h : writeOut rest = '-' :: tail) :
    tail.head? = some ']' ∨ tail.head? = some '-' := by
  have hhead : rest.head? = some '-' :=
    (hrest.head?_writeOut (by decide) (by decide)).mp (by rw [h]; rfl)
  obtain ⟨tail', rfl⟩ := List.head?_eq_some_iff.mp hhead
  rw [writeOut_cons (by decide)] at h
  rw [← (List.cons.inj h).2, (hrest.tail (by decide)).head?_writeOut (by decide) (by decide),
    (hrest.tail (by decide)).head?_writeOut (by decide) (by decide)]
  exact hdash tail' rfl

section Range

variable {first : Escape}

/-- An item alone, followed by a dash only in front of the end or of another dash. -/
theorem readRange_reads_item (hshorthand : ¬StartsWithShorthand text)
    (hfirst : readBracketItem .full text = .ok (first, rest)) (hset : itemSet first = .ok set)
    (hdash : ∀ tail, rest = '-' :: tail → tail.head? = some ']' ∨ tail.head? = some '-') :
    rest.length < text.length ∧
      Reads text rest (readRange .full (writeOut text) = .ok (set, writeOut rest)) ∧
      set.written = set := by
  obtain ⟨hreads, hlt, hwritten⟩ := readBracketItem_reads hshorthand hfirst
  refine ⟨hlt, ⟨hreads.legibleTo, fun hrest => ?_⟩, written_of_itemSet hset hwritten⟩
  exact readRange_item (hreads.carried hrest) hset (dash_writeOut hrest hdash)

/-- Two characters with a dash between them. -/
theorem readRange_reads_range {a b : Char} {cased cased' : Bool} {tail : List Char}
    (hshorthand : ¬StartsWithShorthand text)
    (hfirst : readBracketItem .full text = .ok (.char a cased, '-' :: tail))
    (hlast : readBracketItem .full tail = .ok (.char b cased', rest)) (hle : a ≤ b)
    (hclose : ∀ t, tail = ']' :: t → False) (hdouble : ∀ t, tail = '-' :: t → False) :
    rest.length < text.length ∧
      Reads text rest (readRange .full (writeOut text) = .ok (.range a b, writeOut rest)) := by
  obtain ⟨hreads, hlt, -⟩ := readBracketItem_reads hshorthand hfirst
  have hnone : ¬StartsWithShorthand tail := by
    rintro ⟨c, t, rfl, hsome⟩
    obtain ⟨⟨s, negated⟩, hs⟩ := Option.isSome_iff_exists.mp hsome
    rw [readBracketItem, readEscape_shorthand hs] at hlast
    cases hlast
  obtain ⟨hlastReads, hlt', -⟩ := readBracketItem_reads hnone hlast
  have hto := hreads.legibleTo.trans (.plain (by decide) hlastReads.legibleTo)
  refine ⟨Nat.lt_trans hlt' (Nat.lt_of_succ_lt hlt), hto, fun hrest => ?_⟩
  have htail : Legible tail := hlastReads.legibleTo.legible hrest
  have hfirst' := hreads.carried (.plain (by decide) htail)
  rw [writeOut_cons (by decide)] at hfirst'
  exact readRange_range hfirst' (hlastReads.carried hrest) hle
    (htail.head?_writeOut_ne (by decide) (by decide) hclose)
    (htail.head?_writeOut_ne (by decide) (by decide) hdouble)

/-- An item or a range: a shorthand, or one that is read in what is written out too. -/
theorem readRange_cases (h : readRange .full text = .ok (set, rest)) :
    (∃ c s negated, text = '\\' :: c :: rest ∧ shorthand? c = some (s, negated) ∧
        set = .shorthand s negated) ∨
      (¬StartsWithShorthand text ∧ rest.length < text.length ∧
        Reads text rest (readRange .full (writeOut text) = .ok (set, writeOut rest)) ∧
        set.written = set) := by
  unfold readRange at h
  obtain ⟨⟨first, next⟩, hfirst, hlook⟩ := bind_eq_ok.mp h
  clear h
  dsimp only at hlook
  by_cases hshorthand : StartsWithShorthand text
  · obtain ⟨c, tail, rfl, hsome⟩ := hshorthand
    obtain ⟨⟨s, negated⟩, hs⟩ := Option.isSome_iff_exists.mp hsome
    have hset : readBracketItem .full ('\\' :: c :: tail) =
        .ok (.set (.shorthand s negated), tail) := readEscape_shorthand hs
    rw [hset] at hfirst
    cases hfirst
    refine .inl ⟨c, s, negated, ?_⟩
    split at hlook
    · cases hlook
      exact ⟨rfl, hs, rfl⟩
    · cases hlook
      exact ⟨rfl, hs, rfl⟩
    · obtain ⟨_, _, hlook⟩ := bind_eq_ok.mp hlook
      cases hlook
    · cases hlook
      exact ⟨rfl, hs, rfl⟩
  · refine .inr ⟨hshorthand, ?_⟩
    have halone (hdash : ∀ tail, next = '-' :: tail → tail.head? = some ']' ∨ tail.head? = some '-')
        (hlook : (do let set ← itemSet first; pure (set, next)) = Except.ok (set, rest)) :
        rest.length < text.length ∧
          Reads text rest (readRange .full (writeOut text) = .ok (set, writeOut rest)) ∧
          set.written = set := by
      obtain ⟨set', hset, hpure⟩ := bind_eq_ok.mp hlook
      cases hpure
      exact readRange_reads_item hshorthand hfirst hset hdash
    split at hlook
    · exact halone (fun tail ht => .inl (by rw [← (List.cons.inj ht).2]; rfl)) hlook
    · exact halone (fun tail ht => .inr (by rw [← (List.cons.inj ht).2]; rfl)) hlook
    · next tail hclose hdouble =>
      obtain ⟨⟨last, rest'⟩, hlast, hmatch⟩ := bind_eq_ok.mp hlook
      split at hmatch
      · next a cased b cased' rest'' heq =>
        cases heq
        split at hmatch
        · next hle =>
          cases hmatch
          obtain ⟨hlt, hreads⟩ :=
            readRange_reads_range hshorthand hfirst hlast hle hclose hdouble
          exact ⟨hlt, hreads, rfl⟩
        · cases hmatch
      · cases hmatch
    · next hno => exact halone (fun tail ht => (hno tail ht).elim) hlook

end Range

/-! ## Classes with names -/

/-- What is written out without backslash and opening bracket stands in the text as it is. -/
theorem eq_append_of_writeOut (h : Legible text) (hpre : ∀ c ∈ pre, c ≠ '\\' ∧ c ≠ '[')
    (hwritten : writeOut text = pre ++ rest) :
    ∃ tail, text = pre ++ tail ∧ writeOut tail = rest := by
  induction pre generalizing text with
  | nil => exact ⟨text, rfl, hwritten⟩
  | cons c pre ih =>
    obtain ⟨⟨hc, hb⟩, hpre⟩ := List.forall_mem_cons.mp hpre
    obtain ⟨tail, rfl⟩ := List.head?_eq_some_iff.mp
      ((h.head?_writeOut hc hb).mp (by rw [hwritten]; rfl))
    rw [writeOut_cons hc] at hwritten
    obtain ⟨rest', rfl, hrest'⟩ := ih (h.tail hc) hpre (List.cons.inj hwritten).2
    exact ⟨rest', rfl, hrest'⟩

/-- Names of classes have letters only. -/
theorem plain_of_lookup_names {a : AsciiClass}
    (h : AsciiClass.names.lookup (String.ofList pre) = some a) :
    ∀ c ∈ pre, c ≠ '\\' ∧ c ≠ '[' ∧ c ≠ ':' ∧ c ≠ '^' := by
  have hnames : AsciiClass.names.all fun entry => entry.1.toList.all fun c =>
      c ≠ '\\' ∧ c ≠ '[' ∧ c ≠ ':' ∧ c ≠ '^' := by
    decide +kernel
  obtain ⟨before, after, htable, -⟩ := List.lookup_eq_some_iff.mp h
  have hmem : (String.ofList pre, a) ∈ _ := htable ▸ List.mem_append_right _ (List.mem_cons_self ..)
  have hall := List.all_iff_forall_prop.mp (List.all_eq_true.mp hnames (String.ofList pre, a) hmem)
  rwa [String.toList_ofList] at hall

/-- The class behind its opening, and behind the sign of negation. -/
theorem readAsciiClass?_inside (text : List Char) (negated : Bool) :
    (match text.dropWhile (· ≠ ':') with
      | ':' :: ']' :: rest => do
        let a ← AsciiClass.names.lookup (String.ofList (text.takeWhile (· ≠ ':')))
        pure (CharSet.ascii a negated, rest)
      | _ => none) = some (set, rest) ↔
    ∃ a pre, AsciiClass.names.lookup (String.ofList pre) = some a ∧ set = .ascii a negated ∧
      text = pre ++ ':' :: ']' :: rest := by
  constructor
  · intro h
    split at h
    · next rest' hdrop =>
      obtain ⟨a, ha, hpure⟩ := Option.bind_eq_some_iff.mp h
      cases hpure
      refine ⟨a, _, ha, rfl, ?_⟩
      rw [← hdrop, List.takeWhile_append_dropWhile]
    · cases h
  · rintro ⟨a, pre, ha, rfl, rfl⟩
    have hcolon : ∀ c ∈ pre, decide (c ≠ ':') = true :=
      fun c hc => decide_eq_true (plain_of_lookup_names ha c hc).2.2.1
    rw [List.takeWhile_append_of_pos hcolon, List.dropWhile_append_of_pos hcolon,
      List.takeWhile_cons_of_neg (by decide), List.dropWhile_cons_of_neg (by decide),
      List.append_nil, ha]
    rfl

/-- A class is read where its name stands. -/
theorem readAsciiClass?_eq_some_iff :
    readAsciiClass? text = some (set, rest) ↔
      ∃ negated a pre, AsciiClass.names.lookup (String.ofList pre) = some a ∧
        set = .ascii a negated ∧
        text = (if negated then ['^'] else []) ++ (pre ++ ':' :: ']' :: rest) := by
  by_cases hhead : text.head? = some '^'
  · obtain ⟨tail, rfl⟩ := List.head?_eq_some_iff.mp hhead
    refine (readAsciiClass?_inside tail true).trans ⟨?_, ?_⟩
    · rintro ⟨a, pre, ha, hset, rfl⟩
      exact ⟨true, a, pre, ha, hset, rfl⟩
    · rintro ⟨negated, a, pre, ha, hset, htext⟩
      cases negated with
      | true => exact ⟨a, pre, ha, hset, (List.cons.inj htext).2⟩
      | false =>
        cases pre with
        | nil => cases htext
        | cons c pre =>
          exact ((plain_of_lookup_names ha c (List.mem_cons_self ..)).2.2.2
            (List.cons.inj htext).1.symm).elim
  · have hinside : readAsciiClass? text = some (set, rest) ↔
        ∃ a pre, AsciiClass.names.lookup (String.ofList pre) = some a ∧ set = .ascii a false ∧
          text = pre ++ ':' :: ']' :: rest := by
      refine Iff.trans (Eq.to_iff ?_) (readAsciiClass?_inside text false)
      unfold readAsciiClass?
      split
      next negated tail hopening =>
        split at hopening
        · exact (hhead rfl).elim
        · cases hopening
          rfl
    refine hinside.trans ⟨?_, ?_⟩
    · rintro ⟨a, pre, ha, hset, rfl⟩
      exact ⟨false, a, pre, ha, hset, rfl⟩
    · rintro ⟨negated, a, pre, ha, hset, rfl⟩
      cases negated with
      | true => exact (hhead rfl).elim
      | false => exact ⟨a, pre, ha, hset, rfl⟩

/-- A class with its sign of negation and its end, as far as it is read. -/
def classText (negated : Bool) (pre : List Char) : List Char :=
  (if negated then ['^'] else []) ++ (pre ++ [':', ']'])

/-- The text of a class and what follows it, with the end of the class spelled out. -/
theorem classText_append (negated : Bool) (pre rest : List Char) :
    classText negated pre ++ rest =
      (if negated then ['^'] else []) ++ (pre ++ ':' :: ']' :: rest) := by
  simp [classText]

/-- A class has no backslash and no opening bracket. -/
theorem plain_of_mem_classText {a : AsciiClass} {negated : Bool}
    (h : AsciiClass.names.lookup (String.ofList pre) = some a) :
    ∀ c ∈ classText negated pre, c ≠ '\\' ∧ c ≠ '[' := by
  intro c hc
  rcases List.mem_append.mp hc with hc | hc
  · cases negated with
    | true =>
      rw [List.mem_singleton.mp hc]
      decide
    | false => cases hc
  · rcases List.mem_append.mp hc with hc | hc
    · exact ⟨(plain_of_lookup_names h c hc).1, (plain_of_lookup_names h c hc).2.1⟩
    · have hclosing : ∀ c ∈ [':', ']'], c ≠ '\\' ∧ c ≠ '[' :=
        List.all_iff_forall_prop.mp (by decide)
      exact hclosing c hc

/-- A class with a name. -/
theorem readAsciiClass?_reads (h : readAsciiClass? text = some (set, rest)) :
    Reads text rest (readAsciiClass? (writeOut text) = some (set, writeOut rest)) ∧
      set.written = set := by
  obtain ⟨negated, a, pre, ha, rfl, rfl⟩ := readAsciiClass?_eq_some_iff.mp h
  have hplain : ∀ c ∈ classText negated pre, c ≠ '\\' :=
    fun c hc => (plain_of_mem_classText ha c hc).1
  rw [← classText_append]
  refine ⟨⟨⟨_, legible_of_forall hplain, rfl⟩, fun _ => ?_⟩, rfl⟩
  rw [writeOut_plain_append hplain]
  exact readAsciiClass?_eq_some_iff.mpr ⟨negated, a, pre, ha, rfl, classText_append ..⟩

/-- Where no class with a name stands, none is written out. -/
theorem readAsciiClass?_writeOut_eq_none (htext : Legible text) (h : readAsciiClass? text = none) :
    readAsciiClass? (writeOut text) = none := by
  rw [Option.eq_none_iff_forall_ne_some]
  rintro ⟨set, rest⟩ hwritten
  obtain ⟨negated, a, pre, ha, rfl, hsplit⟩ := readAsciiClass?_eq_some_iff.mp hwritten
  rw [← classText_append] at hsplit
  obtain ⟨tail, rfl, -⟩ := eq_append_of_writeOut htext (plain_of_mem_classText ha) hsplit
  rw [readAsciiClass?_eq_some_iff.mpr ⟨negated, a, pre, ha, rfl, classText_append ..⟩] at h
  cases h

/-! ## Bracket expressions -/

/-- A set that is being read, with its shorthands written out. -/
def Pending.written (p : Pending) : Pending :=
  ⟨p.left.map fun left => (left.1, left.2.written), p.current.written⟩

/-- Adding a set and writing out shorthands may change places. -/
theorem Pending.written_add (p : Pending) (set : CharSet) :
    (p.add set).written = p.written.add set.written := rfl

/-- Closing a set and writing out shorthands may change places. -/
theorem Pending.written_close (p : Pending) : p.close.written = p.written.close := by
  obtain ⟨_ | ⟨op, left⟩, current⟩ := p <;> rfl

/-- Starting an operation and writing out shorthands may change places. -/
theorem Pending.written_operate (p : Pending) (op : SetOperation) :
    (p.operate op).written = p.written.operate op := by
  rw [operate, operate, ← written_close]
  rfl

/-- What is written out for a shorthand is read as its set in brackets. -/
theorem readBracket_shorthand (s : Shorthand) (negated : Bool) {fuel : Nat}
    (h : (shorthandBrackets s negated).length ≤ fuel) (rest : List Char) :
    readBracket .full fuel ((shorthandBrackets s negated).tail ++ rest) =
      .ok (.bracket s.inside negated, rest) := by
  obtain ⟨n, rfl⟩ := Nat.exists_eq_add_of_le' h
  cases s <;> cases negated <;> rfl

/-- Behind a sign of negation come dashes, a closing bracket that stands for itself, or nothing of
the opening. -/
theorem readOpening_negated (text : List Char) :
    readOpening ('^' :: text) = (true, match text with
      | '-' :: _ => (⟨none, .single '-'⟩, text.dropWhile (· = '-'))
      | ']' :: rest => (⟨none, .single ']'⟩, rest)
      | text => (⟨none, .none⟩, text)) := by
  change (match text with
    | '-' :: _ => _
    | ']' :: _ => _
    | _ => _) = _
  split <;> rfl

/-- Where neither a dash nor a closing bracket stands behind the sign, the opening is over. -/
theorem readOpening_nothing (hdash : text.head? ≠ some '-') (hclose : text.head? ≠ some ']') :
    readOpening ('^' :: text) = (true, ⟨none, .none⟩, text) := by
  rw [readOpening_negated]
  split
  · exact absurd List.head?_cons hdash
  · exact absurd List.head?_cons hclose
  · rfl

/-- Without a sign of negation the opening goes on as behind one. -/
theorem readOpening_plain (hsign : text.head? ≠ some '^') :
    readOpening text = (false, (readOpening ('^' :: text)).2) := by
  by_cases hdash : text.head? = some '-'
  · obtain ⟨tail, rfl⟩ := List.head?_eq_some_iff.mp hdash
    rfl
  by_cases hclose : text.head? = some ']'
  · obtain ⟨tail, rfl⟩ := List.head?_eq_some_iff.mp hclose
    rfl
  rw [readOpening_nothing hdash hclose]
  unfold readOpening
  split
  next negated text' hopening =>
    split at hopening
    · exact (hsign rfl).elim
    · cases hopening
      dsimp only
      split
      · exact (hdash rfl).elim
      · exact (hclose rfl).elim
      · rfl

/-- What stands for itself at the opening of a bracket expression, behind the sign of negation. -/
theorem readOpening_reads_behind {negated : Bool} {p : Pending}
    (h : readOpening ('^' :: text) = (negated, p, rest)) :
    Reads text rest (readOpening ('^' :: writeOut text) = (negated, p, writeOut rest)) ∧
      p.written = p := by
  by_cases hdash : text.head? = some '-'
  · obtain ⟨tail, rfl⟩ := List.head?_eq_some_iff.mp hdash
    cases h
    refine ⟨⟨legibleTo_dropWhile fun _ => ?_, fun hrest => ?_⟩, rfl⟩
    · exact ne_backslash_of_mem_takeWhile (by decide)
    obtain ⟨-, hdrop⟩ := span_writeOut_kind (by decide) (by decide) hrest
    rw [writeOut_cons (by decide)] at hdrop ⊢
    rw [← hdrop]
    rfl
  · by_cases hclose : text.head? = some ']'
    · obtain ⟨tail, rfl⟩ := List.head?_eq_some_iff.mp hclose
      cases h
      refine ⟨⟨.plain (by decide) (.refl _), fun _ => ?_⟩, rfl⟩
      rw [writeOut_cons (by decide)]
      rfl
    · rw [readOpening_nothing hdash hclose] at h
      cases h
      refine ⟨.nothing fun htext => readOpening_nothing ?_ ?_, rfl⟩
      · rwa [Ne, htext.head?_writeOut (by decide) (by decide)]
      · rwa [Ne, htext.head?_writeOut (by decide) (by decide)]

/-- What stands at the opening of a bracket expression. -/
theorem readOpening_reads {negated : Bool} {p : Pending}
    (h : readOpening text = (negated, p, rest)) :
    Reads text rest (readOpening (writeOut text) = (negated, p, writeOut rest)) ∧
      p.written = p := by
  by_cases hsign : text.head? = some '^'
  · obtain ⟨tail, rfl⟩ := List.head?_eq_some_iff.mp hsign
    obtain ⟨hreads, hp⟩ := readOpening_reads_behind h
    refine ⟨⟨.plain (by decide) hreads.legibleTo, fun hrest => ?_⟩, hp⟩
    rw [writeOut_cons (by decide)]
    exact hreads.carried hrest
  · rw [readOpening_plain hsign] at h
    obtain ⟨rfl, hbehind⟩ := Prod.mk.inj h
    have hopening : readOpening ('^' :: text) = ((readOpening ('^' :: text)).1, p, rest) :=
      Prod.ext rfl hbehind
    obtain ⟨hreads, hp⟩ := readOpening_reads_behind hopening
    refine ⟨⟨hreads.legibleTo, fun hrest => ?_⟩, hp⟩
    have htext : Legible text := hreads.legibleTo.legible hrest
    rw [readOpening_plain (by rwa [Ne, htext.head?_writeOut (by decide) (by decide)]),
      hreads.carried hrest]

/-- Neither the end of a bracket expression, nor a bracket, nor an operation stands here. -/
structure StartsItem (text : List Char) : Prop where
  /-- Something stands here. -/
  ne_nil : text ≠ []
  /-- No closing bracket. -/
  noClose : text.head? ≠ some ']'
  /-- No opening bracket. -/
  noOpen : text.head? ≠ some '['
  /-- No operation. -/
  noOperation : ∀ c ∈ ['&', '-', '~'], ∀ tail, text ≠ c :: c :: tail

/-- One step of the reading of items: an item or a range. -/
theorem readItems_item {d : Dialect} {fuel : Nat} {p : Pending} (h : StartsItem text) :
    readItems d (fuel + 1) p text = (do
      let (set, rest) ← readRange d text
      readItems d fuel (p.add set) rest) := by
  have hop (c : Char) (hc : c ∈ ['&', '-', '~']) (tail : List Char) (he : text = c :: c :: tail) :
      False := h.noOperation c hc tail he
  rw [readItems]
  · exact h.ne_nil
  · rintro rest rfl
    exact h.noClose rfl
  · exact hop '&' (by decide)
  · exact hop '-' (by decide)
  · exact hop '~' (by decide)
  · rintro rest rfl
    exact h.noOpen rfl

/-- An item or range is written out as one. -/
theorem StartsItem.writeOut (h : StartsItem text) (htext : Legible text)
    (hno : ¬StartsWithShorthand text) : StartsItem (writeOut text) := by
  cases htext with
  | nil => exact (h.ne_nil rfl).elim
  | @plain c tail hc htail =>
    rw [writeOut_cons hc]
    refine ⟨List.cons_ne_nil _ _, h.noClose, h.noOpen, fun d hd rest heq => ?_⟩
    obtain ⟨rfl, hrest⟩ := List.cons.inj heq
    have hhead : tail.head? = some c := by
      refine (htail.head?_writeOut hc ?_).mp (by rw [hrest]; rfl)
      rintro rfl
      exact h.noOpen rfl
    obtain ⟨tail', rfl⟩ := List.head?_eq_some_iff.mp hhead
    exact h.noOperation c hd tail' rfl
  | @escape c tail hc htail =>
    have hs : shorthand? c = none := by
      cases hs : shorthand? c with
      | none => rfl
      | some found => exact (hno ⟨c, tail, rfl, by rw [hs]; rfl⟩).elim
    rw [writeOut_escape hc hs]
    refine ⟨List.cons_ne_nil _ _, fun h => ?_, fun h => ?_, fun d hd rest heq => ?_⟩
    · exact absurd (Option.some.inj h) (by decide)
    · exact absurd (Option.some.inj h) (by decide)
    have hbackslash : '\\' ∈ ['&', '-', '~'] := (List.cons.inj heq).1 ▸ hd
    exact absurd hbackslash (by decide)

/-- One step of the reading of items: a nested bracket expression. -/
theorem readItems_nested {d : Dialect} {fuel : Nat} {p : Pending}
    (h : ∀ inside, text = ':' :: inside → readAsciiClass? inside = none) :
    readItems d (fuel + 1) p ('[' :: text) = (do
      let (set, rest) ← readBracket d fuel text
      readItems d fuel (p.add set) rest) := by
  by_cases hcolon : ∃ inside, text = ':' :: inside
  · obtain ⟨inside, rfl⟩ := hcolon
    rw [readItems, h inside rfl]
  · rw [readItems]
    exact fun inside he => hcolon ⟨inside, he⟩

/-- Where no class with a name stands behind an opening bracket, none is written out. -/
theorem noClass_writeOut (htext : Legible text)
    (h : ∀ inside, text = ':' :: inside → readAsciiClass? inside = none) (inside : List Char)
    (hwritten : writeOut text = ':' :: inside) : readAsciiClass? inside = none := by
  have hhead : text.head? = some ':' :=
    (htext.head?_writeOut (by decide) (by decide)).mp (by rw [hwritten]; rfl)
  obtain ⟨tail, rfl⟩ := List.head?_eq_some_iff.mp hhead
  rw [writeOut_cons (by decide)] at hwritten
  rw [← (List.cons.inj hwritten).2]
  exact readAsciiClass?_writeOut_eq_none (htext.tail (by decide)) (h tail rfl)

/-- What a bracket expression is read to with some levels of recursion, it is read to, with its
shorthands written out, with as many levels as the text written out needs. -/
def BracketsCarry (fuel : Nat) : Prop :=
  ∀ text set rest, readBracket .full fuel text = .ok (set, rest) →
    Reads text rest (∀ fuel', 2 * (writeOut text).length + 2 ≤ fuel' →
      readBracket .full fuel' (writeOut text) = .ok (set.written, writeOut rest))

/-- The same of the items of a bracket expression. -/
def ItemsCarry (fuel : Nat) : Prop :=
  ∀ p text set rest, readItems .full fuel p text = .ok (set, rest) →
    Reads text rest (∀ fuel', 2 * (writeOut text).length + 1 ≤ fuel' →
      readItems .full fuel' p.written (writeOut text) = .ok (set.written, writeOut rest))

/-- One step of the reading of items, and the others. -/
theorem ItemsCarry.step {fuel : Nat} (h : ItemsCarry fuel) {p p' : Pending}
    (hto : LegibleTo mid text) (hlt : mid.length < text.length)
    (hstep : Legible mid → ∀ k, 2 * (writeOut text).length ≤ k →
      readItems .full (k + 1) p.written (writeOut text) =
        readItems .full k p'.written (writeOut mid))
    (hrun : readItems .full fuel p' mid = .ok (set, rest)) :
    Reads text rest (∀ fuel', 2 * (writeOut text).length + 1 ≤ fuel' →
      readItems .full fuel' p.written (writeOut text) = .ok (set.written, writeOut rest)) := by
  have hreads := h p' mid set rest hrun
  refine ⟨hto.trans hreads.legibleTo, fun hrest fuel' hfuel => ?_⟩
  obtain ⟨k, rfl⟩ := Nat.exists_eq_add_one.mpr (Nat.lt_of_lt_of_le (Nat.succ_pos _) hfuel)
  have hlength := hto.length_writeOut
  rw [hstep (hreads.legibleTo.legible hrest) k (by omega)]
  exact hreads.carried hrest k (by omega)

/-- A nested bracket expression, and the items behind it. -/
theorem ItemsCarry.nested {fuel : Nat} (hbracket : BracketsCarry fuel) (hitems : ItemsCarry fuel)
    {p : Pending} (hno : ∀ inside, text = ':' :: inside → readAsciiClass? inside = none)
    (hrun : (do
      let (set, rest) ← readBracket .full fuel text
      readItems .full fuel (p.add set) rest) = .ok (set, rest)) :
    Reads ('[' :: text) rest (∀ fuel', 2 * (writeOut ('[' :: text)).length + 1 ≤ fuel' →
      readItems .full fuel' p.written (writeOut ('[' :: text)) =
        .ok (set.written, writeOut rest)) := by
  obtain ⟨⟨inner, mid⟩, hinner, hrun⟩ := bind_eq_ok.mp hrun
  have hreads := hbracket text inner mid hinner
  refine hitems.step (.plain (by decide) hreads.legibleTo)
    (Nat.lt_succ_of_le hreads.legibleTo.length_le) (fun hmid k hk => ?_) hrun
  rw [writeOut_cons (by decide)] at hk ⊢
  rw [List.length_cons] at hk
  rw [readItems_nested (noClass_writeOut (hreads.legibleTo.legible hmid) hno),
    hreads.carried hmid k (by omega)]
  rfl

/-- An item or range, and the items behind it. -/
theorem ItemsCarry.item {fuel : Nat} (h : ItemsCarry fuel) {p : Pending} (hstarts : StartsItem text)
    (hrun : (do
      let (set, rest) ← readRange .full text
      readItems .full fuel (p.add set) rest) = .ok (set, rest)) :
    Reads text rest (∀ fuel', 2 * (writeOut text).length + 1 ≤ fuel' →
      readItems .full fuel' p.written (writeOut text) = .ok (set.written, writeOut rest)) := by
  obtain ⟨⟨item, mid⟩, hitem, hrun⟩ := bind_eq_ok.mp hrun
  obtain ⟨c, s, negated, rfl, hs, rfl⟩ | ⟨hno, hlt, hreads, hwritten⟩ := readRange_cases hitem
  · -- The brackets that are written out stand for the same set.
    have hc : c ≠ 'c' := by
      rintro rfl
      cases hs
    refine h.step (.escape hc (.refl _)) (Nat.lt_succ_of_lt (Nat.lt_succ_self _))
      (fun _ k hk => ?_) hrun
    rw [writeOut_shorthand hs] at hk ⊢
    rw [List.length_append] at hk
    -- These brackets do not start a class with a name.
    have hnested : ∀ inside, (shorthandBrackets s negated).tail ++ writeOut mid = ':' :: inside →
        readAsciiClass? inside = none := by
      intro inside he
      cases s <;> cases negated <;> exact absurd (List.cons.inj he).1 (by decide)
    refine (readItems_nested hnested).trans ?_
    rw [readBracket_shorthand s negated (by omega)]
    rfl
  · refine h.step hreads.legibleTo hlt (fun hmid k _ => ?_) hrun
    rw [readItems_item (hstarts.writeOut (hreads.legibleTo.legible hmid) hno), hreads.carried hmid,
      Pending.written_add, hwritten]
    rfl

/-- The two signs of an operation, and the items behind them. -/
theorem ItemsCarry.operation {fuel : Nat} (h : ItemsCarry fuel) {p : Pending} {op : SetOperation}
    (hc : c ≠ '\\') (hop : ∀ k p text, readItems .full (k + 1) p (c :: c :: text) =
      readItems .full k (p.operate op) text)
    (hrun : readItems .full fuel (p.operate op) text = .ok (set, rest)) :
    Reads (c :: c :: text) rest (∀ fuel', 2 * (writeOut (c :: c :: text)).length + 1 ≤ fuel' →
      readItems .full fuel' p.written (writeOut (c :: c :: text)) =
        .ok (set.written, writeOut rest)) := by
  refine h.step (.plain hc (.plain hc (.refl _))) (Nat.lt_succ_of_lt (Nat.lt_succ_self _))
    (fun _ k _ => ?_) hrun
  rw [writeOut_cons hc, writeOut_cons hc, hop, Pending.written_operate]

/-- Items are read by what the first of them starts with: the end, an operation, brackets, or an
item or range. -/
theorem ItemsCarry.succ {fuel : Nat} (hbracket : BracketsCarry fuel) (hitems : ItemsCarry fuel) :
    ItemsCarry (fuel + 1) := by
  intro p text set rest hrun
  unfold readItems at hrun
  split at hrun
  · cases hrun
  · cases hrun
    refine ⟨.plain (by decide) (.refl _), fun _ fuel' hfuel => ?_⟩
    obtain ⟨k, rfl⟩ := Nat.exists_eq_add_one.mpr (Nat.lt_of_lt_of_le (Nat.succ_pos _) hfuel)
    rw [writeOut_cons (by decide), Pending.written_close]
    rfl
  · exact hitems.operation (by decide) (fun _ _ _ => rfl) hrun
  · exact hitems.operation (by decide) (fun _ _ _ => rfl) hrun
  · exact hitems.operation (by decide) (fun _ _ _ => rfl) hrun
  · split at hrun
    · next inside =>
      split at hrun
      · next inner mid hclass =>
        obtain ⟨hreads, hwritten⟩ := readAsciiClass?_reads hclass
        refine hitems.step (.plain (by decide) (.plain (by decide) hreads.legibleTo))
          (Nat.lt_succ_of_lt (Nat.lt_succ_of_le hreads.legibleTo.length_le))
          (fun hmid k _ => ?_) hrun
        rw [writeOut_cons (by decide), writeOut_cons (by decide), readItems, hreads.carried hmid,
          Pending.written_add, hwritten]
      · next hnone =>
        -- A colon that starts no class is the first item of nested brackets.
        refine ItemsCarry.nested hbracket hitems (fun inside' he => ?_) hrun
        rw [← (List.cons.inj he).2, hnone]
    · next hno =>
      exact ItemsCarry.nested hbracket hitems (fun inside he => (hno inside he).elim) hrun
  · next hnil hclose hand hminus htilde hopen =>
    -- None of the signs above: this is all that the reading of an item asks for.
    refine hitems.item ⟨hnil, fun he => ?_, fun he => ?_, fun c hc tail he => ?_⟩ hrun
    · obtain ⟨tail, rfl⟩ := List.head?_eq_some_iff.mp he
      exact hclose tail rfl
    · obtain ⟨tail, rfl⟩ := List.head?_eq_some_iff.mp he
      exact hopen tail rfl
    · simp only [List.mem_cons, List.not_mem_nil, or_false] at hc
      obtain rfl | rfl | rfl := hc
      · exact hand tail he
      · exact hminus tail he
      · exact htilde tail he

/-- With one more level of recursion for the brackets than for their items, brackets are read as
they are without shorthands. -/
theorem BracketsCarry.succ {fuel : Nat} (h : ItemsCarry fuel) : BracketsCarry (fuel + 1) := by
  intro text set rest hrun
  unfold readBracket at hrun
  obtain ⟨⟨negated, p, mid⟩, hopening⟩ : ∃ opening, readOpening text = opening := ⟨_, rfl⟩
  rw [hopening] at hrun
  obtain ⟨⟨inner, rest'⟩, hinner, hrun⟩ := bind_eq_ok.mp hrun
  cases hrun
  obtain ⟨hreads, hp⟩ := readOpening_reads hopening
  have hitems := h p mid inner rest hinner
  refine ⟨hreads.legibleTo.trans hitems.legibleTo, fun hrest fuel' hfuel => ?_⟩
  obtain ⟨k, rfl⟩ := Nat.exists_eq_add_one.mpr (Nat.lt_of_lt_of_le (Nat.succ_pos _) hfuel)
  have hlength := hreads.legibleTo.length_writeOut
  have hle := hreads.legibleTo.length_le
  rw [readBracket, hreads.carried (hitems.legibleTo.legible hrest)]
  have hread := hitems.carried hrest k (by omega)
  rw [hp] at hread
  dsimp only
  rw [hread]
  rfl

/-- Bracket expressions and their items are read as they are without shorthands. -/
theorem brackets_carry (fuel : Nat) : BracketsCarry fuel ∧ ItemsCarry fuel := by
  induction fuel with
  | zero =>
    refine ⟨fun _ _ _ h => ?_, fun _ _ _ _ h => ?_⟩
    · cases h
    · cases h
  | succ fuel ih => exact ⟨.succ ih.2, .succ ih.1 ih.2⟩

/-! ## Balanced brackets -/

/-- What follows balanced brackets is the end of the text. -/
theorem afterBalanced_suffix {depth : Nat} (h : afterBalanced depth text = some rest) :
    rest <:+ text := by
  fun_induction afterBalanced depth text with
  | case1 => cases h
  | case2 => cases h
  | case3 depth c tail ih => exact (ih h).trans ⟨['\\', c], rfl⟩
  | case4 depth tail ih => exact (ih h).trans (List.suffix_cons ..)
  | case5 tail =>
    cases h
    exact List.suffix_cons ..
  | case6 depth tail ih => exact (ih h).trans (List.suffix_cons ..)
  | case7 depth c tail _ _ _ _ _ ih => exact (ih h).trans (List.suffix_cons ..)

/-- The brackets that a shorthand is written out with are balanced. -/
theorem afterBalanced_shorthand (s : Shorthand) (negated : Bool) (depth : Nat) (text : List Char) :
    afterBalanced depth (shorthandBrackets s negated ++ text) = afterBalanced depth text := by
  cases s <;> cases negated <;> rfl

/-- Brackets that are balanced are so written out. -/
theorem afterBalanced_writeOut (h : Legible text) {depth : Nat}
    (hafter : afterBalanced depth text = some rest) :
    afterBalanced depth (writeOut text) = some (writeOut rest) := by
  induction h generalizing depth with
  | nil => cases hafter
  | @plain c tail hc _ ih =>
    rw [writeOut_cons hc]
    by_cases hopen : c = '['
    · subst hopen
      exact ih hafter
    · by_cases hclose : c = ']'
      · subst hclose
        cases depth with
        | zero =>
          cases hafter
          rfl
        | succ depth => exact ih hafter
      · have hskip (t : List Char) : afterBalanced depth (c :: t) = afterBalanced depth t := by
          rw [afterBalanced]
          · exact fun he _ => hc he
          · exact fun _ _ he _ => hc he
          · exact hopen
          · exact fun _ he => hclose he
          · exact fun _ _ he => hclose he
        rw [hskip] at hafter ⊢
        exact ih hafter
  | @escape c tail hc _ ih =>
    cases hs : shorthand? c with
    | none =>
      rw [writeOut_escape hc hs]
      exact ih hafter
    | some found =>
      rw [writeOut_shorthand hs, afterBalanced_shorthand]
      exact ih hafter

/-- Without a sign of negation the end of an expression is where it is with one. -/
theorem afterBrackets_plain (hsign : text.head? ≠ some '^') :
    afterBrackets text = afterBrackets ('^' :: text) := by
  unfold afterBrackets
  split
  · exact (hsign rfl).elim
  · rfl

/-- Where no closing bracket stands for itself, the end is where the brackets are balanced. -/
theorem afterBrackets_noClose (hclose : text.head? ≠ some ']') :
    afterBrackets ('^' :: text) = afterBalanced 0 text := by
  unfold afterBrackets
  dsimp only
  split
  · next heq =>
    change text = _ at heq
    rw [heq] at hclose
    exact (hclose rfl).elim
  · rfl

/-- Where the brackets of an expression are balanced, behind the sign of negation. -/
theorem afterBrackets_writeOut_behind (htext : Legible text)
    (h : afterBrackets ('^' :: text) = some rest) :
    rest <:+ text ∧ afterBrackets ('^' :: writeOut text) = some (writeOut rest) := by
  by_cases hclose : text.head? = some ']'
  · obtain ⟨tail, rfl⟩ := List.head?_eq_some_iff.mp hclose
    refine ⟨(afterBalanced_suffix h).trans (List.suffix_cons ..), ?_⟩
    rw [writeOut_cons (by decide)]
    exact afterBalanced_writeOut (htext.tail (by decide)) h
  · rw [afterBrackets_noClose hclose] at h
    refine ⟨afterBalanced_suffix h, ?_⟩
    rw [afterBrackets_noClose (by rwa [Ne, htext.head?_writeOut (by decide) (by decide)])]
    exact afterBalanced_writeOut htext h

/-- Where the brackets of an expression are balanced. -/
theorem afterBrackets_writeOut (htext : Legible text) (h : afterBrackets text = some rest) :
    rest <:+ text ∧ afterBrackets (writeOut text) = some (writeOut rest) := by
  by_cases hsign : text.head? = some '^'
  · obtain ⟨tail, rfl⟩ := List.head?_eq_some_iff.mp hsign
    obtain ⟨hsuffix, hwritten⟩ := afterBrackets_writeOut_behind (htext.tail (by decide)) h
    rw [writeOut_cons (by decide)]
    exact ⟨hsuffix.trans (List.suffix_cons ..), hwritten⟩
  · rw [afterBrackets_plain hsign] at h
    rw [afterBrackets_plain (by rwa [Ne, htext.head?_writeOut (by decide) (by decide)])]
    exact afterBrackets_writeOut_behind htext h

/-- A bracket expression as an atom. -/
theorem readCharSet_reads (h : readCharSet .full text = .ok (set, rest)) :
    Reads text rest (readCharSet .full (writeOut text) = .ok (set.written, writeOut rest)) := by
  unfold readCharSet at h
  obtain ⟨⟨set', rest'⟩, hbracket, h⟩ := bind_eq_ok.mp h
  dsimp only at h
  split at h
  · next hbalanced =>
    cases h
    have hreads := (brackets_carry _).1 text set rest hbracket
    refine ⟨hreads.legibleTo, fun hrest => ?_⟩
    have htext : Legible text := hreads.legibleTo.legible hrest
    obtain ⟨after, hafter, hlength⟩ := Option.map_eq_some_iff.mp hbalanced
    obtain ⟨hsuffix, hwritten⟩ := afterBrackets_writeOut htext hafter
    -- Both are ends of the text, and of one length.
    have hsame : after = rest := by
      obtain ⟨pre, -, htext⟩ := hreads.legibleTo
      exact List.IsSuffix.eq_of_length
        (List.suffix_of_suffix_length_le hsuffix ⟨pre, htext.symm⟩ (Nat.le_of_eq hlength)) hlength
    rw [hsame] at hwritten
    rw [readCharSet, hreads.carried hrest _ (Nat.le_refl _)]
    exact if_pos (by rw [hwritten]; rfl)
  · cases h

end LinkedSchema.Pattern
