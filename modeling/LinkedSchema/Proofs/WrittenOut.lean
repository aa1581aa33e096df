import Mathlib.Data.Bool.AllAny
import LinkedSchema.Pattern.Backtrack
import LinkedSchema.Proofs.UnicodeTables

/-!
# Shorthands written out

A shorthand such as `\d` stands for characters of all scripts. Written out, as schemas want it, it
is a bracket expression with a fixed list of ranges. `Regex.written` is an expression with all its
shorthands written out.

On characters for which the lists say what the shorthands say, this makes no difference, whatever
else is in the expression: the two search alike, place by place and step by step, and go back as
often (`search?_written`). Where case is ignored a set is asked about the case variants of a
character too, and nested sets about the variants of these; so such characters come as a set that
is closed under variants (`Alike`). ASCII characters are among them.
-/

namespace LinkedSchema.Pattern

/-- The ranges of characters that a shorthand is written out as. -/
def Shorthand.ranges : Shorthand → List (Char × Char)
  | digit => [('0', '9')]
  | word => [('A', 'Z'), ('a', 'z'), ('0', '9'), ('_', '_')]
  | space => [' ', '\t', '\n', '\r', '\x0b', '\x0c', '\u00a0', '\ufeff', '\u2003', '\u2029'].map
      fun c => (c, c)

/-- The set that the inside of brackets with these ranges stands for. -/
def Shorthand.inside (s : Shorthand) : CharSet :=
  s.ranges.foldl (fun set r => .union set (.range r.1 r.2)) .none

/-- A set with its shorthands written out. -/
def CharSet.written : CharSet → CharSet
  | shorthand s negated => bracket s.inside negated
  | union a b => union a.written b.written
  | operation op a b => operation op a.written b.written
  | bracket set negated => bracket set.written negated
  | set => set

/-- An expression with its shorthands written out. -/
def Regex.written : Regex → Regex
  | char ignoreCase set => char ignoreCase set.written
  | seq a b => seq a.written b.written
  | alt a b => alt a.written b.written
  | group n r => group n r.written
  | repeated r least most greedy => repeated r.written least most greedy
  | atomic r => atomic r.written
  | ahead r negated => ahead r.written negated
  | behind width r negated => behind width r.written negated
  | r => r

/-! ## Sets -/

/-- Characters on which every shorthand says what it is written out as, with all their case
variants. -/
structure Alike (ignoreCase : Bool) (P : Char → Prop) : Prop where
  /-- The case variants are among them. -/
  closed : ∀ c, P c → ∀ v ∈ CharSet.variants ignoreCase c, P v
  /-- The shorthands say the same. -/
  agree : ∀ c, P c → ∀ s : Shorthand,
    (CharSet.variants ignoreCase c).any (s.inside.contains ignoreCase) = s.contains c

/-- A character on which written-out shorthands make no difference, whether case is ignored or
not. -/
def IsPlain (c : Char) : Prop := ∀ ignoreCase, ∃ P, Alike ignoreCase P ∧ P c

/-- A text of such characters. -/
def Plain (text : List Char) : Prop := ∀ c ∈ text, IsPlain c

/-- On such characters a set says what it says with its shorthands written out. -/
theorem Alike.contains_written {ignoreCase : Bool} {P : Char → Prop} (h : Alike ignoreCase P)
    (set : CharSet) : ∀ c, P c → set.written.contains ignoreCase c = set.contains ignoreCase c := by
  -- Sets below an operation or in brackets are asked about the variants.
  have hvariants {a : CharSet} (ha : ∀ c, P c → a.written.contains ignoreCase c =
      a.contains ignoreCase c) (c : Char) (hc : P c) :
      (CharSet.variants ignoreCase c).any (a.written.contains ignoreCase) =
        (CharSet.variants ignoreCase c).any (a.contains ignoreCase) := by
    rw [Bool.eq_iff_iff, List.any_eq_true, List.any_eq_true]
    exact exists_congr fun v => and_congr_right fun hv => by rw [ha v (h.closed c hc v hv)]
  induction set with
  | shorthand s negated =>
    intro c hc
    simp only [CharSet.written, CharSet.contains, h.agree c hc]
  | union a b iha ihb =>
    intro c hc
    simp only [CharSet.written, CharSet.contains, iha c hc, ihb c hc]
  | operation op a b iha ihb =>
    intro c hc
    simp only [CharSet.written, CharSet.contains, hvariants iha c hc, hvariants ihb c hc]
  | bracket set negated ih =>
    intro c hc
    simp only [CharSet.written, CharSet.contains, hvariants ih c hc]
  | _ => exact fun _ _ => rfl

/-- A plain character is in a set exactly when it is in the set written out, whether case is ignored
or not. -/
theorem IsPlain.contains_written {c : Char} (h : IsPlain c) (ignoreCase : Bool) (set : CharSet) :
    set.written.contains ignoreCase c = set.contains ignoreCase c := by
  obtain ⟨P, hP, hc⟩ := h ignoreCase
  exact hP.contains_written set c hc

/-! ## ASCII characters -/

/-- The foldings to ASCII characters. -/
def foldingsToAscii : List Unicode.Folding :=
  [⟨⟨0x41, 0x5A, 1⟩, 0x61⟩, ⟨⟨0x17F, 0x17F, 1⟩, 0x73⟩, ⟨⟨0x212A, 0x212A, 1⟩, 0x6B⟩]

/-- An ASCII character, or one that folds to one. -/
def FoldsToAscii (c : Char) : Prop := c.toNat < 128 ∨ c = '\u017f' ∨ c = '\u212a'

instance (c : Char) : Decidable (FoldsToAscii c) := inferInstanceAs (Decidable (_ ∨ _))

/-- What a code point folds to by the foldings to ASCII characters. -/
def foldToAscii (n : Nat) : Nat :=
  match foldingsToAscii.find? (·.run.contains n) with
  | some f => f.target + (n - f.run.first)
  | none => n

/-- The case variants by the foldings to ASCII characters. -/
def variantsByAscii (c : Char) : List Char :=
  Char.ofNat (foldToAscii c.toNat) ::
    (foldingsToAscii.filterMap (·.source? (foldToAscii c.toNat))).map Char.ofNat

/-- What holds of the first 128 characters holds of every ASCII character. -/
theorem forall_ascii {P : Char → Prop} (h : ∀ n < 128, P (Char.ofNat n)) {c : Char}
    (hc : c.toNat < 128) : P c := Char.ofNat_toNat c ▸ h c.toNat hc

/-- Only a run that starts at an ASCII character holds one. -/
theorem find?_run_of_ascii {n : Nat} (h : n < 128) (foldings : List Unicode.Folding) :
    foldings.find? (·.run.contains n) =
      (foldings.filter (·.run.first < 128)).find? (·.run.contains n) := by
  rw [List.find?_filter]
  congr 1
  funext f
  by_cases hf : f.run.first < 128
  · simp [hf]
  · simp [Unicode.Run.contains, hf, show ¬f.run.first ≤ n by omega]

/-- What folds to an ASCII character does so by a folding to ASCII characters. -/
theorem filterMap_source?_of_ascii {n : Nat} (h : n < 128) :
    Unicode.foldings.filterMap (·.source? n) = foldingsToAscii.filterMap (·.source? n) := by
  have htarget : Unicode.foldings.filter (·.target < 128) = foldingsToAscii := by decide +kernel
  rw [← htarget, List.filterMap_filter]
  congr 1
  funext f
  by_cases hf : f.target < 128
  · simp [hf]
  · simp [Unicode.Folding.source?, hf, show ¬f.target ≤ n by omega]

/-- The case variants of ASCII characters and of what folds to them. -/
theorem caseVariants_eq {c : Char} (h : FoldsToAscii c) :
    Unicode.caseVariants c = variantsByAscii c := by
  have hfold : Unicode.fold c.toNat = foldToAscii c.toNat := by
    rcases h with hlt | rfl | rfl
    · unfold Unicode.fold foldToAscii
      rw [find?_run_of_ascii hlt, find?_run_of_ascii hlt foldingsToAscii]
      rfl
    · decide +kernel
    · decide +kernel
  have hlt : foldToAscii c.toNat < 128 := by
    rcases h with hlt | rfl | rfl
    · exact forall_ascii (P := fun c => foldToAscii c.toNat < 128) (by decide +kernel) hlt
    · decide
    · decide
  unfold Unicode.caseVariants variantsByAscii
  dsimp only
  rw [hfold, filterMap_source?_of_ascii hlt]

/-- An ASCII character is plain. -/
theorem isPlain_of_ascii {c : Char} (h : c.toNat < 128) : IsPlain c := by
  intro ignoreCase
  cases ignoreCase with
  | false =>
    refine ⟨(·.toNat < 128), ⟨?_, ?_⟩, h⟩
    · intro c hc v hv
      rwa [List.mem_singleton.mp hv]
    · intro c hc s
      refine forall_ascii (P := fun c => (CharSet.variants false c).any (s.inside.contains false) =
        s.contains c) ?_ hc
      cases s <;> decide +kernel
  | true =>
    refine ⟨FoldsToAscii, ⟨?_, ?_⟩, .inl h⟩
    · intro c hc
      rw [CharSet.variants, if_pos rfl, caseVariants_eq hc]
      rcases hc with hc | rfl | rfl
      · exact List.all_iff_forall_prop.mp (forall_ascii (P := fun c =>
          (variantsByAscii c).all fun v => FoldsToAscii v) (by decide +kernel) hc)
      · exact List.all_iff_forall_prop.mp (by decide +kernel)
      · exact List.all_iff_forall_prop.mp (by decide +kernel)
    · intro c hc s
      rw [CharSet.variants, if_pos rfl, caseVariants_eq hc]
      rcases hc with hc | rfl | rfl
      · refine forall_ascii (P := fun c => (variantsByAscii c).any (s.inside.contains true) =
          s.contains c) ?_ hc
        cases s <;> decide +kernel
      · cases s with
        | word => rw [Shorthand.contains, Unicode.isWord_longS]; decide +kernel
        | _ => decide +kernel
      · cases s with
        | word => rw [Shorthand.contains, Unicode.isWord_kelvin]; decide +kernel
        | _ => decide +kernel

/-! ## Search by places -/

namespace Regex

/-- Writing out shorthands keeps the references to groups. -/
theorem references_written (r : Regex) : r.written.references = r.references := by
  induction r <;> simp_all [written, references]

/-- Writing out shorthands keeps whether an expression is regular among groups that are referred to.
-/
theorem isRegularAmong_written (referred : List Nat) (r : Regex) :
    r.written.isRegularAmong referred = r.isRegularAmong referred := by
  induction r <;> simp_all [written, isRegularAmong]

/-- Writing out shorthands keeps whether an expression is regular. -/
theorem isRegular_written (r : Regex) : r.written.isRegular = r.isRegular := by
  rw [isRegular, isRegular, references_written, isRegularAmong_written]

/-- In a plain text an expression reaches what it reaches with its shorthands written out. -/
theorem reach_written (before : Option Char) {text : List Char} (h : Plain text) (r : Regex) :
    r.written.reach before text = r.reach before text := by
  induction r with
  | char ignoreCase set =>
    funext p
    -- The set is only asked about characters of the text.
    have hzip : List.zipWith (fun here c => here && set.written.contains ignoreCase c) p text =
        List.zipWith (fun here c => here && set.contains ignoreCase c) p text := by
      induction text generalizing p with
      | nil => simp
      | cons c rest ih =>
        cases p with
        | nil => rfl
        | cons here p =>
          rw [List.zipWith_cons_cons, List.zipWith_cons_cons,
            (h c (List.mem_cons_self ..)).contains_written,
            ih (fun d hd => h d (List.mem_cons_of_mem _ hd))]
    simp only [written, reach, Places.afterChar, hzip]
  | seq a b iha ihb => funext p; simp only [written, reach, iha, ihb]
  | alt a b iha ihb => funext p; simp only [written, reach, iha, ihb]
  | group n r ih => funext p; simp only [written, reach, ih]
  | repeated r least most greedy ih => funext p; simp only [written, reach, ih]
  | _ => funext p; simp only [written, reach]

end Regex

/-! ## Search by going back -/

/-- The characters around a place of the search are plain. -/
structure Progress.IsPlain (s : Progress) : Prop where
  /-- Those in front. -/
  before : Plain s.before
  /-- Those that follow. -/
  after : Plain s.after

namespace Progress

variable {s t : Progress}

/-- Going on in plain surroundings takes a plain character and stays in plain surroundings. -/
theorem IsPlain.advance {c : Char} (h : s.IsPlain) (hadvance : s.advance? = some (c, t)) :
    Pattern.IsPlain c ∧ t.IsPlain := by
  unfold advance? at hadvance
  split at hadvance
  · cases hadvance
  · next c' rest hafter =>
    cases hadvance
    have hall := h.after
    rw [hafter] at hall
    obtain ⟨hc, hrest⟩ := List.forall_mem_cons.mp hall
    exact ⟨hc, List.forall_mem_cons.mpr ⟨hc, h.before⟩, hrest⟩

/-- Going back stays in plain surroundings. -/
theorem IsPlain.goBack {n : Nat} (h : s.IsPlain) (hback : s.goBack? n = some t) : t.IsPlain := by
  induction n generalizing s with
  | zero => cases hback; exact h
  | succ n ih =>
    unfold goBack? at hback
    split at hback
    · cases hback
    · next c rest hbefore =>
      have hall := h.before
      rw [hbefore] at hall
      obtain ⟨hc, hrest⟩ := List.forall_mem_cons.mp hall
      refine ih ?_ hback
      exact ⟨hrest, List.forall_mem_cons.mpr ⟨hc, h.after⟩⟩

/-- Skipping a text stays in plain surroundings. -/
theorem IsPlain.skip {text : List Char} (h : s.IsPlain) (hskip : s.skip? text = some t) :
    t.IsPlain := by
  induction text generalizing s with
  | nil => cases hskip; exact h
  | cons c rest ih =>
    unfold skip? at hskip
    split at hskip
    · next d next hadvance =>
      split at hskip
      · exact ih (h.advance hadvance).2 hskip
      · cases hskip
    · cases hskip

end Progress

/-- Two searches are the same and end in plain surroundings. -/
def Attempt.Agree (x y : Attempt) : Prop :=
  x = y ∧ ∀ left s left', y left = some (some s, left') → s.IsPlain

/-- Two searches for what is behind agree from plain surroundings on. -/
def Behind.Agree (k' k : Behind) : Prop := ∀ s, s.IsPlain → Attempt.Agree (k' s) (k s)

namespace Attempt.Agree

variable {x x' y y' : Attempt}

/-- A search that fails agrees with itself. -/
theorem fail : Agree .fail .fail := ⟨rfl, fun _ _ _ h => by cases h⟩

/-- What has been found in plain surroundings agrees with itself. -/
theorem found {s : Progress} (h : s.IsPlain) : Agree (pure (some s)) (pure (some s)) :=
  ⟨rfl, fun _ _ _ hs => by cases hs; exact h⟩

/-- Going back agrees when the searches do. -/
theorem goBack (h : Agree x' x) : Agree (Attempt.goBack x') (Attempt.goBack x) := by
  refine ⟨congrArg Attempt.goBack h.1, fun left s left' hs => ?_⟩
  cases left with
  | zero => cases hs
  | succ left => exact h.2 left s left' hs

/-- What follows a search may depend on what it finds. -/
theorem bind {f' f : Option Progress → Attempt} (h : Agree x' x)
    (hsome : ∀ s, s.IsPlain → Agree (f' (some s)) (f (some s))) (hnone : Agree (f' none) (f none)) :
    Agree (x' >>= f') (x >>= f) := by
  obtain ⟨rfl, hplain⟩ := h
  have hrun (g : Option Progress → Attempt) (left : Nat) :
      (x' >>= g) left = (x' left).bind fun found => g found.1 found.2 := rfl
  refine ⟨?_, fun left s left' hs => ?_⟩
  · funext left
    rw [hrun, hrun]
    cases hx : x' left with
    | none => rfl
    | some found =>
      obtain ⟨_ | s, left'⟩ := found
      · exact congrFun hnone.1 left'
      · exact congrFun (hsome s (hplain left s left' hx)).1 left'
  · rw [hrun] at hs
    cases hx : x' left with
    | none =>
      rw [hx] at hs
      cases hs
    | some found =>
      rw [hx] at hs
      obtain ⟨_ | s, left''⟩ := found
      · exact hnone.2 _ _ _ hs
      · exact (hsome s (hplain left s left'' hx)).2 _ _ _ hs

/-- A second attempt behind a first one agrees when both do. -/
theorem orElse (h : Agree x' x) (h' : Agree y' y) : Agree (x'.orElse y') (x.orElse y) :=
  h.bind (fun _ hs => found hs) h'.goBack

end Attempt.Agree

/-- A body that agrees from plain surroundings on, whatever agrees behind it. -/
def BodyAgrees (body' body : Behind → Behind) : Prop :=
  ∀ k' k, Behind.Agree k' k → Behind.Agree (body' k') (body k)

/-- A body that agrees does so repeated a number of times. -/
theorem BodyAgrees.repeatExactly {body' body : Behind → Behind} (h : BodyAgrees body' body)
    (n : Nat) : BodyAgrees (repeatExactly body' n) (Pattern.repeatExactly body n) := by
  induction n with
  | zero => exact fun _ _ hk => hk
  | succ n ih => exact fun k' k hk => h _ _ (ih k' k hk)

/-- A body that agrees does so repeated up to a number of times. -/
theorem BodyAgrees.repeatUpTo {body' body : Behind → Behind} (h : BodyAgrees body' body)
    (greedy : Bool) (n : Nat) :
    BodyAgrees (repeatUpTo body' greedy n) (Pattern.repeatUpTo body greedy n) := by
  induction n with
  | zero => exact fun _ _ hk => hk
  | succ n ih =>
    intro k' k hk s hs
    have hagain := h (fun next => if next.offset = s.offset then Attempt.fail
        else Pattern.repeatUpTo body' greedy n k' next)
      (fun next => if next.offset = s.offset then Attempt.fail
        else Pattern.repeatUpTo body greedy n k next) (fun next hnext => by
          dsimp only
          split
          · exact .fail
          · exact ih k' k hk next hnext) s hs
    cases greedy with
    | true => exact hagain.orElse (hk s hs)
    | false => exact (hk s hs).orElse hagain

namespace Regex

/-- From plain surroundings on, the search for an expression is that for the expression with its
shorthands written out. -/
theorem run_written (referred : List Nat) (isLast : Bool) (r : Regex) :
    BodyAgrees (run referred isLast r.written) (run referred isLast r) := by
  have hfound : Behind.Agree (fun next => pure (some next)) fun next => pure (some next) :=
    fun _ hs => .found hs
  induction r generalizing isLast with
  | empty => exact fun k' k hk => hk
  | char ignoreCase set =>
    intro k' k hk s hs
    simp only [written, run]
    cases hadvance : s.advance? with
    | none => exact .fail
    | some found =>
      obtain ⟨c, next⟩ := found
      obtain ⟨hc, hnext⟩ := hs.advance hadvance
      dsimp only
      rw [hc.contains_written]
      split
      · exact hk next hnext
      · exact .fail
  | anchor a =>
    intro k' k hk s hs
    simp only [written, run]
    split
    · exact hk s hs
    · exact .fail
  | seq a b iha ihb =>
    intro k' k hk s hs
    simp only [written, run, isRegularAmong_written]
    split
    · -- The last part is only asked whether it matches, place by place.
      refine iha false _ _ (fun next hnext => ?_) s hs
      rw [reach_written _ hnext.after]
      split
      · exact hk next hnext
      · exact .fail
    · exact iha false _ _ (ihb isLast k' k hk) s hs
  | alt a b iha ihb =>
    intro k' k hk s hs
    simp only [written, run]
    exact (iha isLast k' k hk s hs).orElse (ihb isLast k' k hk s hs)
  | group n r ih =>
    intro k' k hk s hs
    simp only [written, run]
    exact ih false _ _ (fun next hnext => hk (next.capture n s) ⟨hnext.before, hnext.after⟩) s hs
  | repeated r least most greedy ih =>
    intro k' k hk s hs
    simp only [written, run, isRegularAmong_written]
    -- Either the whole repetition is searched place by place, or round by round.
    have hwhole := reach_written s.before.head? hs.after (repeated r least most greedy)
    rw [written] at hwhole
    rw [hwhole]
    split
    · split
      · exact hk s hs
      · exact .fail
    · exact (ih false).repeatExactly least _ _
        (fun next hnext => (ih false).repeatUpTo greedy _ k' k hk next hnext) s hs
  | atomic r ih =>
    intro k' k hk s hs
    simp only [written, run]
    exact (ih false _ _ hfound s hs).bind (fun next hnext => hk next hnext) .fail
  | ahead r negated ih =>
    intro k' k hk s hs
    cases negated with
    | false =>
      -- Behind the look the search goes on from where the look started.
      simp only [written, run]
      exact ih true _ _ (fun next _ => hk (next.backTo s) ⟨hs.before, hs.after⟩) s hs
    | true =>
      simp only [written, run]
      exact (ih true _ _ hfound s hs).bind (fun _ _ => .fail) (hk s hs).goBack
  | behind width r negated ih =>
    intro k' k hk s hs
    simp only [written, run]
    cases hback : s.goBack? width with
    | none =>
      cases negated with
      | false => exact .fail
      | true => exact (hk s hs).goBack
    | some earlier =>
      have hearlier := hs.goBack hback
      cases negated with
      | false =>
        exact ih true _ _ (fun next _ => hk (next.backTo s) ⟨hs.before, hs.after⟩) earlier hearlier
      | true =>
        exact (ih true _ _ hfound earlier hearlier).bind (fun _ _ => .fail) (hk s hs).goBack
  | reference n =>
    intro k' k hk s hs
    simp only [written, run]
    cases s.captures.lookup n with
    | none => exact .fail
    | some text =>
      cases hskip : s.skip? text with
      | none =>
        simp only [hskip]
        exact .fail
      | some next =>
        simp only [hskip]
        exact hk next (hs.skip hskip)

/-- Searching a plain text from one place after the other. -/
theorem runFrom_written (referred : List Nat) (r : Regex) (places : Nat) :
    Behind.Agree (runFrom r.written referred places) (runFrom r referred places) := by
  induction places with
  | zero => exact fun _ _ => .fail
  | succ n ih =>
    intro s hs
    simp only [runFrom]
    refine .orElse (run_written referred true r _ _ (fun _ hs => .found hs) s hs) ?_
    cases hadvance : s.advance? with
    | none => exact .fail
    | some found => exact ih found.2 (hs.advance hadvance).2

/-- In a plain text an expression is found, is not found, or makes the search break off, as it does
with its shorthands written out. -/
theorem search?_written (r : Regex) {text : String} (h : Plain text.toList) :
    r.written.search? text = r.search? text := by
  have hstart : (Progress.start text.toList).IsPlain := ⟨fun _ hc => (List.not_mem_nil hc).elim, h⟩
  unfold search?
  dsimp only
  rw [isRegular_written, references_written, reach_written none h,
    (runFrom_written r.references r _ _ hstart).1]

end Regex

end LinkedSchema.Pattern
