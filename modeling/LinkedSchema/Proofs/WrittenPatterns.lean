import LinkedSchema.Proofs.WrittenSigns

/-!
# Patterns written out

A pattern without comments is read, with its shorthands written out, as the expression of the
pattern with its shorthands written out (`Regex.parse_writeOut`). Every part of a pattern is carried
over in this way (`PartsCarry`), by induction on the levels of recursion that its reading takes;
what is carried over is put together by the rules of `CarriesAt`.
-/

namespace LinkedSchema.Pattern

open Draft7 (writeOut shorthandBrackets)

variable {c : Char} {rest text : List Char}

/-! ## Parts of patterns -/

/-- A position of the reading, with what is left written out. -/
def Position.written (p : Position) : Position := { p with rest := writeOut p.rest }

/-- What is read from a position on, where there are no comments, is read in the text written out,
with `w` of its result. -/
def CarriesAt {α β : Type} (p : Position) (w : α → β) (x : Parser α) (x' : Parser β) : Prop :=
  '#' ∉ p.rest → ∀ a q, x.run p = .ok (a, q) →
    Reads p.rest q.rest (x'.run p.written = .ok (w a, q.written))

/-- What is read is read in the text written out, from every position on. -/
def Carries {α β : Type} (w : α → β) (x : Parser α) (x' : Parser β) : Prop :=
  ∀ p, CarriesAt p w x x'

/-- Reading by a function, from a position on. -/
theorem run_readBy {α : Type} (read : List Char → Except Fault (α × List Char)) (p : Position) :
    (Parser.readBy read).run p = (do
      let found ← read p.rest
      pure (found.1, { p with rest := found.2 })) := by
  change (StateT.lift (read p.rest) >>= fun found => Parser.setRest found.2 >>= fun _ =>
    pure found.1).run p = _
  generalize read p.rest = found
  cases found <;> rfl

namespace CarriesAt

variable {α β γ δ : Type} {p : Position} {w : α → β} {w' : γ → δ} {x : Parser α} {x' x'' : Parser β}

/-- A value for which nothing is read. -/
protected theorem pure (a : α) : CarriesAt p w (pure a) (pure (w a)) := by
  intro _ b q h
  cases h
  exact .nothing fun _ => rfl

/-- A parser that fails reads nothing that would have to be read elsewhere. -/
theorem fail {fault : Fault} : CarriesAt p w (Parser.fail fault) x' := fun _ _ _ h => by cases h

/-- The other parser may be taken for one that does the same at this position. -/
theorem congr (h : CarriesAt p w x x'')
    (heq : Legible p.rest → x'.run p.written = x''.run p.written) : CarriesAt p w x x' := by
  intro hash a q hx
  have hreads := h hash a q hx
  exact .of_legible hreads.legibleTo fun htext => (heq htext).trans (hreads.apply htext)

/-- One part behind the other. -/
protected theorem bind {f : α → Parser γ} {f' : β → Parser δ} (h : CarriesAt p w x x')
    (hf : ∀ a q, x.run p = .ok (a, q) → CarriesAt q w' (f a) (f' (w a))) :
    CarriesAt p w' (x >>= f) (x' >>= f') := by
  intro hash c r hrun
  rw [StateT.run_bind] at hrun
  obtain ⟨⟨a, q⟩, hx, hfa⟩ := bind_eq_ok.mp hrun
  have hfirst := h hash a q hx
  have hsecond := hf a q hx (fun hmem => hash (hfirst.legibleTo.mem hmem)) c r hfa
  refine .of_legible (hfirst.legibleTo.trans hsecond.legibleTo) fun htext => ?_
  rw [StateT.run_bind]
  exact bind_eq_ok.mpr ⟨_, hfirst.apply htext, hsecond.apply (hfirst.legibleTo.behind htext)⟩

/-- A look at the position. -/
protected theorem get {f : Position → Parser α} {f' : Position → Parser β}
    (h : CarriesAt p w (f p) (f' p.written)) : CarriesAt p w (get >>= f) (get >>= f') := h

/-- A look at what is left. -/
protected theorem rest {f : List Char → Parser α} {f' : List Char → Parser β}
    (h : CarriesAt p w (f p.rest) (f' (writeOut p.rest))) :
    CarriesAt p w (Parser.rest >>= f) (Parser.rest >>= f') := h

/-- Going on behind a legible part. -/
theorem setRest {f : Unit → Parser α} {f' : Unit → Parser β} {text : List Char}
    (hto : LegibleTo text p.rest) (h : CarriesAt { p with rest := text } w (f ()) (f' ())) :
    CarriesAt p w (Parser.setRest text >>= f) (Parser.setRest (writeOut text) >>= f') := by
  intro hash a q hrun
  have hreads := h (fun hmem => hash (hto.mem hmem)) a q hrun
  exact .of_legible (hto.trans hreads.legibleTo) fun htext => hreads.apply (hto.behind htext)

/-- Moving behind a legible part. -/
theorem moveTo {text : List Char} (hto : LegibleTo text p.rest) :
    CarriesAt p id (Parser.setRest text) (Parser.setRest (writeOut text)) := by
  intro _ a q hrun
  cases hrun
  exact ⟨hto, fun _ => rfl⟩

/-- A change of the position that does not depend on what is left. -/
theorem modify {g : Position → Position} {f : Unit → Parser α} {f' : Unit → Parser β}
    (hrest : (g p).rest = p.rest) (hwritten : g p.written = (g p).written)
    (h : CarriesAt (g p) w (f ()) (f' ())) : CarriesAt p w (modify g >>= f) (modify g >>= f') := by
  intro hash a q hrun
  obtain ⟨hto, hcarried⟩ := h (hrest ▸ hash) a q hrun
  refine ⟨hrest ▸ hto, fun hq => ?_⟩
  have hread := hcarried hq
  rw [← hwritten] at hread
  exact hread

/-- Reading by a function on texts. -/
theorem readBy {read : List Char → Except Fault (α × List Char)}
    {read' : List Char → Except Fault (β × List Char)}
    (h : ∀ a rest, read p.rest = .ok (a, rest) →
      Reads p.rest rest (read' (writeOut p.rest) = .ok (w a, writeOut rest))) :
    CarriesAt p w (Parser.readBy read) (Parser.readBy read') := by
  intro _ a q hrun
  rw [run_readBy] at hrun
  obtain ⟨⟨b, rest⟩, hread, hpure⟩ := bind_eq_ok.mp hrun
  cases hpure
  obtain ⟨hto, hcarried⟩ := h b rest hread
  refine ⟨hto, fun hrest => ?_⟩
  rw [run_readBy]
  exact bind_eq_ok.mpr ⟨_, hcarried hrest, rfl⟩

end CarriesAt

/-- What counts for nothing. -/
theorem idle_carries : Carries id (idle .full) (idle .full) := by
  intro p hash a q hrun
  have hidle (p : Position) (hash : '#' ∉ p.rest) : (idle .full).run p =
      .ok ((), { p with rest := p.rest.dropWhile (isIdle p.flags.spaced) }) := by
    change (StateT.lift (skipIdle .full p.flags.spaced (p.rest.length + 1) p.rest) >>=
      Parser.setRest).run p = _
    rw [skipIdle_eq hash (Nat.lt_succ_self _)]
    rfl
  rw [hidle p hash] at hrun
  cases hrun
  have hbackslash : isIdle p.flags.spaced '\\' = false := by cases p.flags.spaced <;> rfl
  have hbracket : isIdle p.flags.spaced '[' = false := by cases p.flags.spaced <;> rfl
  have hto : LegibleTo (p.rest.dropWhile (isIdle p.flags.spaced)) p.rest :=
    legibleTo_dropWhile fun _ => ne_backslash_of_mem_takeWhile hbackslash
  refine .of_legible hto fun htext => ?_
  obtain ⟨-, hdrop⟩ := span_writeOut_kind hbackslash hbracket (hto.behind htext)
  rw [hidle p.written (hash_not_mem_writeOut htext hash)]
  exact congrArg (fun rest => Except.ok ((), { p with rest })) hdrop

/-! ## Repetitions of atoms -/

/-- An atom with the shorthands of its expression written out. -/
def Atom.written (a : Atom) : Atom := { a with regex := a.regex.written }

/-- In this dialect there is only one repetition of an atom. -/
theorem repetitions_full (n : Nat) (atom : Atom) :
    repetitions .full (n + 1) atom = (do
      idle .full
      match ← Parser.readBy (readRepetition? .full) with
      | none => pure atom.regex
      | some (least, most) =>
        if !atom.repeatable then Parser.fail .malformed
        idle .full
        let flags := (← get).flags
        let (greedy, keeps) ← Parser.readBy (readSigns flags.reluctant)
        let r := Regex.repeated atom.regex least most greedy
        pure (if keeps then .atomic r else r)) := by
  have hlook (f : List Char → Parser Regex) (q : Position) :
      (Parser.rest >>= f) q = f q.rest q := rfl
  have hread {signs : Bool × Bool} {text : List Char} (reluctant : Bool)
      (f : Bool × Bool → Parser Regex) (q : Position)
      (h : readSigns reluctant q.rest = .ok (signs, text)) :
      (Parser.readBy (readSigns reluctant) >>= f) q = f signs { q with rest := text } := by
    have hrun := run_readBy (readSigns reluctant) q
    rw [h] at hrun
    exact congrArg (fun found => found >>= fun found => f found.1 found.2) hrun
  rw [repetitions]
  refine bind_congr fun _ => bind_congr fun counts => ?_
  cases counts with
  | none => rfl
  | some counts =>
    dsimp only
    split
    · rfl
    · refine bind_congr fun _ => bind_congr fun p => ?_
      funext q
      obtain ⟨rest, flags, groups, names, usesNumbers⟩ := q
      rw [hlook]
      -- The parser looks for a question mark and then for a plus; `readSigns` reads both at once.
      rcases rest with _ | ⟨c, tail⟩
      · rfl
      by_cases hmark : c = '?'
      · subst hmark
        rcases tail with _ | ⟨d, tail⟩
        · rfl
        by_cases hplus : d = '+'
        · subst hplus
          rfl
        · rw [hread p.flags.reluctant _ ⟨'?' :: d :: tail, flags, groups, names, usesNumbers⟩
            (readSigns_mark (by simpa using hplus))]
          simp [hplus]
          rfl
      · by_cases hplus : c = '+'
        · subst hplus
          rfl
        · rw [hread p.flags.reluctant _ ⟨c :: tail, flags, groups, names, usesNumbers⟩
            (readSigns_nothing (by simpa using hmark) (by simpa using hplus))]
          simp [hmark, hplus]
          rfl

/-- How many levels of recursion are left does not matter, so long as there is one. -/
theorem repetitions_eq {n n' : Nat} (hn : 0 < n) (hn' : 0 < n') (atom : Atom) :
    repetitions .full n atom = repetitions .full n' atom := by
  obtain ⟨n, rfl⟩ := Nat.exists_eq_add_one.mpr hn
  obtain ⟨n', rfl⟩ := Nat.exists_eq_add_one.mpr hn'
  rw [repetitions_full, repetitions_full]

/-- An atom with its repetition. -/
theorem repetitions_carries {n : Nat} (hn : 0 < n) (atom : Atom) :
    Carries Regex.written (repetitions .full n atom) (repetitions .full n atom.written) := by
  intro p
  obtain ⟨n, rfl⟩ := Nat.exists_eq_add_one.mpr hn
  rw [repetitions_full, repetitions_full]
  refine (idle_carries p).bind fun _ p _ => ?_
  have hcounts : CarriesAt p id (Parser.readBy (readRepetition? .full))
      (Parser.readBy (readRepetition? .full)) := .readBy fun _ _ => readRepetition?_reads
  refine hcounts.bind fun counts p _ => ?_
  cases counts with
  | none => exact .pure _
  | some counts =>
    by_cases hrepeatable : atom.repeatable = true
    · dsimp only [id]
      rw [hrepeatable, show atom.written.repeatable = true from hrepeatable]
      refine (idle_carries p).bind fun _ p _ => .get ?_
      have hsigns : CarriesAt p id (Parser.readBy (readSigns p.flags.reluctant))
          (Parser.readBy (readSigns p.flags.reluctant)) := .readBy fun _ _ => readSigns_reads
      refine hsigns.bind fun signs p _ => ?_
      obtain ⟨greedy, keeps⟩ := signs
      cases keeps <;> exact .pure _
    · dsimp only [id]
      rw [Bool.not_eq_true] at hrepeatable
      rw [hrepeatable]
      exact .fail

/-! ## Expressions -/

namespace Regex

/-- Only the empty expression is empty when written out. -/
theorem written_eq_empty_iff (r : Regex) : r.written = empty ↔ r = empty := by
  cases r <;> simp [written]

/-- A sequence is written out part by part. -/
theorem written_sequence (pieces : List Regex) :
    (sequence pieces).written = sequence (pieces.map written) := by
  induction pieces with
  | nil => rfl
  | cons r rest ih =>
    cases rest with
    | nil => rfl
    | cons r' rest => exact congrArg (seq r.written) ih

/-- Alternatives are written out one by one. -/
theorem written_alternatives (first : Regex) (others : List Regex) :
    (alternatives first others).written = alternatives first.written (others.map written) := by
  induction others generalizing first with
  | nil => rfl
  | cons r rest ih => exact congrArg (alt first.written) (ih r)

/-- Writing out shorthands keeps the width of an expression. -/
theorem width?_written (r : Regex) : r.written.width? = r.width? := by
  induction r <;> simp_all [written, width?]

/-- A look behind an expression that is no choice. -/
theorem lookBehind?_eq_map (negated : Bool) {r : Regex} (hr : ∀ a b, r ≠ alt a b) :
    lookBehind? negated r = r.width?.map fun width => behind width r negated := by
  rw [lookBehind?]
  · cases r.width? <;> rfl
  · exact hr

/-- A look behind is built from what is written out as it is from the expression. -/
theorem lookBehind?_written (negated : Bool) (r : Regex) :
    lookBehind? negated r.written = (lookBehind? negated r).map written := by
  induction r with
  | alt a b iha ihb =>
    -- A choice is looked at alternative by alternative.
    simp only [written, lookBehind?, iha, ihb]
    cases lookBehind? negated a with
    | none => rfl
    | some a' =>
      cases lookBehind? negated b with
      | none => rfl
      | some b' => cases negated <;> rfl
  | _ =>
    -- No other expression is a choice, written out or not.
    rw [lookBehind?_eq_map negated (by simp [written]), lookBehind?_eq_map negated (by simp),
      width?_written, Option.map_map]
    rfl

end Regex

/-! ## Atoms -/

/-- The number of a named group does not depend on what is left. -/
theorem groupNamed_carries (name : String) : Carries id (groupNamed name) (groupNamed name) := by
  intro p
  refine .get ?_
  rw [show p.written.names = p.names from rfl]
  cases p.names.lookup name with
  | some n => exact .pure _
  | none =>
    dsimp only
    cases natural? name with
    | some n => exact .pure _
    | none => exact .fail

/-- The atom of an escape that stands for no set with shorthands. -/
theorem escapeAtom_carries {e : Escape} (h : ∀ set, e = .set set → set.written = set) :
    Carries Atom.written (escapeAtom .full e) (escapeAtom .full e) := by
  intro p
  refine .get ?_
  cases e with
  | char c cased => exact .pure _
  | set s =>
    have hs : Atom.written ⟨.char p.flags.ignoreCase s, true⟩ =
        ⟨.char p.flags.ignoreCase s, true⟩ := by
      rw [Atom.written, Regex.written, h s rfl]
    have hpure : CarriesAt p Atom.written (pure ⟨.char p.flags.ignoreCase s, true⟩) _ := .pure _
    rw [hs] at hpure
    exact hpure
  | anchor a => exact .pure _
  | reference n => exact .modify rfl rfl (.pure _)
  | named name => exact (groupNamed_carries name p).bind fun _ _ _ => .pure _
  | nearEnd => exact .pure _
  | nothing => exact .pure _

/-- The closing parenthesis of a group. -/
theorem closeGroup_carries : Carries id (closeGroup .full) (closeGroup .full) := by
  intro p
  refine (idle_carries p).bind fun _ p _ => .rest ?_
  by_cases hclose : p.rest.head? = some ')'
  · obtain ⟨tail, hp⟩ := List.head?_eq_some_iff.mp hclose
    have hto : LegibleTo tail p.rest := by
      rw [hp]
      exact .plain (by decide) (.refl _)
    rw [hp, writeOut_cons (by decide)]
    exact .moveTo hto
  · split
    · next heq =>
      rw [heq] at hclose
      exact (hclose rfl).elim
    · exact .fail

/-- The brackets that a shorthand is written out as, behind the first one. -/
theorem readCharSet_shorthand (s : Shorthand) (negated : Bool) (text : List Char) :
    readCharSet .full ((shorthandBrackets s negated).tail ++ text) =
      .ok (.bracket s.inside negated, text) := by
  have hbalanced : afterBrackets ((shorthandBrackets s negated).tail ++ text) = some text := by
    cases s <;> cases negated <;> rfl
  rw [readCharSet, readBracket_shorthand, hbalanced]
  · exact if_pos rfl
  · simp only [List.length_append, List.length_tail]
    omega

/-- The characters that do not stand for themselves. -/
def atomSigns : List Char := ['.', '^', '$', '(', '[', '\\', '?', '*', '+', '\x7b']

/-- A character that stands for itself. -/
theorem run_parseAtom_plain {fuel depth : Nat} {p : Position} (hp : p.rest = c :: text)
    (hc : c ∉ atomSigns) : (parseAtom .full (fuel + 1) depth).run p =
      .ok (⟨.char p.flags.ignoreCase (.literal c), true⟩, { p with rest := text }) := by
  obtain ⟨rest, flags, groups, names, usesNumbers⟩ := p
  cases hp
  have hne : ∀ d ∈ atomSigns, c ≠ d := fun d hd he => hc (he ▸ hd)
  simp only [atomSigns, List.mem_cons, List.not_mem_nil, or_false, forall_eq_or_imp,
    forall_eq] at hne
  simp [parseAtom, Parser.rest, Parser.setRest, hne]
  rfl

/-- The set of the dot has no shorthands. -/
theorem written_dotSet (flags : Flags) : (dotSet flags).written = dotSet flags := by
  unfold dotSet
  split <;> rfl

section Escapes

variable {fuel fuel' depth : Nat} {p : Position}

/-- An escape as an atom. -/
theorem run_parseAtom_escape (hp : p.rest = '\\' :: text) :
    (parseAtom .full (fuel + 1) depth).run p = (do
      let found ← readEscape .full false text
      (escapeAtom .full found.1).run { p with rest := found.2 }) := by
  obtain ⟨rest, flags, groups, names, usesNumbers⟩ := p
  cases hp
  rw [parseAtom]
  change (Parser.readBy (readEscape .full false) >>= escapeAtom .full).run
    ⟨text, flags, groups, names, usesNumbers⟩ = _
  rw [StateT.run_bind, run_readBy, bind_assoc]
  rfl

/-- A bracket expression as an atom. -/
theorem run_parseAtom_bracket (hp : p.rest = '[' :: text) :
    (parseAtom .full (fuel + 1) depth).run p = (do
      let found ← readCharSet .full text
      pure (⟨.char p.flags.ignoreCase found.1, true⟩, { p with rest := found.2 })) := by
  obtain ⟨rest, flags, groups, names, usesNumbers⟩ := p
  cases hp
  rw [parseAtom]
  change (Parser.readBy (readCharSet .full) >>= fun set =>
    pure (Atom.mk (.char flags.ignoreCase set) true)).run
      ⟨text, flags, groups, names, usesNumbers⟩ = _
  rw [StateT.run_bind, run_readBy, bind_assoc]
  rfl

/-- An escape stands for the same atom; one that is a shorthand is written out as brackets. -/
theorem atom_escape (hp : p.rest = '\\' :: text) :
    CarriesAt p Atom.written (parseAtom .full (fuel + 1) depth)
      (parseAtom .full (fuel' + 1) depth) := by
  intro hash a q hrun
  rw [run_parseAtom_escape hp] at hrun
  obtain ⟨⟨e, rest⟩, he, hatom⟩ := bind_eq_ok.mp hrun
  cases text with
  | nil => cases he
  | cons c text =>
    cases hs : shorthand? c with
    | none =>
      obtain ⟨hc, hreads⟩ := readEscape_reads hs he
      have hset (set : CharSet) (hset : e = .set set) : set.written = set :=
        written_of_readEscape hs (hset ▸ he)
      have hto : LegibleTo rest p.rest := by
        rw [hp]
        exact .escape hc hreads.legibleTo
      have hcarries :=
        escapeAtom_carries hset { p with rest } (fun hmem => hash (hto.mem hmem)) a q hatom
      refine .of_legible (hto.trans hcarries.legibleTo) fun htext => ?_
      have hrest : Legible rest := hto.behind htext
      have hwritten : p.written.rest = '\\' :: c :: writeOut text := by
        rw [Position.written, hp, writeOut_escape hc hs]
      rw [run_parseAtom_escape hwritten]
      exact bind_eq_ok.mpr ⟨_, hreads.carried hrest, hcarries.apply hrest⟩
    | some found =>
      obtain ⟨s, negated⟩ := found
      rw [readEscape_shorthand hs] at he
      cases he
      cases hatom
      have hc : c ≠ 'c' := by
        rintro rfl
        cases hs
      rw [hp]
      refine ⟨.escape hc (.refl _), fun _ => ?_⟩
      have hwritten : p.written.rest =
          '[' :: ((shorthandBrackets s negated).tail ++ writeOut rest) := by
        rw [Position.written, hp, writeOut_shorthand hs]
        rfl
      rw [run_parseAtom_bracket hwritten, readCharSet_shorthand]
      rfl

end Escapes

/-! ## Patterns -/

/-- With `n` levels of recursion every part of a pattern is read as it is, with its shorthands
written out, with at least as many levels in the text written out. -/
structure PartsCarry (n : Nat) : Prop where
  /-- Alternatives. -/
  alternatives : ∀ n', n ≤ n' → ∀ depth,
    Carries Regex.written (parseAlternatives .full n depth) (parseAlternatives .full n' depth)
  /-- The alternatives behind the first one. -/
  more : ∀ n', n ≤ n' → ∀ depth,
    Carries (List.map Regex.written) (parseMore .full n depth) (parseMore .full n' depth)
  /-- One alternative. -/
  branch : ∀ n', n ≤ n' → ∀ depth done, Carries Regex.written (parseBranch .full n depth done)
    (parseBranch .full n' depth (done.map Regex.written))
  /-- One atom. -/
  atom : ∀ n', n ≤ n' → ∀ depth,
    Carries Atom.written (parseAtom .full n depth) (parseAtom .full n' depth)
  /-- A group. -/
  group : ∀ n', n ≤ n' → ∀ depth,
    Carries Atom.written (parseGroup .full n depth) (parseGroup .full n' depth)

namespace PartsCarry

variable {n : Nat}

/-- With one more level, alternatives carry: a first one, and the others behind it. -/
theorem alternatives_succ (h : PartsCarry n) {n' : Nat} (hn : n ≤ n') (depth : Nat) :
    Carries Regex.written (parseAlternatives .full (n + 1) depth)
      (parseAlternatives .full (n' + 1) depth) := by
  intro p
  rw [parseAlternatives, parseAlternatives]
  refine (h.branch n' hn depth [] p).bind fun first p _ => ?_
  refine (h.more n' hn depth p).bind fun others p _ => ?_
  rw [List.isEmpty_map, ← Regex.written_alternatives]
  by_cases halone : others.isEmpty = true
  · rw [halone]
    refine .get ?_
    by_cases hmixed : (p.usesNumbers && !p.names.isEmpty) = true
    · rw [hmixed]
      exact .fail
    · rw [Bool.not_eq_true] at hmixed
      rw [hmixed, show (p.written.usesNumbers && !p.written.names.isEmpty) = false from hmixed]
      exact .pure _
  · rw [Bool.not_eq_true] at halone
    rw [halone]
    exact .pure _

/-- With one more level, the alternatives behind the first one carry: none, or one behind a bar and
more. -/
theorem more_succ (h : PartsCarry n) {n' : Nat} (hn : n ≤ n') (depth : Nat) :
    Carries (List.map Regex.written) (parseMore .full (n + 1) depth)
      (parseMore .full (n' + 1) depth) := by
  intro p
  rw [parseMore, parseMore]
  refine (idle_carries p).bind fun _ p _ => .rest ?_
  by_cases hbar : p.rest.head? = some '|'
  · obtain ⟨tail, hp⟩ := List.head?_eq_some_iff.mp hbar
    have hto : LegibleTo tail p.rest := by
      rw [hp]
      exact .plain (by decide) (.refl _)
    rw [hp, writeOut_cons (by decide)]
    refine .setRest hto ?_
    refine (h.branch n' hn depth [] _).bind fun branch p _ => ?_
    exact (h.more n' hn depth p).bind fun others p _ => .pure _
  · have hempty : CarriesAt p (List.map Regex.written) (pure []) (pure []) := .pure _
    split
    · next heq =>
      rw [heq] at hbar
      exact (hbar rfl).elim
    · -- Without a bar in the text there is none in what is written out.
      refine hempty.congr fun hrest => ?_
      split
      · next heq =>
        rw [← hrest.head?_writeOut (by decide) (by decide), heq] at hbar
        exact (hbar rfl).elim
      · rfl

/-- With one more level, an alternative carries: its end, or an atom with its repetition and the
rest. -/
theorem branch_succ (h : PartsCarry n) {n' : Nat} (hn : n ≤ n') (depth : Nat) (done : List Regex) :
    Carries Regex.written (parseBranch .full (n + 1) depth done)
      (parseBranch .full (n' + 1) depth (done.map Regex.written)) := by
  intro p
  rw [parseBranch, parseBranch]
  refine (idle_carries p).bind fun _ p _ => .rest ?_
  rw [← List.map_reverse, ← Regex.written_sequence]
  have hend : CarriesAt p Regex.written (pure (.sequence done.reverse))
      (pure (Regex.sequence done.reverse).written) := .pure _
  split
  · next heq =>
    rw [heq]
    exact hend
  · next tail heq =>
    rw [heq, writeOut_cons (by decide)]
    exact hend
  · next tail heq =>
    rw [heq, writeOut_cons (by decide)]
    exact hend
  · next hnil hclose hbar =>
    -- Something is left, so there is at least one level for the repetitions.
    have hleft : 0 < p.rest.length := List.length_pos_iff.mpr hnil
    have hpiece : CarriesAt p Regex.written (do
        let atom ← parseAtom .full n depth
        let piece ← repetitions .full p.rest.length atom
        parseBranch .full n depth (if piece = .empty then done else piece :: done))
        (do
          let atom ← parseAtom .full n' depth
          let piece ← repetitions .full p.rest.length atom
          parseBranch .full n' depth (if piece = .empty then done.map Regex.written
            else piece :: done.map Regex.written)) := by
      refine (h.atom n' hn depth p).bind fun atom q _ => ?_
      refine (repetitions_carries hleft atom q).bind fun piece q _ => ?_
      have hdone : (if piece.written = .empty then done.map Regex.written
          else piece.written :: done.map Regex.written) =
            (if piece = .empty then done else piece :: done).map Regex.written := by
        rw [apply_ite (List.map Regex.written), List.map_cons]
        exact if_congr piece.written_eq_empty_iff rfl rfl
      rw [hdone]
      exact h.branch n' hn depth _ q
    -- What is written out goes on in the same way, and with at least as many levels.
    refine hpiece.congr fun hrest => ?_
    have hleft' : 0 < (writeOut p.rest).length := Nat.lt_of_lt_of_le hleft hrest.length_le
    have hlevels : repetitions .full (writeOut p.rest).length = repetitions .full p.rest.length :=
      funext fun atom => repetitions_eq hleft' hleft atom
    split
    · next heq =>
      rw [heq] at hleft'
      exact absurd hleft' (Nat.lt_irrefl 0)
    · next heq =>
      have hhead : p.rest.head? = some ')' :=
        (hrest.head?_writeOut (by decide) (by decide)).mp (by rw [heq]; rfl)
      obtain ⟨tail, hp⟩ := List.head?_eq_some_iff.mp hhead
      exact (hclose tail hp).elim
    · next heq =>
      have hhead : p.rest.head? = some '|' :=
        (hrest.head?_writeOut (by decide) (by decide)).mp (by rw [heq]; rfl)
      obtain ⟨tail, hp⟩ := List.head?_eq_some_iff.mp hhead
      exact (hbar tail hp).elim
    · rw [hlevels]

/-- With one more level, an atom carries: a sign of its own, an escape, a bracket expression, a
group, or a character. -/
theorem atom_succ (h : PartsCarry n) {n' : Nat} (hn : n ≤ n') (depth : Nat) :
    Carries Atom.written (parseAtom .full (n + 1) depth) (parseAtom .full (n' + 1) depth) := by
  intro p
  cases hp : p.rest with
  | nil =>
    rw [parseAtom, parseAtom]
    refine .get (.rest ?_)
    rw [hp]
    exact .pure _
  | cons c tail =>
    by_cases hc : c ∈ atomSigns
    · by_cases hbackslash : c = '\\'
      · subst hbackslash
        exact atom_escape hp
      · have hto : LegibleTo tail p.rest := by
          rw [hp]
          exact .plain hbackslash (.refl _)
        -- Any other sign stands in the text written out as it is.
        rw [parseAtom, parseAtom]
        refine .get (.rest ?_)
        rw [hp, writeOut_cons hbackslash]
        simp only [atomSigns, List.mem_cons, List.not_mem_nil, or_false] at hc
        obtain rfl | rfl | rfl | rfl | rfl | rfl | rfl | rfl | rfl | rfl := hc
        · refine .setRest hto ?_
          have hdot : CarriesAt { p with rest := tail } Atom.written
              (pure ⟨.char false (dotSet p.flags), true⟩) _ := .pure _
          rw [Atom.written, Regex.written, written_dotSet] at hdot
          exact hdot
        · exact .setRest hto (.pure _)
        · exact .setRest hto (.pure _)
        · exact .setRest hto (h.group n' hn (depth + 1) _)
        · refine .setRest hto (.bind (.readBy fun _ _ => readCharSet_reads) fun set q _ => ?_)
          exact .pure _
        · exact (hbackslash rfl).elim
        · exact .fail
        · exact .fail
        · exact .fail
        · exact .setRest hto (.pure _)
    · intro _ a q hrun
      have hne : c ≠ '\\' := by
        rintro rfl
        exact hc (by decide)
      rw [run_parseAtom_plain hp hc] at hrun
      cases hrun
      rw [hp]
      refine ⟨.plain hne (.refl _), fun _ => ?_⟩
      have hwritten : p.written.rest = c :: writeOut tail := by
        rw [Position.written, hp, writeOut_cons hne]
      rw [run_parseAtom_plain hwritten hc]
      rfl

/-- The inside of a group and its closing parenthesis. -/
theorem inside (h : PartsCarry n) {n' : Nat} (hn : n ≤ n') (depth : Nat) {p : Position}
    {f f' : Regex → Parser Atom} (hf : ∀ r q, CarriesAt q Atom.written (f r) (f' r.written)) :
    CarriesAt p Atom.written
      (do
        let inside ← parseAlternatives .full n depth
        closeGroup .full
        f inside)
      (do
        let inside ← parseAlternatives .full n' depth
        closeGroup .full
        f' inside) := by
  refine (h.alternatives n' hn depth p).bind fun r q _ => ?_
  exact (closeGroup_carries q).bind fun _ q _ => hf r q

/-- With one more level, a group carries: its opening, its alternatives and its end. -/
theorem group_succ (h : PartsCarry n) {n' : Nat} (hn : n ≤ n') (depth : Nat) :
    Carries Atom.written (parseGroup .full (n + 1) depth) (parseGroup .full (n' + 1) depth) := by
  intro p
  rw [parseGroup, parseGroup]
  split
  · exact .fail
  · refine .get ?_
    have hopening : CarriesAt p id (Parser.readBy (readOpeningOf .full p.flags p.names))
        (Parser.readBy (readOpeningOf .full p.flags p.names)) :=
      .readBy fun _ _ => readOpeningOf_reads
    refine hopening.bind fun opening q _ => ?_
    cases opening with
    | flags flags => exact .modify rfl rfl (.pure _)
    | reference name => exact (groupNamed_carries name q).bind fun _ _ _ => .pure _
    | flagged flags =>
      refine .modify rfl rfl ?_
      refine (h.alternatives n' hn depth _).bind fun r q _ => ?_
      refine .modify rfl rfl ?_
      refine (closeGroup_carries _).bind fun _ q _ => ?_
      rw [show (r.written != .empty) = (r != .empty) from
        Bool.eq_iff_iff.mpr (by rw [bne_iff_ne, bne_iff_ne, Ne, r.written_eq_empty_iff])]
      exact .pure _
    | atomic => exact h.inside hn depth fun r q => .pure _
    | look behind negated =>
      refine h.inside hn depth fun r q => ?_
      cases behind with
      | false => exact .pure _
      | true =>
        rw [Regex.lookBehind?_written]
        cases Regex.lookBehind? negated r with
        | none => exact .fail
        | some r' => exact .pure _
    | capture name =>
      refine .modify rfl rfl ?_
      exact h.inside hn depth fun r q => .pure _

/-- Every part of a pattern is read as it is, with its shorthands written out. -/
theorem all (n : Nat) : PartsCarry n := by
  induction n with
  | zero =>
    refine ⟨fun _ _ _ p => ?_, fun _ _ _ p => ?_, fun _ _ _ _ p => ?_, fun _ _ _ p => ?_,
      fun _ _ _ p => ?_⟩
    · rw [parseAlternatives]
      exact .fail
    · rw [parseMore]
      exact .fail
    · rw [parseBranch]
      exact .fail
    · rw [parseAtom]
      exact .fail
    · rw [parseGroup]
      exact .fail
  | succ n ih =>
    have hsucc {P : Nat → Prop} (h : ∀ n', n ≤ n' → P (n' + 1)) (n' : Nat) (hn : n + 1 ≤ n') :
        P n' := by
      obtain ⟨k, rfl⟩ := Nat.exists_eq_add_one.mpr (Nat.lt_of_lt_of_le (Nat.succ_pos n) hn)
      exact h k (Nat.le_of_succ_le_succ hn)
    exact ⟨hsucc fun _ hn => ih.alternatives_succ hn, hsucc fun _ hn => ih.more_succ hn,
      hsucc fun _ hn => ih.branch_succ hn, hsucc fun _ hn => ih.atom_succ hn,
      hsucc fun _ hn => ih.group_succ hn⟩

end PartsCarry

/-- A whole pattern is read to its end, and refers to groups that it has. -/
theorem run_parsePattern (text : List Char) (p : Position) :
    (parsePattern .full text).run p = (do
      let found ← (parseAlternatives .full (5 * text.length + 5) 0).run p
      if found.2.rest = [] ∧ ∀ n ∈ found.1.references, 0 < n ∧ n ≤ found.2.groups then pure found
        else malformed) := by
  unfold parsePattern
  rw [StateT.run_bind]
  refine bind_congr fun found => ?_
  obtain ⟨r, q⟩ := found
  have hany : (r.references.any fun n => n = 0 || q.groups < n) = true ↔
      ¬∀ n ∈ r.references, 0 < n ∧ n ≤ q.groups := by
    rw [List.any_eq_true]
    simp only [Bool.or_eq_true, decide_eq_true_eq, not_forall]
    refine exists_congr fun n => ⟨?_, ?_⟩
    · rintro ⟨hn, h⟩
      exact ⟨hn, by omega⟩
    · rintro ⟨hn, h⟩
      exact ⟨hn, by omega⟩
  obtain ⟨rest, flags, groups, names, usesNumbers⟩ := q
  cases rest with
  | cons c rest =>
    rw [if_neg fun h => List.cons_ne_nil _ _ h.1]
    rfl
  | nil =>
    change (if (r.references.any fun n => n = 0 || groups < n) then
      Parser.fail .malformed >>= fun _ => pure r else pure r : Parser Regex).run _ = _
    by_cases hgroups : ∀ n ∈ r.references, 0 < n ∧ n ≤ groups
    · rw [if_neg fun h => hany.mp h hgroups, if_pos ⟨rfl, hgroups⟩]
      rfl
    · rw [if_pos (hany.mpr hgroups), if_neg fun h => hgroups h.2]
      rfl

/-- A pattern without comments is read, with its shorthands written out, as its expression with the
shorthands written out. -/
theorem Regex.parse_writeOut {pattern : String} {r : Regex} (hash : '#' ∉ pattern.toList)
    (h : Regex.parse .full pattern = .ok r) :
    Regex.parse .full (String.ofList (writeOut pattern.toList)) = .ok r.written := by
  unfold Regex.parse at h ⊢
  rw [String.toList_ofList]
  cases hrun : (parsePattern .full pattern.toList).run ⟨pattern.toList, {}, 0, [], false⟩ with
  | error e =>
    rw [hrun] at h
    cases h
  | ok found =>
    rw [hrun] at h
    cases h
    rw [run_parsePattern] at hrun
    obtain ⟨found', halternatives, hwhole⟩ := bind_eq_ok.mp hrun
    split at hwhole
    · next hsound =>
      cases hwhole
      obtain ⟨hrest, hgroups⟩ := hsound
      have hcarry := (PartsCarry.all (5 * pattern.toList.length + 5)).alternatives
      have hreads := fun n hn => hcarry n hn 0 ⟨pattern.toList, {}, 0, [], false⟩ hash found.1
        found.2 halternatives
      -- Nothing is left, so all of the pattern is legible.
      have hto := (hreads _ (Nat.le_refl _)).legibleTo
      rw [hrest] at hto
      have hlegible : Legible pattern.toList := hto.legible .nil
      -- The text written out is no shorter, so its reading has no fewer levels.
      have hlevels : 5 * pattern.toList.length + 5 ≤ 5 * (writeOut pattern.toList).length + 5 := by
        have hlength := hlegible.length_le
        omega
      have hread := (hreads _ hlevels).apply hlegible
      have hwritten : (parsePattern .full (writeOut pattern.toList)).run
          ⟨writeOut pattern.toList, {}, 0, [], false⟩ =
            .ok (found.1.written, found.2.written) := by
        rw [run_parsePattern]
        refine bind_eq_ok.mpr ⟨_, hread, if_pos ⟨?_, ?_⟩⟩
        · rw [Position.written, hrest]
          rfl
        · rw [references_written]
          exact hgroups
      rw [hwritten]
      rfl
    · cases hwhole

end LinkedSchema.Pattern
