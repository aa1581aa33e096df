import LinkedSchema.Pattern.Reach

/-!
# Search by going back

Look-around, atomic groups and back-references are searched by trying one way after the other. The
ways to match an expression are tried in order, each together with what has to match behind it; when
a way fails, the search goes back to the last choice and takes the next way. Going back is counted,
and the search gives up when it has done so too often.

A regular expression at the end of what is searched needs no choices and is searched by places.
-/

namespace LinkedSchema.Pattern

/-- How far a search has come. -/
structure Progress where
  /-- The characters in front, the last one first. -/
  before : List Char
  /-- The characters that follow. -/
  after : List Char
  /-- How many characters there are in front. -/
  offset : Nat
  /-- The texts of the groups that have matched, the latest first. -/
  captures : List (Nat × List Char)
deriving DecidableEq, Repr

namespace Progress

/-- The search of a text before it has begun. -/
def start (text : List Char) : Progress := ⟨[], text, 0, []⟩

/-- One character further, if there is one. -/
def advance? (s : Progress) : Option (Char × Progress) :=
  match s.after with
  | [] => none
  | c :: rest => some (c, { s with before := c :: s.before, after := rest, offset := s.offset + 1 })

/-- So many characters back, if there are as many. -/
def goBack? (s : Progress) : Nat → Option Progress
  | 0 => some s
  | n + 1 =>
    match s.before with
    | [] => none
    | c :: rest =>
      goBack? { s with before := rest, after := c :: s.after, offset := s.offset - 1 } n

/-- Past a given text, if it follows. -/
def skip? (s : Progress) : List Char → Option Progress
  | [] => some s
  | c :: rest =>
    match s.advance? with
    | some (d, next) => if c = d then skip? next rest else none
    | none => none

/-- With the text since an earlier place as the text of a group. -/
def capture (s : Progress) (number : Nat) (since : Progress) : Progress :=
  { s with captures := (number, since.after.take (s.offset - since.offset)) :: s.captures }

/-- With the place of an earlier progress. -/
def backTo (s : Progress) (earlier : Progress) : Progress :=
  { earlier with captures := s.captures }

end Progress

/-- A search that may still go back a number of times. It ends with the progress of a match, or
without a match; it breaks off when it would have to go back once more. -/
abbrev Attempt := StateT Nat Option (Option Progress)

namespace Attempt

/-- No match. -/
def fail : Attempt := pure none

/-- Goes back once. -/
def goBack (next : Attempt) : Attempt := fun left =>
  match left with
  | 0 => none
  | left + 1 => next left

/-- The second search where the first finds no match. -/
def orElse (first second : Attempt) : Attempt := do
  match ← first with
  | some s => pure (some s)
  | none => goBack second

end Attempt

/-- What has to match behind an expression. -/
abbrev Behind := Progress → Attempt

/-- A body so many times. -/
def repeatExactly (body : Behind → Behind) : Nat → Behind → Behind
  | 0, k => k
  | n + 1, k => body (repeatExactly body n k)

/-- A body at most so many times; a round that matches nothing fails. -/
def repeatUpTo (body : Behind → Behind) (greedy : Bool) : Nat → Behind → Behind
  | 0, k, s => k s
  | n + 1, k, s =>
    let again := body (fun next =>
      if next.offset = s.offset then Attempt.fail else repeatUpTo body greedy n k next) s
    if greedy then again.orElse (k s) else (k s).orElse again

namespace Regex

/-- Searches for an expression and what has to match behind it. `isLast` says that what is behind
does not depend on the place where the match ends; `referred` are the groups that are referred
to. -/
def run (referred : List Nat) : (isLast : Bool) → Regex → Behind → Behind
  | _, empty, k, s => k s
  | _, char ignoreCase set, k, s =>
    match s.advance? with
    | some (c, next) => if set.contains ignoreCase c then k next else Attempt.fail
    | none => Attempt.fail
  | _, anchor a, k, s =>
    if a.holds s.before.head? s.after.head? then k s else Attempt.fail
  -- What is last and regular is only asked whether it matches, without trying its ways one by one.
  | isLast, seq a b, k, s =>
    if isLast && b.isRegularAmong referred then
      run referred false a (fun next =>
        if (b.reach next.before.head? next.after (Places.first next.after)).isInhabited then k next
        else Attempt.fail) s
    else run referred false a (run referred isLast b k) s
  | isLast, alt a b, k, s => (run referred isLast a k s).orElse (run referred isLast b k s)
  | _, group n r, k, s => run referred false r (fun next => k (next.capture n s)) s
  | isLast, repeated r least most greedy, k, s =>
    if isLast && r.isRegularAmong referred then
      let whole := repeated r least most greedy
      if (whole.reach s.before.head? s.after (Places.first s.after)).isInhabited then k s
      else Attempt.fail
    else
      -- The rounds that must be come first; of the others no more can match than characters are left.
      let body := run referred false r
      repeatExactly body least (fun next =>
        let room := next.after.length + 1
        let more := match most with
          | some most => min (most - least) room
          | none => room
        repeatUpTo body greedy more k next) s
  -- The first way to match is kept, and none of the others is tried.
  | _, atomic r, k, s => do
    match ← run referred false r (fun next => pure (some next)) s with
    | some next => k next
    | none => Attempt.fail
  | _, ahead r false, k, s => run referred true r (fun next => k (next.backTo s)) s
  | _, ahead r true, k, s => do
    match ← run referred true r (fun next => pure (some next)) s with
    | some _ => Attempt.fail
    | none => Attempt.goBack (k s)
  -- The expression has one width, so it can only start that many characters earlier.
  | _, behind width r negated, k, s =>
    match s.goBack? width with
    | none => if negated then Attempt.goBack (k s) else Attempt.fail
    | some earlier =>
      if negated then do
        match ← run referred true r (fun next => pure (some next)) earlier with
        | some _ => Attempt.fail
        | none => Attempt.goBack (k s)
      else run referred true r (fun next => k (next.backTo s)) earlier
  | _, reference n, k, s =>
    match s.captures.lookup n with
    | some text =>
      match s.skip? text with
      | some next => k next
      | none => Attempt.fail
    | none => Attempt.fail

/-- Searches from one place after the other. -/
def runFrom (r : Regex) (referred : List Nat) : (places : Nat) → Behind
  | 0, _ => Attempt.fail
  | n + 1, s =>
    (run referred true r (fun next => pure (some next)) s).orElse
      (match s.advance? with
        | some (_, next) => runFrom r referred n next
        | none => Attempt.fail)

/-- How often a search may go back. -/
def maxReturns : Nat := 1000000

/-- Whether an expression matches somewhere in a text; nothing when the search breaks off. -/
def search? (r : Regex) (text : String) : Option Bool :=
  let chars := text.toList
  if r.isRegular then some (r.reach none chars (Places.all chars)).isInhabited
  else
    (runFrom r r.references (chars.length + 1) (.start chars) maxReturns).map (·.1.isSome)

end Regex

end LinkedSchema.Pattern
