import LinkedSchema.Pattern.Regex

/-!
# Search without going back

A regular expression that needs no look-around and no back-references is searched by sets of
places: `Regex.reach` gives the places at which a match can end that starts at one of some places.
All ways to match are followed together, so that the time is bounded by the sizes of the expression
and the text.

Repetition needs no more rounds than there are places: a longer chain of matches stands still
somewhere, and a round in which it does can be left out or put in.
-/

namespace LinkedSchema.Pattern

/-- A set of places in a text: for each place, from the one in front of the first character to the
one behind the last, whether it belongs to the set. -/
abbrev Places := List Bool

namespace Places

/-- All places of a text. -/
def all (text : List Char) : Places := List.replicate (text.length + 1) true

/-- The place in front of the first character. -/
def first (text : List Char) : Places := true :: List.replicate text.length false

/-- Whether a set has a place. -/
def isInhabited (p : Places) : Bool := p.any id

/-- The places of two sets. -/
def union (p q : Places) : Places := List.zipWith (· || ·) p q

/-- The places of a set that are not in another one. -/
def without (p q : Places) : Places := List.zipWith (fun a b => a && !b) p q

/-- The places behind a character of a set that stands at one of some places. -/
def afterChar (accepts : Char → Bool) (text : List Char) (p : Places) : Places :=
  false :: List.zipWith (fun here c => here && accepts c) p text

/-- The places at which a condition holds; `before` is the character in front of the text. -/
def whereHolds (a : Anchor) : (before : Option Char) → (text : List Char) → Places → Places
  | _, _, [] => []
  | before, [], here :: _ => [here && a.holds before none]
  | before, c :: text, here :: rest =>
    (here && a.holds before (some c)) :: whereHolds a (some c) text rest

/-- So many rounds of a step. -/
def iterate (step : Places → Places) : Nat → Places → Places
  | 0, p => p
  | n + 1, p => iterate step n (step p)

/-- The places that at most so many rounds of a step lead to; `fresh` are those of the places seen
from which the next round starts. -/
def spread (step : Places → Places) : (rounds : Nat) → (seen fresh : Places) → Places
  | 0, seen, _ => seen
  | n + 1, seen, fresh =>
    let fresh := (step fresh).without seen
    if fresh.isInhabited then spread step n (seen.union fresh) fresh else seen

end Places

namespace Regex

/-- The places at which a match can end that starts at one of some places in a text; `before` is the
character in front of the text. What needs to go back matches nowhere. -/
def reach (before : Option Char) (text : List Char) : Regex → Places → Places
  | empty, p => p
  | char ignoreCase set, p => p.afterChar (set.contains ignoreCase) text
  | anchor a, p => p.whereHolds a before text
  | seq a b, p => reach before text b (reach before text a p)
  | alt a b, p => (reach before text a p).union (reach before text b p)
  | group _ r, p => reach before text r p
  | repeated r least most _, p =>
    let rounds := text.length + 1
    let start := Places.iterate (reach before text r) (min least rounds) p
    let more := match most with
      | some most => min (most - least) rounds
      | none => rounds
    Places.spread (reach before text r) more start start
  | atomic _, p | ahead .., p | behind .., p | reference _, p => p.map fun _ => false

end Regex

end LinkedSchema.Pattern
