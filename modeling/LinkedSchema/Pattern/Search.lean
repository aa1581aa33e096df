import LinkedSchema.Pattern.Backtrack
import LinkedSchema.Pattern.Parser

/-!
# Searching a text for a pattern

`Pattern.search?` reads a pattern and looks for a match anywhere in a text.
-/

namespace LinkedSchema.Pattern

/-- The expression of a pattern, if it is well formed. -/
def compile? (pattern : String) : Option Regex := (Regex.parse .full pattern).toOption

/-- Whether a pattern matches somewhere in a text; nothing when the pattern is malformed or the
search breaks off. -/
def search? (pattern text : String) : Option Bool := do
  let r ← compile? pattern
  r.search? text

end LinkedSchema.Pattern
