import LinkedSchema.Pattern.Search

/-!
# Patterns of schemas

In a schema the classes `\d`, `\w` and `\s` stand for ASCII characters and a fixed list of blanks. A
pattern that is a regular expression is rewritten to say so before it is searched; one with
look-around or back-references is searched as it is.
-/

namespace LinkedSchema.Draft7

/-- The characters that a shorthand stands for, between brackets. -/
def shorthandText : Pattern.Shorthand → String
  | .digit => "0-9"
  | .word => "A-Za-z0-9_"
  | .space => " \t\n\r\u000b\u000c\u00a0\ufeff\u2003\u2029"

/-- A shorthand as a bracket expression. -/
def shorthandBrackets (s : Pattern.Shorthand) (negated : Bool) : List Char :=
  '[' :: ((if negated then ['^'] else []) ++ (shorthandText s).toList ++ [']'])

/-- A pattern with all shorthands written out, and letters behind `\c` as control characters. -/
def writeOut : List Char → List Char
  | [] => []
  | '\\' :: 'c' :: letter :: rest => Pattern.controlOfLetter letter :: writeOut rest
  | '\\' :: c :: rest =>
    match Pattern.shorthand? c with
    | some (s, negated) => shorthandBrackets s negated ++ writeOut rest
    | none => '\\' :: c :: writeOut rest
  | c :: rest => c :: writeOut rest

/-- The pattern that is searched in place of a pattern of a schema, if that one is well formed. -/
def preparePattern (pattern : String) : Option String :=
  match Pattern.Regex.parse .regular pattern with
  | .ok _ => some (String.ofList (writeOut pattern.toList))
  | .error .irregular => some pattern
  | .error .malformed => none

/-- The expression of a pattern of a schema, if it is well formed. -/
def compilePattern? (pattern : String) : Option Pattern.Regex :=
  (preparePattern pattern).bind Pattern.compile?

end LinkedSchema.Draft7
