import LinkedSchema.Json.Basic

/-!
# JSON as text

`Json.render` writes a value on one line without blanks, members in their order. `Json.pretty`
writes one item or member a line, indented by two blanks a level, and an empty array or object as
`[]` or `\x7b\x7d`.
-/

namespace LinkedSchema.Json

/-- A hexadecimal digit in lower case. -/
def hexDigit (n : Nat) : Char := if n < 10 then Char.ofNat (48 + n) else Char.ofNat (87 + n)

/-- A character inside quotes: quote, backslash and control characters are escaped, everything
else stands for itself. -/
def escapeChar (c : Char) : List Char :=
  if c = '"' then ['\\', '"']
  else if c = '\\' then ['\\', '\\']
  else if c = '\n' then ['\\', 'n']
  else if c = '\r' then ['\\', 'r']
  else if c = '\t' then ['\\', 't']
  else if c.toNat = 8 then ['\\', 'b']
  else if c.toNat = 12 then ['\\', 'f']
  else if c.toNat < 32 then ['\\', 'u', '0', '0', hexDigit (c.toNat / 16), hexDigit (c.toNat % 16)]
  else [c]

/-- A string in quotes. -/
def quote (s : String) : String :=
  String.ofList ('"' :: (s.toList.flatMap escapeChar ++ ['"']))

mutual

/-- The value on one line. -/
def render : Json → String
  | null => "null"
  | bool true => "true"
  | bool false => "false"
  | num n => n.render
  | str s => quote s
  | arr items => "[" ++ (String.intercalate "," (renderItems items) ++ "]")
  | obj members => "\x7b" ++ (String.intercalate "," (renderMembers members) ++ "\x7d")

/-- The items of an array, each on one line. -/
def renderItems : List Json → List String
  | [] => []
  | v :: rest => v.render :: renderItems rest

/-- The members of an object, each on one line as name, colon and value. -/
def renderMembers : Members → List String
  | [] => []
  | (k, v) :: rest => (quote k ++ (":" ++ v.render)) :: renderMembers rest

end

/-- Parts between brackets, one a line, indented one level deeper than the brackets. -/
def block (opening closing : String) (depth : Nat) (parts : List String) : String :=
  if parts.isEmpty then opening ++ closing
  else
    let line (level : Nat) := "\n" ++ String.ofList (List.replicate (2 * level) ' ')
    opening ++ String.intercalate "," (parts.map (line (depth + 1) ++ ·)) ++ line depth ++ closing

mutual

/-- The value over several lines, its first line being at the given depth. -/
def prettyAt (depth : Nat) : Json → String
  | arr items => block "[" "]" depth (prettyItems (depth + 1) items)
  | obj members => block "\x7b" "\x7d" depth (prettyMembers (depth + 1) members)
  | v => v.render

/-- The items of an array, each over several lines. -/
def prettyItems (depth : Nat) : List Json → List String
  | [] => []
  | v :: rest => v.prettyAt depth :: prettyItems depth rest

/-- The members of an object, each over several lines. -/
def prettyMembers (depth : Nat) : Members → List String
  | [] => []
  | (k, v) :: rest => (quote k ++ (": " ++ v.prettyAt depth)) :: prettyMembers depth rest

end

/-- The value over several lines. -/
def pretty (v : Json) : String := v.prettyAt 0

end LinkedSchema.Json
