import LinkedSchema.Json.Printer
import LinkedSchema.Documents.Error

/-!
# YAML values

A YAML value is a tree of scalars, sequences and mappings in which any node may carry a tag.
`Yaml.toJson` turns it into a JSON value: tags are dropped, keys become text, and what JSON has no
form for is refused. Of several faults the first in document order is reported, a key being
examined before its value.
-/

namespace LinkedSchema

/-- A number of a YAML document. -/
inductive YamlNumber where
  | int (n : Int)
  | float (x : Binary64)
  | infinity (negative : Bool)
  | nan
deriving DecidableEq, Repr

namespace YamlNumber

/-- The layout of floats among the keys of a mapping. -/
def floatStyle : FloatStyle := ⟨false⟩

/-- The text of a number as a key. -/
def render : YamlNumber → String
  | int n => toString n
  | float x => floatStyle.render x
  | infinity false => ".inf"
  | infinity true => "-.inf"
  | nan => ".nan"

/-- The number as JSON, or its name when it is not finite. -/
def toJson : YamlNumber → Except ParseFailure Json
  | int n => .ok (.num (.int n))
  | float x => .ok (.num (.float x))
  | infinity false => .error (.nonFinite "inf")
  | infinity true => .error (.nonFinite "-inf")
  | nan => .error (.nonFinite "NaN")

end YamlNumber

/-- A YAML value. -/
inductive Yaml where
  | null
  | bool (b : Bool)
  | num (n : YamlNumber)
  | str (s : String)
  | seq (items : List Yaml)
  | map (pairs : List (Yaml × Yaml))
  | tagged (tag : String) (value : Yaml)
deriving Repr, Inhabited

namespace Yaml

/-- Hexadecimal digits without leading zeros. -/
def hexText (n : Nat) : List Char := Nat.toDigits 16 n

/-- A character between quotes in the display of a value. -/
def displayChar (c : Char) : List Char :=
  if c = '"' then ['\\', '"']
  else if c = '\\' then ['\\', '\\']
  else if c = '\n' then ['\\', 'n']
  else if c = '\r' then ['\\', 'r']
  else if c = '\t' then ['\\', 't']
  else if c.toNat = 0 then ['\\', '0']
  else if c.toNat < 32 ∨ (127 ≤ c.toNat ∧ c.toNat < 160) then
    ['\\', 'u', '\x7b'] ++ hexText c.toNat ++ ['\x7d']
  else [c]

/-- A string in quotes as a value is displayed. -/
def displayText (s : String) : String :=
  String.ofList ('"' :: (s.toList.flatMap displayChar ++ ['"']))

/-- The display of a key that is a plain scalar. -/
def displayScalarKey? : Yaml → Option String
  | bool b => some (if b then "true" else "false")
  | num n => some n.render
  | str s => some (displayText s)
  | _ => none

mutual

/-- The display of a value in messages, with the kind of every node. -/
def display : Yaml → String
  | null => "Null"
  | bool b => "Bool(" ++ (if b then "true" else "false") ++ ")"
  | num n => "Number(" ++ n.render ++ ")"
  | str s => "String(" ++ displayText s ++ ")"
  | seq items => "Sequence [" ++ String.intercalate ", " (displayItems items) ++ "]"
  | map pairs => "Mapping \x7b" ++ String.intercalate ", " (displayPairs pairs) ++ "\x7d"
  | tagged tag v => "TaggedValue \x7b tag: !" ++ tag ++ ", value: " ++ v.display ++ " \x7d"

/-- The displays of the items of a sequence. -/
def displayItems : List Yaml → List String
  | [] => []
  | v :: rest => v.display :: displayItems rest

/-- The displays of the entries of a mapping. -/
def displayPairs : List (Yaml × Yaml) → List String
  | [] => []
  | (k, v) :: rest =>
    ((displayScalarKey? k).getD k.display ++ ": " ++ v.display) :: displayPairs rest

end

/-- The name that a key becomes; keys that are no untagged scalars are refused. -/
def keyName : Yaml → Except ParseFailure String
  | str s => .ok s
  | num n => .ok n.render
  | bool b => .ok (if b then "true" else "false")
  | null => .ok "null"
  | other => .error (.mappingKey other.display)

mutual

/-- The value as JSON. -/
def toJson : Yaml → Except ParseFailure Json
  | null => .ok .null
  | bool b => .ok (.bool b)
  | num n => n.toJson
  | str s => .ok (.str s)
  | seq items => (itemsToJson items).map .arr
  | map pairs => (pairsToJson pairs []).map .obj
  | tagged _ v => v.toJson

/-- The items of a sequence as JSON, in order. -/
def itemsToJson : List Yaml → Except ParseFailure (List Json)
  | [] => .ok []
  | v :: rest => do
    let v ← v.toJson
    let rest ← itemsToJson rest
    pure (v :: rest)

/-- The entries of a mapping added to the members already made. Keys of one name share the place
of the first and the value of the last. -/
def pairsToJson : List (Yaml × Yaml) → Members → Except ParseFailure Members
  | [], members => .ok members
  | (k, v) :: rest, members => do
    let name ← keyName k
    let v ← v.toJson
    pairsToJson rest (putMember members name v)

end

end Yaml

end LinkedSchema
