/-!
# Cutting text at a character

`splitAt` cuts a list of characters at every occurrence of a separator, so that joining the pieces
with the separator gives the list back; an empty list has one empty piece.
-/

namespace LinkedSchema.Text

/-- The pieces between the occurrences of a separator. -/
def splitAt (separator : Char) : List Char → List (List Char)
  | [] => [[]]
  | c :: rest =>
    if c = separator then [] :: splitAt separator rest
    else match splitAt separator rest with
      | [] => [[c]]
      | piece :: pieces => (c :: piece) :: pieces

/-- The pieces of a string between the occurrences of a separator. -/
def split (separator : Char) (s : String) : List String :=
  (splitAt separator s.toList).map String.ofList

/-- A string cut at the first occurrence of a separator: the part in front of it, and the
separator with all that follows. -/
def cutBefore (separator : Char) (s : String) : String × String :=
  (String.ofList (s.toList.takeWhile (· ≠ separator)),
    String.ofList (s.toList.dropWhile (· ≠ separator)))

/-- The blanks of the Unicode property White_Space. -/
def isSpace (c : Char) : Bool :=
  let n := c.toNat
  (9 ≤ n && n ≤ 13) || n == 0x20 || n == 0x85 || n == 0xA0 || n == 0x1680 ||
    (0x2000 ≤ n && n ≤ 0x200A) || n == 0x2028 || n == 0x2029 || n == 0x202F || n == 0x205F ||
    n == 0x3000

/-- A string without the blanks at its two ends. -/
def trim (s : String) : String :=
  String.ofList (((s.toList.dropWhile isSpace).reverse.dropWhile isSpace).reverse)

/-- A string with its ASCII letters in lower case. -/
def lower (s : String) : String := String.ofList (s.toList.map Char.toLower)

end LinkedSchema.Text
