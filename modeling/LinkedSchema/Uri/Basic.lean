import LinkedSchema.Text.Hex
import LinkedSchema.Text.Split

/-!
# URIs

A `UriReference` holds the parts of a reference as they are written; `UriReference.read?` accepts
what the generic syntax allows, which is ASCII throughout. A `Uri` has a scheme and no fragment: it
names a document. References are resolved against the URI of the document in which they stand.
-/

namespace LinkedSchema

/-- The parts of a reference, each without its delimiters. -/
structure UriReference where
  scheme : Option String
  authority : Option String
  path : String
  query : Option String
  fragment : Option String
deriving DecidableEq, Repr

/-- The name of a document. -/
structure Uri where
  scheme : String
  authority : Option String
  path : String
  query : Option String
deriving DecidableEq, Repr

namespace Uri

/-- A URI as text. -/
def render (u : Uri) : String :=
  let authority := match u.authority with
    | some a => "//" ++ a
    | none => ""
  let query := match u.query with
    | some q => "?" ++ q
    | none => ""
  u.scheme ++ ":" ++ authority ++ u.path ++ query

/-- Whether a character stands for itself in every part of a URI. -/
def isUnreserved (c : Char) : Bool :=
  c.isAlphanum || c == '-' || c == '.' || c == '_' || c == '~'

/-- Whether a character may stand in a segment of a path. -/
def isSegmentChar (c : Char) : Bool :=
  isUnreserved c || "!$&'()*+,;=:@".toList.contains c

/-- Whether a character may stand in a path. -/
def isPathChar (c : Char) : Bool := isSegmentChar c || c == '/'

/-- Whether a character may stand in a query or a fragment. -/
def isQueryChar (c : Char) : Bool := isPathChar c || c == '?'

/-- Whether a character may stand in an authority. -/
def isAuthorityChar (c : Char) : Bool := isSegmentChar c || c == '[' || c == ']'

/-- The byte that two hexadecimal digits stand for. -/
def byte? (high low : Char) : Option Nat := Text.ofHexDigits? [high, low]

/-- Whether a part holds allowed characters and escaped bytes only. -/
def isWellFormed (allowed : Char → Bool) : List Char → Bool
  | [] => true
  | '%' :: high :: low :: rest => (byte? high low).isSome && isWellFormed allowed rest
  | c :: rest => allowed c && isWellFormed allowed rest

/-- Whether a text is the name of a scheme. -/
def isScheme : List Char → Bool
  | [] => false
  | c :: rest =>
    c.isAlpha && rest.all fun c => c.isAlphanum || c == '+' || c == '-' || c == '.'

/-- A part in which no unreserved character is escaped and all escapes are in capitals. -/
def normalizeEscapes : List Char → List Char
  | [] => []
  | '%' :: high :: low :: rest =>
    match byte? high low with
    | some n =>
      let c := Char.ofNat n
      if n < 128 && isUnreserved c then c :: normalizeEscapes rest
      else '%' :: Text.hexDigit (n / 16) :: Text.hexDigit (n % 16) :: normalizeEscapes rest
    | none => '%' :: high :: low :: normalizeEscapes rest
  | c :: rest => c :: normalizeEscapes rest

/-- The segments of a path after those that are `.` or `..` have been carried out; `done` are the
ones in front, the last one first. -/
def removeDots (done : List (List Char)) : List (List Char) → List (List Char)
  | [] => done.reverse
  | [['.']] => ([] :: done).reverse
  | [['.', '.']] => ([] :: done.drop 1).reverse
  | ['.'] :: rest => removeDots done rest
  | ['.', '.'] :: rest => removeDots (done.drop 1) rest
  | segment :: rest => removeDots (segment :: done) rest

/-- A path without `.` and `..`; one that starts at the root stays there. -/
def normalizePath (path : String) : String :=
  match Text.splitAt '/' (normalizeEscapes path.toList) with
  | [] :: rest => String.ofList ('/' :: joinSegments (removeDots [] rest))
  | segments => String.ofList (joinSegments (removeDots [] segments))
where
  /-- Segments with slashes between them. -/
  joinSegments : List (List Char) → List Char
    | [] => []
    | [segment] => segment
    | segment :: rest => segment ++ '/' :: joinSegments rest

/-- A part with normalized escapes. -/
def normalizePart (part : String) : String := String.ofList (normalizeEscapes part.toList)

/-- The URI in its normal spelling. -/
def normalize (u : Uri) : Uri :=
  { scheme := Text.lower u.scheme
    authority := u.authority.map fun a => Text.lower (normalizePart a)
    path := normalizePath u.path
    query := u.query.map normalizePart }

/-- The bytes that a part stands for. -/
def decodeBytes : List Char → List UInt8
  | [] => []
  | '%' :: high :: low :: rest =>
    match byte? high low with
    | some n => UInt8.ofNat n :: decodeBytes rest
    | none => UInt8.ofNat '%'.toNat :: decodeBytes (high :: low :: rest)
  | c :: rest => (String.ofList [c]).toUTF8.toList ++ decodeBytes rest

/-- The text that a part stands for, if its bytes are text. -/
def decode? (part : String) : Option String :=
  String.fromUTF8? ⟨(decodeBytes part.toList).toArray⟩

/-- Whether a byte is escaped in a path made from the names of files. -/
def isEscapedInPath (n : Nat) : Bool :=
  n < 33 || 127 ≤ n || "\"#%/<>?\x60\\\x7b\x7d".toList.any fun c => c.toNat == n

/-- A file name as a segment of a path. -/
def encodeSegment (name : String) : String :=
  String.ofList (name.toUTF8.toList.flatMap fun b =>
    let n := b.toNat
    if isEscapedInPath n then ['%', Text.hexDigit (n / 16), Text.hexDigit (n % 16)]
    else [Char.ofNat n])

/-- The URI of a file with the names on the way down to it, unless one of them cannot be written in
a URI. -/
def ofFile? (names : List String) : Option Uri :=
  let path := "/" ++ String.intercalate "/" (names.map encodeSegment)
  if isWellFormed isPathChar path.toList then some (normalize ⟨"file", some "", path, none⟩)
  else none

/-- The path of the local file that a `file` URI names. -/
def filePath? (u : Uri) : Option String :=
  if u.scheme = "file" && ((u.authority.getD "") == "" || u.authority == some "localhost") then
    (decode? u.path).map fun path => if path.toList.head? = some '/' then path else "/" ++ path
  else none

/-- What follows the last slash of a URI. -/
def lastSegment (u : Uri) : String :=
  String.ofList ((u.render.toList.reverse.takeWhile (· ≠ '/')).reverse)

end Uri

namespace UriReference

/-- A text cut at the first occurrence of a delimiter: what is in front of it, and what is behind
it if it occurs. -/
def cut (delimiter : Char) (text : String) : String × Option String :=
  let (front, rest) := Text.cutBefore delimiter text
  (front, if rest.isEmpty then none else some (String.ofList (rest.toList.drop 1)))

/-- The scheme in front of a text, if it has one, and the rest. -/
def cutScheme (text : String) : Option String × String :=
  match cut ':' text with
  | (scheme, some rest) =>
    if Uri.isScheme scheme.toList then (some scheme, rest) else (none, text)
  | (_, none) => (none, text)

/-- The authority in front of a text, if it has one, and the rest. -/
def cutAuthority (text : String) : Option String × String :=
  match text.toList with
  | '/' :: '/' :: rest =>
    (some (String.ofList (rest.takeWhile (· ≠ '/'))), String.ofList (rest.dropWhile (· ≠ '/')))
  | _ => (none, text)

/-- Whether the parts of a reference are allowed to be what they are. -/
def isWellFormed (r : UriReference) : Bool :=
  let firstSegment := r.path.toList.takeWhile (· ≠ '/')
  (r.authority.all fun a => Uri.isWellFormed Uri.isAuthorityChar a.toList) &&
    Uri.isWellFormed Uri.isPathChar r.path.toList &&
    (r.query.all fun q => Uri.isWellFormed Uri.isQueryChar q.toList) &&
    (r.fragment.all fun f => Uri.isWellFormed Uri.isQueryChar f.toList) &&
    (r.scheme.isSome || r.authority.isSome || !firstSegment.contains ':')

/-- Reads a reference. -/
def read? (text : String) : Option UriReference :=
  let (text, fragment) := cut '#' text
  let (text, query) := cut '?' text
  let (scheme, text) := cutScheme text
  let (authority, path) := cutAuthority text
  let r : UriReference := ⟨scheme, authority, path, query, fragment⟩
  if r.isWellFormed then some r else none

/-- A relative path put in place of the last segment of a base. -/
def mergePath (base : Uri) (path : String) : String :=
  if base.authority.isSome && base.path.isEmpty then "/" ++ path
  else
    String.ofList ((base.path.toList.reverse.dropWhile (· ≠ '/')).reverse) ++ path

/-- The document that a reference means, read in a document with a given URI. -/
def resolve (base : Uri) (r : UriReference) : Uri :=
  Uri.normalize <|
    match r.scheme, r.authority with
    | some scheme, authority => ⟨scheme, authority, r.path, r.query⟩
    | none, some authority => ⟨base.scheme, some authority, r.path, r.query⟩
    | none, none =>
      if r.path.isEmpty then
        { base with query := if r.query.isSome then r.query else base.query }
      else if r.path.toList.head? = some '/' then
        { base with path := r.path, query := r.query }
      else { base with path := mergePath base r.path, query := r.query }

end UriReference

end LinkedSchema
