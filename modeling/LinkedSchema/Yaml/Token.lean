import LinkedSchema.Number.Literal
import LinkedSchema.Text.Hex
import LinkedSchema.Yaml.Cursor

/-!
# YAML tokens

`Token.ofText?` cuts a YAML text into tokens. Indentation becomes explicit: a block collection is
opened by a token when its first entry stands further right than the collection around it, and is
closed by `blockEnd` when a line stands further left. A key is announced by a `key` token, which is
put in front of the tokens of the key when its colon is met; for that each place where a simple key
may begin is kept as a `Candidate` until the key is decided.
-/

namespace LinkedSchema.Yaml

/-- How a scalar is written, as far as its meaning depends on it. -/
inductive ScalarStyle where
  | plain
  | literal
  | other
deriving DecidableEq, Repr

/-- A token of a YAML text. -/
inductive Token where
  | version (major minor : Nat)
  | tagHandle (handle lead : String)
  | documentStart
  | documentEnd
  | blockSequenceStart
  | blockMappingStart
  | blockEnd
  | sequenceStart
  | sequenceEnd
  | mappingStart
  | mappingEnd
  | blockEntry
  | flowEntry
  | key
  | value
  | alias (name : String)
  | anchor (name : String)
  | tag (handle suffix : String)
  | scalar (text : String) (style : ScalarStyle)
deriving DecidableEq, Repr

namespace Scan

/-- A place where a simple key may have begun. -/
structure Candidate where
  /-- Whether the key may still turn out to be one. -/
  possible : Bool
  /-- Whether nothing but a key may stand there. -/
  required : Bool
  /-- How many tokens precede it. -/
  position : Nat
  index : Nat
  line : Nat
  column : Nat

/-- No simple key. -/
def Candidate.none : Candidate := ⟨false, false, 0, 0, 0, 0⟩

/-- The state of reading tokens. -/
structure State where
  cursor : Cursor
  /-- The tokens read so far, the last one first. -/
  tokens : List Token
  /-- The column of the innermost block collection, if there is one. -/
  indent : Option Nat
  /-- The columns of the block collections around it. -/
  outer : List (Option Nat)
  /-- Whether a simple key may begin here. -/
  keyAllowed : Bool
  /-- The candidate of the current flow level. -/
  candidate : Candidate
  /-- The candidates of the flow levels around it. -/
  outerCandidates : List Candidate

namespace State

/-- Whether reading is inside brackets or braces. -/
def inFlow (s : State) : Bool := !s.outerCandidates.isEmpty

/-- The state with one more token. -/
def emit (s : State) (t : Token) : State := { s with tokens := t :: s.tokens }

/-- The state some characters further on. -/
def advance (s : State) (n : Nat) : State := { s with cursor := s.cursor.skip n }

/-- The state with a token put behind the first tokens. -/
def insertAt (s : State) (position : Nat) (t : Token) : State :=
  let later := s.tokens.length - position
  { s with tokens := s.tokens.take later ++ t :: s.tokens.drop later }

/-- Whether the innermost block collection stands left of a column. -/
def isLeftOf (indent : Option Nat) (column : Nat) : Bool :=
  match indent with
  | none => true
  | some i => i < column

/-- Opens a block collection at a column unless one stands there already. -/
def openBlock (s : State) (column position : Nat) (t : Token) : State :=
  if s.inFlow || !isLeftOf s.indent column then s
  else { s with outer := s.indent :: s.outer, indent := some column }.insertAt position t

/-- Closes the block collections that stand right of a column; without a column, all of them. -/
def closeBlocks (s : State) (column : Option Nat) : State :=
  if s.inFlow then s else go s.outer s
where
  /-- Closes collections while the innermost stands right of the column. -/
  go : List (Option Nat) → State → State
    | [], s => s
    | around :: outer, s =>
      let right := match s.indent, column with
        | none, _ => false
        | some _, none => true
        | some i, some c => c < i
      if right then go outer ({ s with indent := around, outer := outer }.emit .blockEnd) else s

/-- Gives up the candidate, which fails when a key is required there. -/
def dropCandidate? (s : State) : Option State :=
  if s.candidate.possible && s.candidate.required then none
  else some { s with candidate := .none }

/-- Notes that a simple key may begin here. -/
def noteCandidate? (s : State) : Option State := do
  let required := !s.inFlow && s.indent == some s.cursor.column
  if s.keyAllowed then
    let s ← s.dropCandidate?
    some { s with
      candidate :=
        ⟨true, required, s.tokens.length, s.cursor.index, s.cursor.line, s.cursor.column⟩ }
  else some s

/-- How far its colon may be from the start of a simple key. -/
def maxKeyLength : Nat := 1024

/-- Whether the candidate can be a key at this point: a simple key stands on one line and is
short. Fails when a key is required there but cannot be one. -/
def candidateHolds? (s : State) : Option Bool :=
  let c := s.candidate
  if !c.possible then some false
  else if c.line < s.cursor.line || c.index + maxKeyLength < s.cursor.index then
    if c.required then none else some false
  else some true

/-- Enters brackets or braces. -/
def enterFlow (s : State) : State :=
  { s with outerCandidates := s.candidate :: s.outerCandidates, candidate := .none }

/-- Leaves brackets or braces. -/
def leaveFlow (s : State) : State :=
  match s.outerCandidates with
  | [] => s
  | c :: rest => { s with candidate := c, outerCandidates := rest }

end State

/-- Skips blanks, comments and line ends before a token. After a line end in block context a simple
key may begin. -/
def skipToToken : (fuel : Nat) → State → State
  | 0, s => s
  | fuel + 1, s =>
    let c := s.cursor.skipWhile fun ch => ch == ' ' || (ch == '\t' && (s.inFlow || !s.keyAllowed))
    let c := if c.at? '#' then c.toLineEnd else c
    match c.rest with
    | [] => { s with cursor := c }
    | ch :: _ =>
      if isBreak ch then
        skipToToken fuel { s with cursor := c.next, keyAllowed := s.keyAllowed || !s.inFlow }
      else { s with cursor := c }

/-- A version or tag directive, the cursor being at its percent sign. -/
def directive? (c : Cursor) : Option (Token × Cursor) := do
  let name := (c.next.rest.takeWhile isWordChar)
  let c := c.next.skip name.length
  if !c.gapAt 0 then none
  else if name == "YAML".toList then
    let c := c.skipWhile isBlank
    let (major, _) := spanDigits c.rest
    let c := c.skip major.length
    if major.isEmpty || 9 < major.length || !c.at? '.' then none
    else
      let (minor, _) := spanDigits c.next.rest
      if minor.isEmpty || 9 < minor.length then none
      else
        let c ← (c.next.skip minor.length).endLine?
        some (.version (ofDigits major) (ofDigits minor), c)
  else if name == "TAG".toList then
    let c := c.skipWhile isBlank
    let inner := c.next.rest.takeWhile isWordChar
    let handle := '!' :: inner
    let c' := c.next.skip inner.length
    if !c.at? '!' then none
    else
      let (handle, c) := if c'.at? '!' then (handle ++ ['!'], c'.next) else (handle, c')
      if (handle.length != 1 && handle.getLast? != some '!') || !((c.peek?).any isBlank) then none
      else
        let c := c.skipWhile isBlank
        let lead := c.rest.takeWhile fun ch => !isBlank ch && !isBreak ch
        let c := c.skip lead.length
        if lead.isEmpty then none
        else
          let c ← c.endLine?
          some (.tagHandle (String.ofList handle) (String.ofList lead), c)
  else none

/-- The name of an anchor or alias, the cursor being behind its mark. -/
def anchorName? (c : Cursor) : Option (String × Cursor) :=
  let name := c.rest.takeWhile isWordChar
  let c := c.skip name.length
  let ends := c.gapAt 0 || (c.peek?).any fun ch => "?:,]\x7d%@\x60".toList.contains ch
  if name.isEmpty || !ends then none else some (String.ofList name, c)

/-- The characters of a tag besides escapes; brackets and commas stand only in a tag in angle
brackets. -/
def isTagChar (verbatim : Bool) (c : Char) : Bool :=
  isWordChar c || ";/?:@&=+$.!~*'()".toList.contains c || (verbatim && ",[]".toList.contains c)

/-- The text of a tag, escaped bytes being read as UTF-8. -/
def tagText? (verbatim : Bool) : (fuel : Nat) → Cursor → List UInt8 → Option (String × Cursor)
  | 0, c, bytes => (String.fromUTF8? ⟨bytes.toArray⟩).map (·, c)
  | fuel + 1, c, bytes =>
    match c.rest with
    | '%' :: a :: b :: _ => do
      let byte ← Text.ofHexDigits? [a, b]
      tagText? verbatim fuel (c.skip 3) (bytes ++ [UInt8.ofNat byte])
    | '%' :: _ => none
    | ch :: _ =>
      if isTagChar verbatim ch then
        tagText? verbatim fuel c.next (bytes ++ ch.toString.toUTF8.toList)
      else (String.fromUTF8? ⟨bytes.toArray⟩).map (·, c)
    | [] => (String.fromUTF8? ⟨bytes.toArray⟩).map (·, c)

/-- A tag, the cursor being at its exclamation mark. -/
def tag? (inFlow : Bool) (c : Cursor) : Option (Token × Cursor) := do
  let (t, c) ←
    if c.peek? 1 == some '<' then do
      let (text, c) ← tagText? true c.rest.length (c.skip 2) []
      if text.isEmpty || !c.at? '>' then none else some (Token.tag "" text, c.next)
    else do
      let inner := c.next.rest.takeWhile isWordChar
      let after := c.next.skip inner.length
      if after.at? '!' then
        let (text, c) ← tagText? false c.rest.length after.next []
        if text.isEmpty then none
        else some (Token.tag (String.ofList ('!' :: inner ++ ['!'])) text, c)
      else
        let (text, c) ← tagText? false c.rest.length c.next []
        if text.isEmpty then some (Token.tag "" "!", c) else some (Token.tag "!" text, c)
  if c.gapAt 0 || (inFlow && c.at? ',') then some (t, c) else none

/-- Skips the indentation and the empty lines of a block scalar. Without a known indentation the
widest one among them is returned too. A tab in the indentation is refused. -/
def blockBreaks? (indent : Option Nat) :
    (fuel : Nat) → Cursor → (breaks : List Char) → (widest : Nat) →
      Option (List Char × Nat × Cursor)
  | 0, _, _, _ => none
  | fuel + 1, c, breaks, widest =>
    let spaces := (c.rest.takeWhile (· == ' ')).length
    let c := c.skip (match indent with
      | none => spaces
      | some i => min spaces (i - c.column))
    let widest := max widest c.column
    let inIndent := match indent with
      | none => true
      | some i => c.column < i
    match c.rest with
    | [] => some (breaks, widest, c)
    | ch :: _ =>
      if inIndent && ch == '\t' then none
      else if isBreak ch then blockBreaks? indent fuel c.next (breaks ++ [ch]) widest
      else some (breaks, widest, c)

/-- The lines of a block scalar. `lead` is the end of the line before, `breaks` the empty lines
after it; a folded scalar joins lines that do not start with a blank. -/
def blockLines? (folded : Bool) (indent : Nat) :
    (fuel : Nat) → Cursor → (text lead breaks : List Char) → (blankBefore : Bool) →
    Option (List Char × List Char × List Char × Cursor)
  | 0, _, _, _, _, _ => none
  | fuel + 1, c, text, lead, breaks, blankBefore =>
    if c.column != indent || c.rest.isEmpty then some (text, lead, breaks, c)
    else do
      let blankNow := (c.peek?).any isBlank
      let join :=
        if folded && lead.head? == some '\n' && !blankBefore && !blankNow then
          if breaks.isEmpty then [' '] else []
        else lead
      let line := c.rest.takeWhile (!isBreak ·)
      let c := c.skip line.length
      let lead := c.rest.take 1
      let (after, _, c) ← blockBreaks? (some indent) (c.rest.length + 1) c.next [] 0
      blockLines? folded indent fuel c (text ++ join ++ breaks ++ line) lead after blankNow

/-- A block scalar, the cursor being at its mark. -/
def blockScalar? (indent : Option Nat) (c : Cursor) : Option (Token × Cursor) := do
  let folded := c.at? '>'
  let c := c.next
  let isChomp (ch : Char) : Bool := ch == '+' || ch == '-'
  let isIndent (ch : Char) : Bool := ch.isDigit
  let chomp? (c : Cursor) : Option Char := c.peek?.filter isChomp
  let step? (c : Cursor) : Option Char := c.peek?.filter isIndent
  -- The two marks come in either order.
  let (chomp, step, c) :=
    match chomp? c with
    | some ch =>
      let c := c.next
      match step? c with
      | some d => (some ch, some d, c.next)
      | none => (some ch, none, c)
    | none =>
      match step? c with
      | some d =>
        let c := c.next
        match chomp? c with
        | some ch => (some ch, some d, c.next)
        | none => (none, some d, c)
      | none => (none, none, c)
  if step == some '0' then none
  else
    let c ← c.endLine?
    -- Without a number the first line that is not empty tells the indentation.
    let known := step.map fun d => indent.getD 0 + digitValue d
    let (breaks, widest, c) ← blockBreaks? known (c.rest.length + 1) c [] 0
    let column := known.getD (max (max widest (indent.elim 0 (· + 1))) 1)
    let (text, lead, breaks, c) ← blockLines? folded column (c.rest.length + 1) c [] [] breaks false
    let text := if chomp == some '-' then text else text ++ lead
    let text := if chomp == some '+' then text ++ breaks else text
    some (.scalar (String.ofList text) (if folded then .other else .literal), c)

/-- The character that an escape of a double-quoted scalar stands for, or the number of its
hexadecimal digits. -/
def escape? : Char → Option (Char ⊕ Nat)
  | '0' => some (.inl (Char.ofNat 0))
  | 'a' => some (.inl (Char.ofNat 7))
  | 'b' => some (.inl (Char.ofNat 8))
  | 't' => some (.inl '\t')
  | '\t' => some (.inl '\t')
  | 'n' => some (.inl '\n')
  | 'v' => some (.inl (Char.ofNat 11))
  | 'f' => some (.inl (Char.ofNat 12))
  | 'r' => some (.inl '\r')
  | 'e' => some (.inl (Char.ofNat 27))
  | ' ' => some (.inl ' ')
  | '"' => some (.inl '"')
  | '/' => some (.inl '/')
  | '\\' => some (.inl '\\')
  | 'N' => some (.inl nextLine)
  | '_' => some (.inl (Char.ofNat 0xA0))
  | 'L' => some (.inl (Char.ofNat 0x2028))
  | 'P' => some (.inl (Char.ofNat 0x2029))
  | 'x' => some (.inr 2)
  | 'u' => some (.inr 4)
  | 'U' => some (.inr 8)
  | _ => none

/-- The character with a code point written in hexadecimal digits. -/
def hexChar? (digits : List Char) : Option Char := do
  let n ← Text.ofHexDigits? digits
  if (0xD800 ≤ n && n ≤ 0xDFFF) || 0x10FFFF < n then none else some (Char.ofNat n)

/-- The rest of a quoted scalar after its opening quote; `text` is what has been read, last
character first. -/
def quotedText? (quote : Char) :
    (fuel : Nat) → Cursor → (text : List Char) → Option (List Char × Cursor)
  | 0, _, _ => none
  | fuel + 1, c, text =>
    if c.atDocumentMark then none
    else match c.rest with
      | [] => none
      | ch :: rest =>
        -- A single quote is written twice.
        if quote == '\'' && ch == quote && rest.head? == some quote then
          quotedText? quote fuel (c.skip 2) (quote :: text)
        else if ch == quote then some (text.reverse, c.next)
        else if isBlank ch || isBreak ch then
          let (gap, c) := c.gap
          quotedText? quote fuel c (gap.fold.reverse ++ text)
        else if quote == '"' && ch == '\\' then
          match rest with
          | [] => none
          | e :: _ =>
            -- An escaped line end takes the blanks around it away, but not the empty lines.
            if isBreak e then
              let (gap, c) := (c.skip 2).gap
              quotedText? quote fuel c (gap.breaks.reverse ++ text)
            else
              match escape? e with
              | none => none
              | some (.inl x) => quotedText? quote fuel (c.skip 2) (x :: text)
              | some (.inr n) =>
                let digits := (c.skip 2).rest.take n
                if digits.length < n then none
                else (hexChar? digits).bind fun x =>
                  quotedText? quote fuel (c.skip (2 + n)) (x :: text)
        else quotedText? quote fuel c.next (ch :: text)

/-- The characters that end a plain scalar inside brackets. -/
def isFlowMark (c : Char) : Bool := ",[]\x7b\x7d".toList.contains c

/-- The text of a plain scalar; `text` is what has been read, last character first, and `gap` the
gap after it. Tells also whether the scalar is followed by a line end. -/
def plainText? (inFlow : Bool) (indent : Nat) :
    (fuel : Nat) → Cursor → (text : List Char) → (gap : Gap) → Option (List Char × Bool × Cursor)
  | 0, _, _, _ => none
  | fuel + 1, c, text, gap =>
    let stop := some (text.reverse, !gap.breaks.isEmpty, c)
    match c.rest with
    | [] => stop
    | ch :: rest =>
      if isBlank ch || isBreak ch then
        let (gap, next) := c.gap indent
        if gap.tabbed then none
        else if (!inFlow && !gap.breaks.isEmpty && next.column < indent) || next.atDocumentMark ||
            next.at? '#' then
          some (text.reverse, !gap.breaks.isEmpty, next)
        else plainText? inFlow indent fuel next text gap
      else if inFlow && ch == ':' && rest.head?.any (fun n => n == '?' || isFlowMark n) then none
      else if (ch == ':' && c.gapAt 1) || (inFlow && isFlowMark ch) then stop
      else plainText? inFlow indent fuel c.next (ch :: (gap.fold.reverse ++ text)) ⟨[], [], false⟩

/-- Whether a plain scalar can begin here. -/
def plainStarts (s : State) : Bool :=
  match s.cursor.peek? with
  | none => false
  | some ch =>
    let mark := "-?:,[]\x7b\x7d#&*!|>'\"%@\x60".toList.contains ch
    (!mark && !isBlank ch && !isBreak ch) ||
      (ch == '-' && !((s.cursor.peek? 1).any isBlank)) ||
      (!s.inFlow && (ch == '?' || ch == ':') && !s.cursor.gapAt 1)

/-- A token that can be a simple key or start one. -/
def keyLike? (s : State) (read : Option (Token × Cursor)) : Option State := do
  let s ← s.noteCandidate?
  let (t, c) ← read
  some ({ s with cursor := c, keyAllowed := false }.emit t)

/-- A document mark of three characters. -/
def documentMark? (s : State) (t : Token) : Option State := do
  let s ← (s.closeBlocks none).dropCandidate?
  some ({ s with keyAllowed := false }.advance 3 |>.emit t)

/-- An opening bracket or brace. -/
def opening? (s : State) (t : Token) : Option State := do
  let s ← s.noteCandidate?
  some ({ s with keyAllowed := true }.enterFlow.advance 1 |>.emit t)

/-- A closing bracket or brace. -/
def closing? (s : State) (t : Token) : Option State := do
  let s ← s.dropCandidate?
  some ({ s.leaveFlow with keyAllowed := false }.advance 1 |>.emit t)

/-- A mark in front of an entry or a key: in block context it may open a collection. -/
def entryMark? (s : State) (opens t : Token) (keyAllowed : Bool) : Option State := do
  if !s.inFlow && !s.keyAllowed then none
  else
    let s ← (s.openBlock s.cursor.column s.tokens.length opens).dropCandidate?
    some ({ s with keyAllowed := keyAllowed }.advance 1 |>.emit t)

/-- The colon between a key and its value. -/
def colon? (s : State) : Option State := do
  if ← s.candidateHolds? then
    let k := s.candidate
    let s := (s.insertAt k.position .key).openBlock k.column k.position .blockMappingStart
    some ({ s with candidate := .none, keyAllowed := false }.advance 1 |>.emit .value)
  else if !s.inFlow && !s.keyAllowed then none
  else
    let s := { s with candidate := .none }.openBlock s.cursor.column s.tokens.length
      .blockMappingStart
    some ({ s with keyAllowed := !s.inFlow }.advance 1 |>.emit .value)

/-- Reads the next token, the cursor being at its first character. -/
def token? (s : State) (ch : Char) : Option State := do
  let c := s.cursor
  if c.column == 0 && ch == '%' then
    let s ← (s.closeBlocks none).dropCandidate?
    let (t, c) ← directive? c
    some ({ s with cursor := c, keyAllowed := false }.emit t)
  else if c.atMarks '-' then documentMark? s .documentStart
  else if c.atMarks '.' then documentMark? s .documentEnd
  else if ch == '[' then opening? s .sequenceStart
  else if ch == '\x7b' then opening? s .mappingStart
  else if ch == ']' then closing? s .sequenceEnd
  else if ch == '\x7d' then closing? s .mappingEnd
  else if ch == ',' then
    let s ← s.dropCandidate?
    some ({ s with keyAllowed := true }.advance 1 |>.emit .flowEntry)
  else if ch == '-' && c.gapAt 1 then entryMark? s .blockSequenceStart .blockEntry true
  else if ch == '?' && (s.inFlow || c.gapAt 1) then
    entryMark? s .blockMappingStart .key (!s.inFlow)
  else if ch == ':' && (s.inFlow || c.gapAt 1) then colon? s
  else if ch == '*' then keyLike? s ((anchorName? c.next).map fun (n, c) => (.alias n, c))
  else if ch == '&' then keyLike? s ((anchorName? c.next).map fun (n, c) => (.anchor n, c))
  else if ch == '!' then keyLike? s (tag? s.inFlow c)
  else if (ch == '|' || ch == '>') && !s.inFlow then
    let s ← s.dropCandidate?
    let (t, c) ← blockScalar? s.indent c
    some ({ s with cursor := c, keyAllowed := true }.emit t)
  else if ch == '\'' || ch == '"' then
    keyLike? s ((quotedText? ch (c.rest.length + 1) c.next []).map fun (text, c) =>
      (.scalar (String.ofList text) .other, c))
  else if plainStarts s then
    let s ← s.noteCandidate?
    let indent := s.indent.elim 0 (· + 1)
    let (text, broken, c) ← plainText? s.inFlow indent (2 * c.rest.length + 1) c [] ⟨[], [], false⟩
    some ({ s with cursor := c, keyAllowed := broken }.emit (.scalar (String.ofList text) .plain))
  else none

/-- Reads tokens to the end of the text. -/
def tokens? : (fuel : Nat) → State → Option State
  | 0, _ => none
  | fuel + 1, s =>
    let s := skipToToken (s.cursor.rest.length + 1) s
    match s.cursor.rest with
    | [] => (s.closeBlocks none).dropCandidate?
    | ch :: _ => (token? (s.closeBlocks (some s.cursor.column)) ch).bind (tokens? fuel)

end Scan

/-- The tokens of a text, or nothing when it is no YAML text. A byte order mark in front is
dropped. -/
def Token.ofText? (text : String) : Option (List Token) := do
  let chars := match text.toList with
    | c :: rest => if c.toNat = 0xFEFF then rest else c :: rest
    | [] => []
  if !chars.all isPrintable then none
  else
    let chars := unifyBreaks chars
    let start : Scan.State :=
      { cursor := ⟨chars, 0, 0, 0⟩, tokens := [], indent := none, outer := [], keyAllowed := true
        candidate := .none, outerCandidates := [] }
    let s ← Scan.tokens? (chars.length + 1) start
    some s.tokens.reverse

end LinkedSchema.Yaml
