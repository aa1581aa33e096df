import LinkedSchema.Yaml.Token

/-!
# YAML trees

A `Node` is a YAML document with its aliases replaced by what they stand for and its tags resolved,
but with scalars as they are written: what a plain scalar means depends on what is expected there.

An alias must follow the end of the node it stands for. Two limits keep documents small: nodes nest
at most `maxDepth` deep, and following aliases takes at most `jumpsPerEvent` steps for each event of
the document, where a scalar or alias is one event and a collection is two.
-/

namespace LinkedSchema.Yaml

/-- A YAML document or a part of it. -/
inductive Node where
  | scalar (tag : Option String) (style : ScalarStyle) (text : String)
  | seq (tag : Option String) (items : List Node)
  | map (tag : Option String) (pairs : List (Node × Node))
deriving Repr, Inhabited

namespace Tree

/-- How deep collections may nest. -/
def maxDepth : Nat := 128

/-- How many aliases may be followed for each event of the document. -/
def jumpsPerEvent : Nat := 100

/-- A node with the measures that the limits are about. -/
structure Part where
  node : Node
  /-- How deep its collections nest. -/
  depth : Nat
  /-- How many aliases are followed inside it. -/
  jumps : Nat
  /-- How many events it is written with. -/
  events : Nat

/-- What has been declared so far: the anchored nodes and the tag handles. -/
structure Scope where
  anchors : List (String × Part)
  handles : List (String × String)

/-- A scalar that is not written at all. -/
def empty (tag : Option String := none) : Part := ⟨.scalar tag .plain "", 0, 0, 1⟩

/-- A sequence of parts. -/
def sequence (tag : Option String) (items : List Part) : Part :=
  { node := .seq tag (items.map Part.node)
    depth := (items.map Part.depth).foldl max 0 + 1
    jumps := (items.map Part.jumps).foldr (· + ·) 0
    events := (items.map Part.events).foldr (· + ·) 0 + 2 }

/-- A mapping of parts. -/
def mapping (tag : Option String) (pairs : List (Part × Part)) : Part :=
  { node := .map tag (pairs.map fun p => (p.1.node, p.2.node))
    depth := (pairs.map fun p => max p.1.depth p.2.depth).foldl max 0 + 1
    jumps := (pairs.map fun p => p.1.jumps + p.2.jumps).foldr (· + ·) 0
    events := (pairs.map fun p => p.1.events + p.2.events).foldr (· + ·) 0 + 2 }

/-- The full tag behind a handle. -/
def Scope.tag? (scope : Scope) (handle suffix : String) : Option String :=
  if handle.isEmpty then some suffix
  else (scope.handles.lookup handle).map (· ++ suffix)

/-- Anchor and tag in front of a node, in either order and each at most once. -/
def properties? (scope : Scope) (tokens : List Token) :
    Option (Option String × Option String × List Token) :=
  match tokens with
  | .anchor a :: .tag h s :: rest => (scope.tag? h s).map fun t => (some a, some t, rest)
  | .tag h s :: .anchor a :: rest => (scope.tag? h s).map fun t => (some a, some t, rest)
  | .anchor a :: rest => some (some a, none, rest)
  | .tag h s :: rest => (scope.tag? h s).map fun t => (none, some t, rest)
  | rest => some (none, none, rest)

/-- The scope with a node under its anchor, if it has one. -/
def Scope.declare (scope : Scope) (anchor : Option String) (part : Part) : Scope :=
  match anchor with
  | none => scope
  | some a => { scope with anchors := (a, part) :: scope.anchors }

/-- The scope without an anchor whose node is not complete yet. -/
def Scope.suspend (scope : Scope) (anchor : Option String) : Scope :=
  match anchor with
  | none => scope
  | some a => { scope with anchors := scope.anchors.filter (·.1 ≠ a) }

/-- Whether a token ends an entry of a block sequence that has no indentation of its own. -/
def endsIndentless : Token → Bool
  | .blockEntry | .key | .value | .blockEnd => true
  | _ => false

/-- Whether a token ends the key or value of a block mapping. -/
def endsMember : Token → Bool
  | .key | .value | .blockEnd => true
  | _ => false

/-- Whether a token ends the key of a pair in brackets or braces. -/
def endsFlowKey : Token → Bool
  | .value | .flowEntry | .sequenceEnd | .mappingEnd => true
  | _ => false

/-- A node that was read, declared under its anchor if it has one. -/
def anchored (anchor : Option String) (read : Option (Part × Scope × List Token)) :
    Option (Part × Scope × List Token) :=
  read.map fun (part, scope, rest) => (part, scope.declare anchor part, rest)

/-- A sequence whose items were read, declared under its anchor if it has one. -/
def anchoredSequence (anchor tag : Option String) (read : Option (List Part × Scope × List Token)) :
    Option (Part × Scope × List Token) :=
  anchored anchor (read.map fun (items, scope, rest) => (sequence tag items, scope, rest))

/-- A mapping whose pairs were read, declared under its anchor if it has one. -/
def anchoredMapping (anchor tag : Option String)
    (read : Option (List (Part × Part) × Scope × List Token)) :
    Option (Part × Scope × List Token) :=
  anchored anchor (read.map fun (pairs, scope, rest) => (mapping tag pairs, scope, rest))

mutual

/-- A node. Block collections are read where `block` is set, and sequences without indentation
where `indentless` is set too. -/
def node? : (fuel : Nat) → (block indentless : Bool) → Scope → List Token →
    Option (Part × Scope × List Token)
  | 0, _, _, _, _ => none
  | fuel + 1, block, indentless, scope, tokens =>
    match tokens with
    | .alias name :: rest =>
      (scope.anchors.lookup name).map fun part =>
        ({ part with jumps := part.jumps + 1, events := 1 }, scope, rest)
    | tokens => do
      let (anchor, tag, tokens) ← properties? scope tokens
      let inner := scope.suspend anchor
      match block, tokens with
      | _, .scalar text style :: rest =>
        anchored anchor (some (⟨.scalar tag style text, 0, 0, 1⟩, scope, rest))
      | _, .sequenceStart :: rest => anchoredSequence anchor tag (flowItems? fuel true inner rest)
      | _, .mappingStart :: rest => anchoredMapping anchor tag (flowPairs? fuel true inner rest)
      | true, .blockSequenceStart :: rest =>
        anchoredSequence anchor tag (blockItems? fuel inner rest)
      | true, .blockMappingStart :: rest => anchoredMapping anchor tag (blockPairs? fuel inner rest)
      | true, .blockEntry :: rest =>
        if indentless then
          anchoredSequence anchor tag (indentlessItems? fuel inner (.blockEntry :: rest))
        -- An anchor or a tag alone is an empty node.
        else if anchor.isSome || tag.isSome then
          anchored anchor (some (empty tag, scope, .blockEntry :: rest))
        else none
      | _, rest =>
        if anchor.isSome || tag.isSome then anchored anchor (some (empty tag, scope, rest))
        else none

/-- The entries of an indented block sequence up to its end. -/
def blockItems? : (fuel : Nat) → Scope → List Token → Option (List Part × Scope × List Token)
  | 0, _, _ => none
  | fuel + 1, scope, tokens =>
    match tokens with
    | .blockEnd :: rest => some ([], scope, rest)
    | .blockEntry :: rest => do
      let (item, scope, rest) ← match rest with
        | .blockEntry :: _ | .blockEnd :: _ => some (empty, scope, rest)
        | rest => node? fuel true false scope rest
      let (items, scope, rest) ← blockItems? fuel scope rest
      some (item :: items, scope, rest)
    | _ => none

/-- The entries of a block sequence without indentation; it has no end of its own. -/
def indentlessItems? : (fuel : Nat) → Scope → List Token → Option (List Part × Scope × List Token)
  | 0, _, _ => none
  | fuel + 1, scope, tokens =>
    match tokens with
    | .blockEntry :: rest => do
      let (item, scope, rest) ←
        if rest.head?.any endsIndentless then some (empty, scope, rest)
        else node? fuel true false scope rest
      let (items, scope, rest) ← indentlessItems? fuel scope rest
      some (item :: items, scope, rest)
    | rest => some ([], scope, rest)

/-- The pairs of a block mapping up to its end. -/
def blockPairs? : (fuel : Nat) → Scope → List Token →
    Option (List (Part × Part) × Scope × List Token)
  | 0, _, _ => none
  | fuel + 1, scope, tokens =>
    match tokens with
    | .blockEnd :: rest => some ([], scope, rest)
    | .key :: rest => do
      let (k, scope, rest) ←
        if rest.head?.any endsMember then some (empty, scope, rest)
        else node? fuel true true scope rest
      let (v, scope, rest) ← match rest with
        | .value :: rest =>
          if rest.head?.any endsMember then some (empty, scope, rest)
          else node? fuel true true scope rest
        | rest => some (empty, scope, rest)
      let (pairs, scope, rest) ← blockPairs? fuel scope rest
      some ((k, v) :: pairs, scope, rest)
    | _ => none

/-- The items in brackets up to the closing one. A key among them makes a mapping of one pair. -/
def flowItems? : (fuel : Nat) → (first : Bool) → Scope → List Token →
    Option (List Part × Scope × List Token)
  | 0, _, _, _ => none
  | fuel + 1, first, scope, tokens =>
    match first, tokens with
    | _, .sequenceEnd :: rest => some ([], scope, rest)
    | false, .flowEntry :: .sequenceEnd :: rest => some ([], scope, rest)
    | first, tokens => do
      let tokens ← match first, tokens with
        | true, tokens => some tokens
        | false, .flowEntry :: rest => some rest
        | false, _ => none
      let (item, scope, rest) ← match tokens with
        | .key :: rest => do
          let (k, v, scope, rest) ← flowPair? fuel scope rest
          some (mapping none [(k, v)], scope, rest)
        | tokens => node? fuel false false scope tokens
      let (items, scope, rest) ← flowItems? fuel false scope rest
      some (item :: items, scope, rest)

/-- The pairs in braces up to the closing one. -/
def flowPairs? : (fuel : Nat) → (first : Bool) → Scope → List Token →
    Option (List (Part × Part) × Scope × List Token)
  | 0, _, _, _ => none
  | fuel + 1, first, scope, tokens =>
    match first, tokens with
    | _, .mappingEnd :: rest => some ([], scope, rest)
    | false, .flowEntry :: .mappingEnd :: rest => some ([], scope, rest)
    | first, tokens => do
      let tokens ← match first, tokens with
        | true, tokens => some tokens
        | false, .flowEntry :: rest => some rest
        | false, _ => none
      let (k, v, scope, rest) ← match tokens with
        | .key :: rest => flowPair? fuel scope rest
        | tokens => do
          let (k, scope, rest) ← node? fuel false false scope tokens
          some (k, empty, scope, rest)
      let (pairs, scope, rest) ← flowPairs? fuel false scope rest
      some ((k, v) :: pairs, scope, rest)

/-- A pair in brackets or braces after its key mark. -/
def flowPair? : (fuel : Nat) → Scope → List Token → Option (Part × Part × Scope × List Token)
  | 0, _, _ => none
  | fuel + 1, scope, tokens => do
    let (k, scope, rest) ←
      if tokens.head?.any endsFlowKey then some (empty, scope, tokens)
      else node? fuel false false scope tokens
    let (v, scope, rest) ← match rest with
      | .value :: rest =>
        if rest.head?.any endsFlowKey then some (empty, scope, rest)
        else node? fuel false false scope rest
      | rest => some (empty, scope, rest)
    some (k, v, scope, rest)

end

/-- Whether a token stands between documents. -/
def isBoundary : Token → Bool
  | .version .. | .tagHandle .. | .documentStart | .documentEnd => true
  | _ => false

/-- The handles that every document may use. -/
def standardHandles : List (String × String) := [("!", "!"), ("!!", "tag:yaml.org,2002:")]

/-- The directives in front of a document, which declare tag handles, up to the document mark. -/
def directives? : (seenVersion : Bool) → (declared : List (String × String)) → List Token →
    Option (List (String × String) × List Token)
  | seen, declared, .version major minor :: rest =>
    if seen || major != 1 || !(minor == 1 || minor == 2) then none
    else directives? true declared rest
  | seen, declared, .tagHandle handle lead :: rest =>
    if (declared.lookup handle).isSome then none
    else directives? seen ((handle, lead) :: declared) rest
  | _, declared, .documentStart :: rest => some (declared ++ standardHandles, rest)
  | _, _, _ => none

/-- The one document of a text; an empty text holds none. -/
def document? (tokens : List Token) : Option (Option Part) := do
  let fuel := 4 * tokens.length + 4
  match tokens with
  | [] => some none
  | first :: _ =>
    let (handles, tokens) ←
      if isBoundary first then directives? false [] tokens else some (standardHandles, tokens)
    let (part, _, rest) ←
      if tokens.isEmpty || tokens.head?.any isBoundary then
        if isBoundary first then some (empty, ⟨[], handles⟩, tokens) else none
      else node? fuel true false ⟨[], handles⟩ tokens
    if !(rest.dropWhile (· == .documentEnd)).isEmpty then none
    else if maxDepth < part.depth || jumpsPerEvent * part.events < part.jumps then none
    else some (some part)

end Tree

/-- The document of a YAML text: nothing when it is malformed, and no node when it is empty. -/
def Node.ofText? (text : String) : Option (Option Node) := do
  let tokens ← Token.ofText? text
  let part ← Tree.document? tokens
  some (part.map Tree.Part.node)

end LinkedSchema.Yaml
