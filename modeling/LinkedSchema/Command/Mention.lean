import LinkedSchema.Documents.Store
import LinkedSchema.Uri.Basic

/-!
# Files that a call mentions

A command runs on a snapshot of the files, so the snapshot has to hold every file that the call and
its documents may lead to. `mentionsOfCall` and `mentionsOfText` list the spellings under which they
may do so: more than are followed in the end, and never fewer.
-/

namespace LinkedSchema

mutual

/-- The strings that stand under certain names anywhere in a value. -/
def Json.textsUnder (names : List String) : Json → List String
  | .arr items => itemTextsUnder names items
  | .obj members => memberTextsUnder names members
  | _ => []
termination_by structural v => v

/-- The strings that stand under certain names in the items of an array. -/
def itemTextsUnder (names : List String) : List Json → List String
  | [] => []
  | v :: rest => v.textsUnder names ++ itemTextsUnder names rest

/-- The strings that stand under certain names in the members of an object. -/
def memberTextsUnder (names : List String) : Members → List String
  | [] => []
  | (name, v) :: rest =>
    (if names.contains name then v.text?.toList else []) ++
      (v.textsUnder names ++ memberTextsUnder names rest)

end

/-- The names under which schemas and manifests mention files. -/
def mentioningNames : List String := ["$ref", "$schema", "$id", "path", "schema"]

/-- The paths that a reference may mean: its file as written, the path of its URI with escaped bytes
decoded, and the last segment of that URI. -/
def spellings (reference : String) : List String :=
  let file := (Text.cutBefore '#' reference).1
  let uriPath := ((UriReference.read? file).bind fun r => Uri.decode? r.path).toList
  let lastSegment := String.ofList (file.toList.reverse.takeWhile (· ≠ '/')).reverse
  ([file, lastSegment] ++ uriPath).filter fun path => !path.isEmpty

/-- The paths that the text of a file mentions, read as JSON and as YAML. -/
def mentionsOfText (text : String) : List String :=
  let yaml := ((Yaml.read? text).bind fun v => v.toJson.toOption).toList
  ((Json.read? text).toList ++ yaml).flatMap fun v =>
    (v.textsUnder mentioningNames).flatMap spellings

/-- The paths that the arguments of a call mention: arguments, and values attached to options. -/
def mentionsOfCall (args : List String) : List String :=
  args.flatMap fun arg => [arg, String.ofList ((Text.cutBefore '=' arg).2.toList.drop 1)]

/-- A path and all paths on the way to it, as written, the shortest first. -/
def pathsOnTheWay (path : String) : List String :=
  let components := pathComponents path
  (List.range components.length).map fun i =>
    String.intercalate "/" (components.take (i + 1))

end LinkedSchema
