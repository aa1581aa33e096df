import LinkedSchema.Files.Tree

/-!
# Texts by location

All that the schema machinery asks of the disk is what reading a location gives. `Texts` are that
and no more: at every location a text or the reason why there is none, and the places where a text
can be found at all. The files of a tree are texts.
-/

namespace LinkedSchema

/-- What is found by reading locations. -/
structure Texts where
  /-- The text at a location, or why there is none. -/
  read : Location → Except AccessFailure String
  /-- The locations that may have a text. -/
  places : List Location

/-- The texts of the files in a tree. -/
def FileTree.texts (files : FileTree) : Texts where
  read l := files.readText l.render
  places := files.entries.map Prod.fst

instance : Coe FileTree Texts := ⟨FileTree.texts⟩

/-- The texts of a tree without files: there are none. -/
abbrev Texts.empty (workingDirectory : Location) : Texts := FileTree.empty workingDirectory

end LinkedSchema
