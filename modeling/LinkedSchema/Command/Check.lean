import LinkedSchema.Command.Outcome

/-!
# Checking one document

The command validates one document against one schema and writes the report, as lines or as a JSON
array.
-/

namespace LinkedSchema

/-- What is written about a report. -/
def Report.summary (report : Report) (asJson : Bool) : String :=
  if asJson then report.toJson.pretty ++ "\n"
  else if report.isValid then "Schema validation passed.\n"
  else bulletList "Schema validation failed:" report.lines

/-- Validates the document at one path against the schema at another. -/
def runCheck (files : FileTree) (config : Config) (schema data : String) (asJson : Bool) :
    Except CommandError Outcome :=
  match ((Session.start config files).validateFile schema data).1 with
  | .error cause => .error (.check schema data cause)
  | .ok report => .ok ⟨if report.isValid then 0 else 1, report.summary asJson⟩

end LinkedSchema
