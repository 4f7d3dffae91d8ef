import Typescribe.Generation.Run

/-!
# Reports

What a run tells its user, line by line. Diagnostics go to the error channel, and all else to the
output channel.
-/

namespace Typescribe

/-- Where a line goes. -/
inductive Channel where
  | output
  | error
  deriving DecidableEq, Repr

/-- A line of a report. Its text may itself hold line ends. -/
structure ReportLine where
  channel : Channel
  text : String
  deriving DecidableEq, Repr

namespace ReportLine

/-- A text as it is. -/
def plain (text : String) : ReportLine :=
  ⟨.output, text⟩

/-- An empty line. -/
def empty : ReportLine :=
  plain ""

/-- A named value. -/
def named (name value : String) : ReportLine :=
  plain (name ++ ": " ++ value)

/-- The title of the lines below it. -/
def title (name : String) : ReportLine :=
  plain (name ++ ":")

/-- A file that was written. -/
def added (file : String) : ReportLine :=
  plain ("  + " ++ file)

/-- An item of a list. -/
def item (text : String) : ReportLine :=
  plain ("  - " ++ text)

/-- A banner above a block of text. -/
def divider (label : String) : ReportLine :=
  plain ("── " ++ label ++ " ──")

/-- Something that may be wrong. -/
def warning (text : String) : ReportLine :=
  ⟨.error, "warning: " ++ text⟩

/-- Something that is wrong. -/
def error (text : String) : ReportLine :=
  ⟨.error, "error: " ++ text⟩

end ReportLine

/-- The ending of a noun that is counted. -/
def pluralEnding (count : Nat) : String :=
  if count = 1 then "" else "s"

/-- A number of files. -/
def countedFiles (count : Nat) : String :=
  count.repr ++ " file" ++ pluralEnding count

/-- The report of a run that generated files into a directory. -/
def Summary.report (summary : Summary) (dir : Path) : List ReportLine :=
  (summary.unresolved.map fun reference => .warning reference.text) ++
    [.named "Generated" (dir.text ++ "/")] ++
    (if summary.written.isEmpty then []
      else .empty :: .title "Written" :: summary.written.map .added) ++
    (if summary.unchanged.isEmpty then []
      else [.empty, .plain (countedFiles summary.unchanged.length ++ " unchanged")])

/-- The report of a preview. -/
def previewReport (files : List GeneratedFile) : List ReportLine :=
  (files.flatMap fun file => [.divider file.path, .plain file.content]) ++
    [.divider "Summary", .plain (countedFiles files.length ++ " would be generated")]

/-- The report of a check. -/
def CheckResult.report (result : CheckResult) (config : Path) : List ReportLine :=
  if result.isValid then
    [.plain ("✓ " ++ config.text ++ " is valid"),
      .empty,
      .item (result.schemaCount.repr ++ " schema files"),
      .item (result.typeCount.repr ++ " types"),
      .item (result.fileCount.repr ++ " generated files")]
  else
    let count := result.unresolved.length
    (result.unresolved.map fun reference => .error reference.text) ++
      [.empty,
        .plain ("✗ " ++ config.text ++ " has " ++ count.repr ++ " unresolved reference" ++
          pluralEnding count)]

/-- What a failure is said to be a failure of when files are generated or previewed. -/
def generateContext : String := "Failed to generate code"

/-- What a failure is said to be a failure of when files are checked. -/
def checkContext : String := "Generation failed"

/-- What is said about a failure in a context. -/
def GenerationError.messageIn (reason : GenerationError) (context : String) : String :=
  context ++ ": " ++ reason.message

end Typescribe
