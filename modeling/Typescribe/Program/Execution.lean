import Typescribe.Manifest.Loading
import Typescribe.Program.CommandLine
import Typescribe.Program.Report

/-!
# The program

A run of the program turns a command line and a disk into lines, an exit code and a disk.
-/

namespace Typescribe

/-- What a run of the program comes to. -/
structure Execution where
  code : Nat
  lines : List ReportLine
  disk : Disk

namespace Program

/-- The name and the version of the program. -/
def versionLine : String := "protots 0.1.0"

/-- How the program is used. -/
def usage : List String :=
  ["Generate TypeScript classes and service clients from schema definitions",
    "",
    "Usage:",
    "  protots generate [-c|--config <CONFIG>] [-o|--output <OUTPUT>] [--dry-run]",
    "  protots check [-c|--config <CONFIG>]",
    "  protots help",
    "  protots --version"]

/-- What is said about a run that fails. -/
def failureLines (text : String) : List ReportLine :=
  ⟨.error, "Error:"⟩ :: (Text.lines text).map fun line => ⟨.error, "  " ++ line⟩

/-- What is said about an error of a manifest. -/
def manifestFailure (reason : ManifestError) : List ReportLine :=
  failureLines reason.message ++
    match reason.help with
    | some help => [⟨.error, "  help: " ++ help⟩]
    | none => []

/-- A run that fails and leaves the disk as given. -/
def failed (lines : List ReportLine) (disk : Disk) : Execution :=
  { code := 1, lines, disk }

/-- The manifest at a path and its schema files. -/
def load (disk : Disk) (config : Path) :
    Except ManifestError (Manifest × List SchemaFile) := do
  let manifest ← Manifest.load disk config
  let files ← manifest.loadSchemas disk
  return (manifest, files)

/-- Shows what would be generated. -/
def runPreview (files : List SchemaFile) (disk : Disk) : Execution :=
  match preview files with
  | .error reason => failed (failureLines (reason.messageIn generateContext)) disk
  | .ok found => { code := 0, lines := previewReport found, disk }

/-- Generates files. -/
def runGenerate (files : List SchemaFile) (dir : Path) (disk : Disk) : Execution :=
  match generate disk dir files with
  | (.error reason, disk) => failed (failureLines (reason.messageIn generateContext)) disk
  | (.ok summary, disk) => { code := 0, lines := summary.report dir, disk }

/-- Checks schema files. -/
def runCheck (files : List SchemaFile) (config : Path) (disk : Disk) : Execution :=
  match check files with
  | .error reason => failed (failureLines (reason.messageIn checkContext)) disk
  | .ok result =>
    { code := if result.isValid then 0 else 1, lines := result.report config, disk }

/-- Runs a command. -/
def runCommand (command : Command) (disk : Disk) : Execution :=
  match command with
  | .generate config output isDryRun =>
    match load disk config with
    | .error reason => failed (manifestFailure reason) disk
    | .ok (manifest, files) =>
      if isDryRun then runPreview files disk
      else runGenerate files (output.getD manifest.outputDir) disk
  | .check config =>
    match load disk config with
    | .error reason => failed (manifestFailure reason) disk
    | .ok (_, files) => runCheck files config disk

/-- Does what a command line asks for. -/
def run (words : List String) (disk : Disk) : Execution :=
  match CommandLine.parse words with
  | .run command => runCommand command disk
  | .help => { code := 0, lines := usage.map .plain, disk }
  | .version => { code := 0, lines := [.plain versionLine], disk }
  | .misuse => { code := 2, lines := usage.map fun text => ⟨.error, text⟩, disk }

/-! ## What a run looks at -/

/-- The manifest that a command needs. -/
def configOf : Command → Path
  | .generate config _ _ => config
  | .check config => config

/-- The files that a command can write once its schema files are known. -/
def outputsOf (manifest : Manifest) (files : List SchemaFile) : Command → List Path
  | .generate _ output false =>
    (possibleOutputs files).map (output.getD manifest.outputDir).join
  | _ => []

/-- The paths that a command line makes the program look at, as far as the disk tells: the
manifest, then the schema files that it lists, then the files that they generate. -/
def touched (words : List String) (disk : Disk) : List Path :=
  match CommandLine.parse words with
  | .run command =>
    let config := configOf command
    match Manifest.load disk config with
    | .error _ => [config]
    | .ok manifest =>
      match manifest.loadSchemas disk with
      | .error _ => config :: manifest.schemaPaths
      | .ok files => config :: manifest.schemaPaths ++ outputsOf manifest files command
  | _ => []

end Program

end Typescribe
