import Typescribe.Manifest.Decoding
import Typescribe.Schema.FileDecoding
import Typescribe.Store.Basic
import Typescribe.Text.Lines

/-!
# What can be wrong with a manifest

An error names the text it is about and, where it can, points into it.
-/

namespace Typescribe

open Text (Span)

/-- A text to point into, with its name. -/
structure Source where
  name : String
  text : String
  deriving DecidableEq, Repr

/-- A remark on a part of a source. -/
structure Label where
  text : String
  span : Span
  deriving DecidableEq, Repr

/-- A value that a manifest must not have. -/
inductive ManifestFlaw where
  | blankOutputDir
  | noSchemaFiles
  | blankSchemaFile
  | repeatedSchemaFile (file : String)
  deriving DecidableEq, Repr

/-- What is said about a value that a manifest must not have. -/
def ManifestFlaw.message : ManifestFlaw → String
  | blankOutputDir => "output directory cannot be blank"
  | noSchemaFiles => "at least one schema file is required"
  | blankSchemaFile => "schema file path cannot be blank"
  | repeatedSchemaFile file => "schema file '" ++ file ++ "' is listed more than once"

/-- Why a manifest or one of its schema files cannot be used. Each error about a text holds the
name of the text. -/
inductive ManifestError where
  /-- A file cannot be read. -/
  | unreadable (path : Path) (kind : FaultKind)
  /-- A text is not TOML. -/
  | notToml (source : String)
  /-- A document is not a manifest. -/
  | undecodable (source : String) (problem : ManifestProblem) (span : Span)
  /-- A schema file is listed at two places. -/
  | listedTwice (source file : String) (first second : Span)
  /-- A value is invalid. -/
  | invalid (source : String) (flaw : ManifestFlaw) (span : Option Span)
  /-- A text is not a schema file. -/
  | badSchema (source : String) (problem : SchemaProblem)

namespace ManifestError

/-- What is said about an error. -/
def message : ManifestError → String
  | unreadable path _ => "failed to read '" ++ path.text ++ "'"
  | notToml _ => "failed to parse protots.toml"
  | undecodable _ _ _ => "failed to parse protots.toml"
  | listedTwice _ file _ _ => (ManifestFlaw.repeatedSchemaFile file).message
  | invalid _ flaw _ => flaw.message
  | badSchema _ _ => "failed to decode schema file"

/-- The code of an error. -/
def code : ManifestError → Option String
  | unreadable _ _ => none
  | notToml _ => some "protots::parse_error"
  | undecodable _ _ _ => some "protots::parse_error"
  | listedTwice _ _ _ _ => some "protots::duplicate_schema"
  | invalid _ _ _ => some "protots::validation_error"
  | badSchema _ _ => some "protots::schema_error"

/-- What can be done about an error. -/
def help : ManifestError → Option String
  | unreadable _ _ => some "create a protots.toml or pass its location with --config"
  | listedTwice _ _ _ _ => some "each schema file is processed once; remove the second entry"
  | badSchema _ _ =>
    some "schema files are JSON encodings of a schema file with its declarations"
  | _ => none

/-- The text that an error is about. -/
def source : ManifestError → Option String
  | unreadable _ _ => none
  | notToml name => some name
  | undecodable name _ _ => some name
  | listedTwice name _ _ _ => some name
  | invalid name _ _ => some name
  | badSchema name _ => some name

/-- The places that an error points at. -/
def labels : ManifestError → List Label
  | undecodable _ _ span => [⟨"parse error here", span⟩]
  | listedTwice _ _ first second =>
    [⟨"first listed here", first⟩, ⟨"listed again here", second⟩]
  | invalid _ flaw (some span) => [⟨flaw.message, span⟩]
  | _ => []

end ManifestError

namespace Source

/-- The offset of a place given by line and column, both counted from one. A place behind the text
is its end, and a line of zero is no place. -/
def offsetOf (source : Source) (line column : Nat) : Option Nat :=
  if line = 0 then none
  else
    let before := (Text.pieces source.text.toList).take (line - 1)
    let start := Text.byteLength before.flatten
    some (min (start + (column - 1)) (Text.byteLength source.text.toList))

/-- The label of a fault in a schema at a place given by line and column. -/
def schemaLabels (source : Source) (line column : Nat) : List Label :=
  match source.offsetOf line column with
  | none => []
  | some offset => [⟨"invalid schema here", ⟨offset, 0⟩⟩]

end Source

end Typescribe
