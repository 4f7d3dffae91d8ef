import Typescribe.Manifest.Basic
import Typescribe.Toml.Document

/-!
# Manifests as TOML

A manifest has the tables `output` and `schema`, each with one key. The keys of a table are taken
in alphabetical order, and the first thing wrong is what is reported.
-/

namespace Typescribe

/-- Something in a TOML document that no manifest has. -/
inductive ManifestProblem where
  /-- A key that its table does not have. -/
  | unknownField (name : String) (expected : List String)
  /-- A value of the wrong kind. -/
  | invalidType (found expected : String)
  /-- A key that is not there. -/
  | missingField (name : String)
  /-- An array that is too short for the table it stands for. -/
  | invalidLength (length : Nat) (expected : String)
  /-- An integer beyond all bounds. -/
  | hugeInteger
  /-- A number beyond double precision. -/
  | hugeFloat
  deriving DecidableEq, Repr

/-- What is said about a problem. -/
def ManifestProblem.message : ManifestProblem → String
  | unknownField name expected =>
    "unknown field `" ++ name ++ "`, expected " ++
      String.intercalate " or " (expected.map fun key => "`" ++ key ++ "`")
  | invalidType found expected => "invalid type: " ++ found ++ ", expected " ++ expected
  | missingField name => "missing field `" ++ name ++ "`"
  | invalidLength length expected =>
    "invalid length " ++ length.repr ++ ", expected " ++ expected
  | hugeInteger => "integer number overflowed"
  | hugeFloat => "floating-point number overflowed"

namespace Manifest

/-- A decoded value, or the first problem and its place. -/
abbrev Decoded (α : Type) := Except (ManifestProblem × Text.Span) α

/-- The problem of a value that is not what is expected. -/
def mismatch (value : Toml) (expected : String) : ManifestProblem :=
  match value with
  | .string text => .invalidType ("string " ++ Text.shown text) expected
  | .integer value =>
    if Toml.isHuge value then .hugeInteger else .invalidType (Toml.integerText value) expected
  | .float value =>
    .invalidType ("floating point `" ++ Toml.floatFormat.write value ++ "`") expected
  | .hugeFloat => .hugeFloat
  | .bool value =>
    .invalidType ("boolean `" ++ (if value then "true" else "false") ++ "`") expected
  | .datetime => .invalidType "map" expected
  | .array _ _ => .invalidType "sequence" expected
  | .table _ _ => .invalidType "map" expected

/-- A text. -/
def decodeText (span : Text.Span) : Toml → Decoded String
  | .string text => .ok text
  | other => .error (mismatch other "a string", span)

/-- A list of texts. -/
def decodeTexts (span : Text.Span) : Toml → Decoded (List String)
  | .array _ items => items.mapM fun item => decodeText item.1 item.2
  | other => .error (mismatch other "a sequence", span)

/-- The entries of a table in the order of their keys. -/
def byKey (entries : List TomlEntry) : List TomlEntry :=
  entries.mergeSort fun left right => decide (left.1.text ≤ right.1.text)

/-- A table with one key. -/
structure OneKeyTable (α : Type) where
  /-- What messages call the table. -/
  title : String
  key : String
  decode : Text.Span → Toml → Decoded α
  /-- The value where the key is not there, if it may be left out. -/
  default : Option α

namespace OneKeyTable

variable {α : Type}

/-- The key under which dates and times are passed on to where a table is expected. -/
def datetimeKey : String := "$__toml_private_datetime"

/-- The value of the key among entries, or of the entry found before. -/
def decodeEntries (table : OneKeyTable α) (found : Option α) :
    List TomlEntry → Decoded (Option α)
  | [] => .ok found
  | (key, span, value) :: rest =>
    if key.text = table.key then do
      let found ← table.decode span value
      decodeEntries table (some found) rest
    else .error (.unknownField key.text [table.key], key.span)

/-- Decodes a table, which may also be written as an array with the value of its key. -/
def decodeTable (table : OneKeyTable α) (span : Text.Span) : Toml → Decoded α
  | .table _ entries => do
    match ← table.decodeEntries none (byKey entries), table.default with
    | some found, _ => return found
    | none, some standard => return standard
    | none, none => throw (.missingField table.key, span)
  | .array _ [] =>
    match table.default with
    | some standard => .ok standard
    | none => .error (.invalidLength 0 (table.title ++ " with 1 element"), span)
  | .array _ (item :: _) => table.decode item.1 item.2
  | .datetime => .error (.unknownField datetimeKey [table.key], span)
  | other => .error (mismatch other table.title, span)

end OneKeyTable

/-- The table `output`. -/
def outputTable : OneKeyTable String where
  title := "struct OutputConfig"
  key := "dir"
  decode := decodeText
  default := some standardDir

/-- The table `schema`. -/
def schemaTable : OneKeyTable (List String) where
  title := "struct SchemaConfig"
  key := "files"
  decode := decodeTexts
  default := none

/-- The tables found in a document. -/
structure Tables where
  dir : String := standardDir
  files : Option (List String) := none

/-- The tables among entries, on top of those found before. -/
def decodeTables (tables : Tables) : List TomlEntry → Decoded Tables
  | [] => .ok tables
  | (key, span, value) :: rest =>
    if key.text = "output" then do
      let dir ← outputTable.decodeTable span value
      decodeTables { tables with dir } rest
    else if key.text = "schema" then do
      let files ← schemaTable.decodeTable span value
      decodeTables { tables with files := some files } rest
    else .error (.unknownField key.text ["output", "schema"], key.span)

/-- Decodes the entries of a document. -/
def ofEntries (entries : List TomlEntry) : Decoded Manifest := do
  let tables ← decodeTables {} (byKey entries)
  match tables.files with
  | some files => return { dir := tables.dir, files := files }
  | none => throw (.missingField "schema", ⟨0, 0⟩)

end Manifest

end Typescribe
