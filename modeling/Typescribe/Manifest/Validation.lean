import Typescribe.Manifest.Error
import Typescribe.Text.Blank
import Typescribe.Text.Lines

/-!
# Validation of manifests

What has been decoded is checked against rules that TOML cannot express. The text of the manifest
is searched for the value or the key at fault; a value that is written with escapes is not found.
-/

namespace Typescribe

open Text (Span)

namespace Source

/-- The spans of a value between two quotes of the given kind, quotes apart. -/
def quotedSpans (source : Source) (value : List Char) (quote : Char) : List Span :=
  (Text.occurrences ([quote] ++ value ++ [quote]) source.text.toList).map fun offset =>
    ⟨offset + quote.utf8Size, Text.byteLength value⟩

/-- The spans of a value between quotes of either kind, from left to right. -/
def valueSpans (source : Source) (value : String) : List Span :=
  (source.quotedSpans value.toList '"' ++ source.quotedSpans value.toList '\x27').mergeSort
    fun left right => decide (left.offset ≤ right.offset)

/-- Whether a line gives a value to a key, blanks in front of it apart. -/
def assigns (key line : List Char) : Bool :=
  key.isPrefixOf line && (Text.trimStart (line.drop key.length)).head? == some '='

/-- The span of a key in the first of some lines that gives a value to it. The lines start at an
offset. -/
def keySpanFrom (key : List Char) : Nat → List (List Char) → Option Span
  | _, [] => none
  | offset, line :: rest =>
    let trimmed := Text.trimStart line
    if assigns key trimmed then
      some ⟨offset + (Text.byteLength line - Text.byteLength trimmed), Text.byteLength key⟩
    else keySpanFrom key (offset + Text.byteLength line) rest

/-- The span of a key in the first line that gives a value to it. -/
def keySpan (source : Source) (key : String) : Option Span :=
  keySpanFrom key.toList 0 (Text.pieces source.text.toList)

end Source

namespace Manifest

/-- Checks that an output directory is not blank. -/
def checkDir (source : Source) (dir : String) : Except ManifestError Unit :=
  if Text.allBlank dir then
    .error (.invalid source.name .blankOutputDir
      ((source.valueSpans dir).head?.or (source.keySpan "dir")))
  else .ok ()

/-- The error of a schema file that is listed again. -/
def repeatedFile (source : Source) (file : String) : ManifestError :=
  match source.valueSpans file with
  | first :: second :: _ => .listedTwice source.name file first second
  | spans => .invalid source.name (.repeatedSchemaFile file) spans.head?

/-- Checks that no schema file is blank or equal to an earlier one. -/
def checkEntries (source : Source) (earlier : List String) :
    List String → Except ManifestError Unit
  | [] => .ok ()
  | file :: rest =>
    if Text.allBlank file then
      .error (.invalid source.name .blankSchemaFile (source.valueSpans file).head?)
    else if file ∈ earlier then .error (repeatedFile source file)
    else checkEntries source (file :: earlier) rest

/-- Checks that there are schema files, none of them blank and none listed twice. -/
def checkFiles (source : Source) (files : List String) : Except ManifestError Unit :=
  if files.isEmpty then
    .error (.invalid source.name .noSchemaFiles (source.keySpan "files"))
  else checkEntries source [] files

/-- Reads a manifest. -/
def ofSource (source : Source) : Except ManifestError Manifest := do
  match Toml.ofText? source.text with
  | none => throw (.notToml source.name)
  | some entries =>
    match ofEntries entries with
    | .error (problem, span) => throw (.undecodable source.name problem span)
    | .ok manifest =>
      checkDir source manifest.dir
      checkFiles source manifest.files
      return manifest

end Manifest

/-- Reads a schema file. -/
def SchemaFile.ofSource (source : Source) : Except ManifestError SchemaFile :=
  match SchemaFile.ofText source.text with
  | .ok file => .ok file
  | .error problem => .error (.badSchema source.name problem)

end Typescribe
