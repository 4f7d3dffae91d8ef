import Typescribe.Generation.Naming
import Typescribe.Text.Search
import Typescribe.TypeScript.Module

/-!
# Placeholders

A field whose type is not known yet is written with a token in front. Once the type is known, the
token is replaced by what would have been written in the first place.
-/

namespace Typescribe.Placeholder

open TypeScript

/-- What a token starts with. -/
def opening : List Char := "\x7b\x7bfieldDecorator:".toList

/-- What a token ends with. -/
def closing : List Char := "\x7d\x7d".toList

/-- The token that stands for a type, character by character. -/
def tokenChars (type : List Char) : List Char :=
  opening ++ type ++ closing

/-- The token that stands for a type. -/
def token (type : TypeName) : String :=
  String.ofList (tokenChars type.text.toList)

/-- The types whose tokens are in a text, from left to right. An opening that nothing closes ends
the search. -/
def residualChars (text : List Char) : List (List Char) :=
  match found : Text.cutFirst? opening text with
  | none => []
  | some (_, afterOpening) =>
    match closed : Text.cutFirst? closing afterOpening with
    | none => []
    | some (type, rest) =>
      have shorter := Text.length_lt_of_cutFirst? (by decide) found
      have shorterStill := Text.length_lt_of_cutFirst? (by decide) closed
      type :: residualChars rest
termination_by text.length

/-- The types whose tokens are in a text, from left to right. -/
def residual (text : String) : List TypeName :=
  (residualChars text.toList).map fun type => ⟨String.ofList type⟩

/-- What takes the place of a token once its type is known. A record's association stands on a
line of its own, so the property behind it moves to the next line; an enumeration needs none. -/
def replacement (declaration : Declaration) : Except GenerationError String :=
  match declaration with
  | .record head _ =>
    match head.type.className with
    | .ok name => .ok (association name ++ "\n" ++ Indent.standard.text)
    | .error reason => .error reason
  | .enumeration _ => .ok ""
  | .service body => .error (.unsupported .service body.type .fieldType)

end Typescribe.Placeholder
