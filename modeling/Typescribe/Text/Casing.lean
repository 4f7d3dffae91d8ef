import Typescribe.Text.LowercaseMapping
import Typescribe.Text.Uppercase

/-!
# Spellings derived from a name

Routes spell a name in kebab case and methods spell it with a small first letter.
-/

namespace Typescribe.Text

/-- One character after the first in kebab case: a capital becomes a hyphen and its lowercase, and
everything else is kept. -/
def kebabChar (c : Char) : List Char :=
  if isUppercase c then '-' :: toLowercase c else [c]

/-- Kebab case of a name, character by character. The first character is lowercased whatever it
is. Acronyms split at every letter and underscores survive. -/
def kebabChars : List Char → List Char
  | [] => []
  | first :: rest => toLowercase first ++ rest.flatMap kebabChar

/-- Kebab case of a name: `GetURL` becomes `get-u-r-l`. -/
def kebab (name : String) : String :=
  String.ofList (kebabChars name.toList)

/-- The characters of a name with the first one lowercased. -/
def lowerFirstChars : List Char → List Char
  | [] => []
  | first :: rest => toLowercase first ++ rest

/-- A name with its first character lowercased. -/
def lowerFirst (name : String) : String :=
  String.ofList (lowerFirstChars name.toList)

end Typescribe.Text
