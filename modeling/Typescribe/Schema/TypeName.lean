import Typescribe.Text.Lowercase

/-!
# Qualified type names

A schema names its types by dotted texts such as `geology.Era.Period`. The segments that start
with a lowercase character are the package, the others are the names of the type and of the types
around it. A single lowercase segment without a dot names a scalar.
-/

namespace Typescribe

/-- A qualified type name as written. -/
structure TypeName where
  text : String
  deriving DecidableEq, Repr, Inhabited

namespace TypeName

/-- Whether the first character of a text is lowercase. An empty text has none. -/
def startsLowercase (text : String) : Bool :=
  match text.toList with
  | [] => false
  | first :: _ => Text.isLowercase first

/-- The non-empty texts between the dots. -/
def segments (name : TypeName) : List String :=
  ((name.text.toList.splitOn '.').filter fun segment => !segment.isEmpty).map String.ofList

/-- The package segments: `["geology"]` in `geology.Era.Period`. -/
def package (name : TypeName) : List String :=
  name.segments.filter startsLowercase

/-- The type names from the outermost inwards: `["Era", "Period"]` in `geology.Era.Period`. -/
def names (name : TypeName) : List String :=
  name.segments.filter fun segment => !startsLowercase segment

/-- Whether the name has the form of a scalar, such as `int32`. -/
def isScalar (name : TypeName) : Bool :=
  !name.text.toList.contains '.' && startsLowercase name.text

/-- Whether the type stands at the top level of its package. -/
def isRoot (name : TypeName) : Bool :=
  name.names.length == 1

/-- The innermost type name, or the whole text if there is none. -/
def simpleName (name : TypeName) : String :=
  name.names.getLast?.getD name.text

/-- The top-level type around this one, which is the type itself if nothing encloses it. -/
def root (name : TypeName) : TypeName :=
  match name.names with
  | outermost :: _ :: _ => ⟨String.intercalate "." (name.package ++ [outermost])⟩
  | _ => name

/-- The type of the given name directly inside this one. -/
def nested (name : TypeName) (inner : String) : TypeName :=
  ⟨name.text ++ "." ++ inner⟩

end TypeName

end Typescribe
