import Typescribe.Json.Tree

/-!
# What can be wrong with a schema file
-/

namespace Typescribe

/-- Why a text is no schema file. -/
inductive SchemaProblem where
  /-- The text is not JSON. -/
  | text (fault : JsonFault)
  | invalidType (found : Shape) (expected : String)
  | invalidValue (found : Shape) (expected : String)
  | invalidLength (length : Nat) (expected : String)
  | missingField (key : String)
  | duplicateField (key : String)
  | unknownVariant (name : String) (allowed : List String)

/-- What is said about a problem. -/
def SchemaProblem.message : SchemaProblem → String
  | text .ended => "unexpected end of JSON text"
  | text .malformed => "malformed JSON text"
  | invalidType found expected => "invalid type: " ++ found.text ++ ", expected " ++ expected
  | invalidValue found expected => "invalid value: " ++ found.text ++ ", expected " ++ expected
  | invalidLength length expected =>
    "invalid length " ++ length.repr ++ ", expected " ++ expected
  | missingField key => "missing field `" ++ key ++ "`"
  | duplicateField key => "duplicate field `" ++ key ++ "`"
  | unknownVariant name allowed =>
    "unknown variant `" ++ name ++ "`, expected one of " ++
      String.intercalate ", " (allowed.map fun text => "`" ++ text ++ "`")

end Typescribe
