import Typescribe.Schema.TypeName

/-!
# Scalar types

The fifteen scalar types that a schema can use without declaring them, and what they are called
in TypeScript.
-/

namespace Typescribe

/-- The scalar types of the schema language. -/
inductive Scalar where
  | double | float
  | int32 | int64 | uint32 | uint64 | sint32 | sint64
  | fixed32 | fixed64 | sfixed32 | sfixed64
  | bool | string | bytes
  deriving DecidableEq, Repr

namespace Scalar

/-- Every scalar type. -/
def all : List Scalar :=
  [double, float, int32, int64, uint32, uint64, sint32, sint64, fixed32, fixed64, sfixed32,
    sfixed64, bool, string, bytes]

/-- The name of a scalar in a schema. -/
def name : Scalar → String
  | double => "double"
  | float => "float"
  | int32 => "int32"
  | int64 => "int64"
  | uint32 => "uint32"
  | uint64 => "uint64"
  | sint32 => "sint32"
  | sint64 => "sint64"
  | fixed32 => "fixed32"
  | fixed64 => "fixed64"
  | sfixed32 => "sfixed32"
  | sfixed64 => "sfixed64"
  | bool => "bool"
  | string => "string"
  | bytes => "bytes"

/-- The scalar with the given name. -/
def ofName? (text : String) : Option Scalar :=
  all.find? fun scalar => scalar.name == text

/-- The scalar that a type name denotes. -/
def ofTypeName? (type : TypeName) : Option Scalar :=
  if type.isScalar then ofName? type.text else none

/-- Whether the values of a scalar are numbers. -/
def isNumeric : Scalar → Bool
  | bool | string | bytes => false
  | _ => true

/-- The TypeScript type of a scalar. -/
def nativeType : Scalar → String
  | bool => "boolean"
  | string => "string"
  | bytes => "Uint8Array"
  | _ => "number"

/-- What is said about a name that is no scalar's. -/
def unknownMessage (text : String) : String :=
  "unknown scalar type '" ++ text ++ "'"

end Scalar

end Typescribe
