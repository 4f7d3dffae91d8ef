import Typescribe.Generation.Error
import Typescribe.Schema.Scalar

/-!
# What types are called in TypeScript

A type's TypeScript name depends on its schema name alone: scalars and the timestamp have native
types, and every other type is called by its names joined with underscores.
-/

namespace Typescribe

/-- The package of the well-known types, from which nothing is imported. -/
def wellKnownPackage : String := "google.protobuf"

/-- The well-known timestamp type. -/
def timestamp : TypeName := ⟨wellKnownPackage ++ ".Timestamp"⟩

namespace TypeName

/-- The native type of a well-known type. -/
def wellKnownType? (type : TypeName) : Option String :=
  if type = timestamp then some "Date" else none

/-- The TypeScript type of a repeated value. -/
def listOf (element : String) : String :=
  element ++ "[]"

/-- The TypeScript name of a type. -/
def className (type : TypeName) : Except GenerationError String :=
  if type.isScalar then
    match Scalar.ofTypeName? type with
    | some scalar => .ok scalar.nativeType
    | none => .error (.unknownScalar type.text)
  else
    match type.wellKnownType? with
    | some native => .ok native
    | none =>
      if type.names.isEmpty then .error (.invalidTypeName type)
      else .ok (String.intercalate "_" type.names)

/-- The TypeScript type of a field. -/
def fieldType (type : TypeName) (repeated : Bool) : Except GenerationError String :=
  match type.className with
  | .ok name => .ok (if repeated then listOf name else name)
  | .error reason => .error reason

/-- Whether the type has a native TypeScript type. -/
def isNative (type : TypeName) : Bool :=
  type.isScalar || type.wellKnownType?.isSome

/-- Whether the type lies in the package of the well-known types. -/
def isWellKnown (type : TypeName) : Bool :=
  (wellKnownPackage ++ ".").toList.isPrefixOf type.text.toList

/-- Whether a module that uses the type has to import it. -/
def needsImport (type : TypeName) : Bool :=
  !type.isWellKnown && !type.isNative

end TypeName

end Typescribe
