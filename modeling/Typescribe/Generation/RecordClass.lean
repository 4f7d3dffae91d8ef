import Typescribe.Generation.KnownTypes
import Typescribe.Generation.Placeholder
import Typescribe.Text.Literal

/-!
# Classes of records

A record becomes a class with one property for each field and a constructor. What stands before a
property depends on what is known about the field's type when the class is written.
-/

namespace Typescribe

open TypeScript

/-- The default value of a field as written in code: strings are quoted, everything else stands
as it is. -/
def Field.literal? (field : Field) : Option String :=
  field.defaultValue.map fun value =>
    if Scalar.ofTypeName? field.type = some .string then Text.quote value else value

/-- What a property starts out with: the default value if there is one, and otherwise nothing for
an optional property and an empty list for a repeated one. -/
def Field.initializer? (field : Field) (isOptional : Bool) : Option String :=
  match field.literal? with
  | some literal => some literal
  | none =>
    if isOptional then some "undefined" else if field.isRepeated then some "[]" else none

namespace KnownTypes

/-- What stands before a property of the given type: the association of a known record, nothing
for scalars and known enumerations, and a placeholder for a type that is not known. -/
def decorator (known : KnownTypes) (type : TypeName) : Except GenerationError Decorator :=
  if type.isScalar then
    .ok .none
  else
    match known.find? type with
    | some (.record _ _) =>
      match type.className with
      | .ok name => .ok (.association name)
      | .error reason => .error reason
    | some (.enumeration _) => .ok .none
    | some (.service _) => .error (.unsupported .service type .fieldType)
    | none => .ok (.placeholder (Placeholder.token type))

/-- The property that holds a field. Members of a group are optional whatever their
cardinality. -/
def property (known : KnownTypes) (inGroup : Bool) (field : Field) :
    Except GenerationError Property :=
  match field.type.fieldType field.isRepeated with
  | .error reason => .error reason
  | .ok type =>
    match known.decorator field.type with
    | .error reason => .error reason
    | .ok decorator =>
      let isOptional := inGroup || field.cardinality == .optional
      .ok { name := field.memberName
            type := type
            isOptional := isOptional
            initializer := field.initializer? isOptional
            doc := Text.docLines field.documentation
            decorator := decorator }

/-- The layout of the properties of a list of fields. -/
def propertyFragments (known : KnownTypes) (inGroup : Bool) (fields : List Field) :
    Except GenerationError (List Fragment) := do
  let properties ← fields.mapM (known.property inGroup)
  return properties.flatMap Property.fragments

/-- The layout of a group of fields, under a comment that says what it is. -/
def groupFragments (known : KnownTypes) (group : OneOf) :
    Except GenerationError (List Fragment) := do
  let properties ← known.propertyFragments true group.fields
  return .comment (group.name ++ ": At most one of these fields will be non-null") ::
    Fragment.comments (Text.docLines group.documentation) ++ properties

/-- The layout of all properties of a record, with an empty line before each group that something
precedes. -/
def memberFragments (known : KnownTypes) (record : Record) :
    Except GenerationError (List Fragment) := do
  let fields ← known.propertyFragments false record.fields
  let groups ← record.oneOfs.mapM known.groupFragments
  return TypeScript.Class.separated ((if fields.isEmpty then [] else [fields]) ++ groups)

end KnownTypes

namespace Record

/-- The parameter for a required field. -/
def param (field : Field) : Except GenerationError Param := do
  let type ← field.type.fieldType false
  return { name := field.memberName, type := type, defaultValue := field.literal? }

/-- The constructor of a record's class. Required fields are parameters; if there are other
fields, a trailing callback can set them. A record without fields has no constructor. -/
def constructor? (record : Record) (className : String) :
    Except GenerationError (Option Constructor) :=
  if record.fieldCount = 0 then
    .ok none
  else do
    let params ← record.requiredFields.mapM param
    return some
      { params := params
        configured := if params.length < record.fieldCount then some className else none
        multiline := true }

end Record

namespace KnownTypes

/-- The class of a record. Types nested in it have declarations of their own. -/
def recordClass (known : KnownTypes) (record : Record) :
    Except GenerationError TypeScript.Class := do
  let name ← record.type.className
  let members ← known.memberFragments record
  let method ← record.constructor? name
  return { name := name
           exported := if record.type.isRoot then .asDefault else .named
           doc := Text.docLines record.documentation
           sections := [members, (method.map Constructor.fragments).getD []] }

/-- The types for which writing the class of a record leaves placeholders, in order and with
repetitions. A field that fails ends the writing, so nothing behind it leaves one. -/
def placeholders (known : KnownTypes) (record : Record) : List TypeName :=
  match record.type.className with
  | .error _ => []
  | .ok _ =>
    ((record.allFields.takeWhile fun field => (known.property false field).isOk).map
      Field.type).filter fun type => !type.isScalar && !known.contains type

end KnownTypes

end Typescribe
