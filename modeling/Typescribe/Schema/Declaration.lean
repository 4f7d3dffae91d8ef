import Typescribe.Schema.TypeName

/-!
# Declarations

A schema declares records, enumerations and services. Records hold fields and groups of mutually
exclusive fields, and may declare further types inside themselves; this is the only recursion.
-/

namespace Typescribe

/-- How many values a field holds. -/
inductive Cardinality where
  | required
  | optional
  | repeated
  deriving DecidableEq, Repr

/-- A field of a record. -/
structure Field where
  name : String
  /-- The name used in JSON, preferred over `name` where it is given. -/
  jsonName : Option String := none
  type : TypeName
  cardinality : Cardinality := .required
  /-- The default value as written in the schema. -/
  defaultValue : Option String := none
  documentation : String := ""
  deriving DecidableEq, Repr

namespace Field

/-- The name of the class member that holds the field. -/
def memberName (field : Field) : String :=
  field.jsonName.getD field.name

/-- Whether the field holds a list. -/
def isRepeated (field : Field) : Bool :=
  field.cardinality == .repeated

/-- Whether the field must be given a value when its record is built. -/
def isRequired (field : Field) : Bool :=
  field.cardinality == .required

end Field

/-- A group of fields of which at most one is set. -/
structure OneOf where
  name : String
  documentation : String := ""
  fields : List Field := []
  deriving DecidableEq, Repr

/-- What a record declares about itself, the types nested in it apart. -/
structure Record where
  type : TypeName
  documentation : String := ""
  fields : List Field := []
  oneOfs : List OneOf := []
  deriving DecidableEq, Repr

namespace Record

/-- The declared fields, then the fields of each group. -/
def allFields (record : Record) : List Field :=
  record.fields ++ record.oneOfs.flatMap OneOf.fields

/-- The declared fields that are required. A group has none. -/
def requiredFields (record : Record) : List Field :=
  record.fields.filter Field.isRequired

/-- The number of fields, those of the groups included. -/
def fieldCount (record : Record) : Nat :=
  record.allFields.length

/-- The types of the fields that are not scalars, in order and with repetitions. -/
def referencedTypes (record : Record) : List TypeName :=
  (record.allFields.map Field.type).filter fun type => !type.isScalar

end Record

/-- One value of an enumeration. -/
structure EnumConstant where
  name : String
  documentation : String := ""
  deriving DecidableEq, Repr

/-- An enumeration. -/
structure Enumeration where
  type : TypeName
  documentation : String := ""
  constants : List EnumConstant := []
  deriving DecidableEq, Repr

/-- A remote procedure. -/
structure Rpc where
  name : String
  requestType : TypeName
  responseType : TypeName
  documentation : String := ""
  deriving DecidableEq, Repr

/-- A service, which offers remote procedures. -/
structure Service where
  type : TypeName
  documentation : String := ""
  rpcs : List Rpc := []
  deriving DecidableEq, Repr

namespace Service

/-- The name of the service without its package. -/
def name (service : Service) : String :=
  service.type.simpleName

/-- The request and response type of each procedure, in order. -/
def rpcTypes (service : Service) : List TypeName :=
  service.rpcs.flatMap fun rpc => [rpc.requestType, rpc.responseType]

end Service

/-- The three kinds of declaration. -/
inductive DeclarationKind where
  | record
  | enumeration
  | service
  deriving DecidableEq, Repr

/-- The name of a kind, in schema files and in messages. -/
def DeclarationKind.name : DeclarationKind → String
  | record => "record"
  | enumeration => "enum"
  | service => "service"

/-- A declaration of a schema. -/
inductive Declaration where
  | record (head : Record) (nested : List Declaration)
  | enumeration (body : Enumeration)
  | service (body : Service)

namespace Declaration

/-- The name of the declared type. -/
def type : Declaration → TypeName
  | record head _ => head.type
  | enumeration body => body.type
  | service body => body.type

/-- The kind of the declaration. -/
def kind : Declaration → DeclarationKind
  | record _ _ => .record
  | enumeration _ => .enumeration
  | service _ => .service

/-- The documentation of the declared type. -/
def documentation : Declaration → String
  | record head _ => head.documentation
  | enumeration body => body.documentation
  | service body => body.documentation

/-- The declarations directly inside this one. -/
def nestedTypes : Declaration → List Declaration
  | record _ nested => nested
  | enumeration _ => []
  | service _ => []

/-- Whether the declaration is of a service. -/
def isService : Declaration → Bool
  | service _ => true
  | _ => false

mutual

/-- This declaration and everything nested in it, each type before the types inside it. -/
def flatten : Declaration → List Declaration
  | record head nested => record head nested :: flattenAll nested
  | enumeration body => [enumeration body]
  | service body => [service body]

/-- The declarations of a list, each followed by everything nested in it. -/
def flattenAll : List Declaration → List Declaration
  | [] => []
  | first :: rest => first.flatten ++ flattenAll rest

end

mutual

/-- The types that fields of this type and of the types nested in it refer to, scalars apart, in
declaration order and with repetitions. -/
def referencedTypes : Declaration → List TypeName
  | record head nested => head.referencedTypes ++ referencedTypesAll nested
  | enumeration _ => []
  | service _ => []

/-- The types that the declarations of a list refer to. -/
def referencedTypesAll : List Declaration → List TypeName
  | [] => []
  | first :: rest => first.referencedTypes ++ referencedTypesAll rest

end

end Declaration

/-- One schema source and what it declares. -/
structure SchemaFile where
  /-- What the source is called in messages. -/
  name : String
  declarations : List Declaration := []

namespace SchemaFile

/-- Everything the file declares, nested types included. -/
def allTypes (file : SchemaFile) : List Declaration :=
  Declaration.flattenAll file.declarations

/-- The top-level records and enumerations. -/
def dataTypes (file : SchemaFile) : List Declaration :=
  file.declarations.filter fun declaration => !declaration.isService

/-- The top-level services. -/
def services (file : SchemaFile) : List Service :=
  file.declarations.filterMap fun
    | .service service => some service
    | _ => none

end SchemaFile

end Typescribe
