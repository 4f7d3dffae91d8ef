import Typescribe.Json.Writer
import Typescribe.Schema.Declaration

/-!
# Schema files as JSON: encoding

Every key is written, whether its value is the default or not, in the order of the array form.
-/

namespace Typescribe

/-- The name of a cardinality. -/
def Cardinality.name : Cardinality → String
  | required => "required"
  | optional => "optional"
  | repeated => "repeated"

namespace Encoding

/-- A text that may be missing. -/
def optionalText : Option String → Json
  | some text => .string text
  | none => .null

/-- A field. -/
def field (item : Field) : Json :=
  .object
    [("name", .string item.name),
      ("json_name", optionalText item.jsonName),
      ("type", .string item.type.text),
      ("cardinality", .string item.cardinality.name),
      ("default", optionalText item.defaultValue),
      ("documentation", .string item.documentation)]

/-- A group of fields. -/
def oneOf (item : OneOf) : Json :=
  .object
    [("name", .string item.name),
      ("documentation", .string item.documentation),
      ("fields", .array (item.fields.map field))]

/-- A constant of an enumeration. -/
def enumConstant (item : EnumConstant) : Json :=
  .object [("name", .string item.name), ("documentation", .string item.documentation)]

/-- A procedure. -/
def rpc (item : Rpc) : Json :=
  .object
    [("name", .string item.name),
      ("request_type", .string item.requestType.text),
      ("response_type", .string item.responseType.text),
      ("documentation", .string item.documentation)]

mutual

/-- A declaration. -/
def declaration : Declaration → Json
  | .record head nested =>
    .object
      [("kind", .string "record"),
        ("type", .string head.type.text),
        ("documentation", .string head.documentation),
        ("fields", .array (head.fields.map field)),
        ("one_ofs", .array (head.oneOfs.map oneOf)),
        ("nested", .array (declarations nested))]
  | .enumeration body =>
    .object
      [("kind", .string "enum"),
        ("type", .string body.type.text),
        ("documentation", .string body.documentation),
        ("constants", .array (body.constants.map enumConstant))]
  | .service body =>
    .object
      [("kind", .string "service"),
        ("type", .string body.type.text),
        ("documentation", .string body.documentation),
        ("rpcs", .array (body.rpcs.map rpc))]

/-- A list of declarations. -/
def declarations : List Declaration → List Json
  | [] => []
  | first :: rest => declaration first :: declarations rest

end

end Encoding

/-- The JSON value that encodes a schema file. -/
def SchemaFile.toJson (file : SchemaFile) : Json :=
  .object
    [("name", .string file.name),
      ("declarations", .array (Encoding.declarations file.declarations))]

end Typescribe
