import Typescribe.Schema.Form

/-!
# Decoding of declarations

Each object of a schema has its form. Records are the only ones that hold declarations, so their
form takes the decoder of the declarations inside them.
-/

namespace Typescribe.Decoding

/-! ## The objects of a schema -/

/-- The values of a field's keys. -/
structure FieldDraft where
  name : Option String := none
  jsonName : Option (Option String) := none
  type : Option TypeName := none
  cardinality : Option Cardinality := none
  defaultValue : Option (Option String) := none
  documentation : Option String := none

/-- How a field is decoded. -/
def field : Form FieldDraft Field where
  title := "struct Field"
  keys := ["name", "json_name", "type", "cardinality", "default", "documentation"]
  start := {}
  put draft key value :=
    match key with
    | "name" => return { draft with name := ← once key draft.name text value }
    | "json_name" => return { draft with jsonName := ← once key draft.jsonName optionalText value }
    | "type" => return { draft with type := ← once key draft.type typeName value }
    | "cardinality" =>
      return { draft with cardinality := ← once key draft.cardinality cardinality value }
    | "default" =>
      return { draft with defaultValue := ← once key draft.defaultValue optionalText value }
    | "documentation" =>
      return { draft with documentation := ← once key draft.documentation text value }
    | _ => return draft
  finish draft := do
    let name ← need "name" draft.name
    let type ← need "type" draft.type
    return { name := name
             jsonName := draft.jsonName.getD none
             type := type
             cardinality := draft.cardinality.getD .required
             defaultValue := draft.defaultValue.getD none
             documentation := draft.documentation.getD "" }

/-- The values of a group's keys. -/
structure OneOfDraft where
  name : Option String := none
  documentation : Option String := none
  fields : Option (List Field) := none

/-- How a group is decoded. -/
def oneOf : Form OneOfDraft OneOf where
  title := "struct OneOf"
  keys := ["name", "documentation", "fields"]
  start := {}
  put draft key value :=
    match key with
    | "name" => return { draft with name := ← once key draft.name text value }
    | "documentation" =>
      return { draft with documentation := ← once key draft.documentation text value }
    | "fields" => return { draft with fields := ← once key draft.fields (list field.ofJson) value }
    | _ => return draft
  finish draft := do
    let name ← need "name" draft.name
    return { name := name
             documentation := draft.documentation.getD ""
             fields := draft.fields.getD [] }

/-- The values of a constant's keys. -/
structure EnumConstantDraft where
  name : Option String := none
  documentation : Option String := none

/-- How a constant is decoded. -/
def enumConstant : Form EnumConstantDraft EnumConstant where
  title := "struct EnumConstant"
  keys := ["name", "documentation"]
  start := {}
  put draft key value :=
    match key with
    | "name" => return { draft with name := ← once key draft.name text value }
    | "documentation" =>
      return { draft with documentation := ← once key draft.documentation text value }
    | _ => return draft
  finish draft := do
    let name ← need "name" draft.name
    return { name := name, documentation := draft.documentation.getD "" }

/-- The values of an enumeration's keys. -/
structure EnumerationDraft where
  type : Option TypeName := none
  documentation : Option String := none
  constants : Option (List EnumConstant) := none

/-- How an enumeration is decoded. -/
def enumeration : Form EnumerationDraft Enumeration where
  title := "struct Enum"
  keys := ["type", "documentation", "constants"]
  start := {}
  put draft key value :=
    match key with
    | "type" => return { draft with type := ← once key draft.type typeName value }
    | "documentation" =>
      return { draft with documentation := ← once key draft.documentation text value }
    | "constants" =>
      return { draft with constants := ← once key draft.constants (list enumConstant.ofJson) value }
    | _ => return draft
  finish draft := do
    let type ← need "type" draft.type
    return { type := type
             documentation := draft.documentation.getD ""
             constants := draft.constants.getD [] }

/-- The values of a procedure's keys. -/
structure RpcDraft where
  name : Option String := none
  requestType : Option TypeName := none
  responseType : Option TypeName := none
  documentation : Option String := none

/-- How a procedure is decoded. -/
def rpc : Form RpcDraft Rpc where
  title := "struct Rpc"
  keys := ["name", "request_type", "response_type", "documentation"]
  start := {}
  put draft key value :=
    match key with
    | "name" => return { draft with name := ← once key draft.name text value }
    | "request_type" =>
      return { draft with requestType := ← once key draft.requestType typeName value }
    | "response_type" =>
      return { draft with responseType := ← once key draft.responseType typeName value }
    | "documentation" =>
      return { draft with documentation := ← once key draft.documentation text value }
    | _ => return draft
  finish draft := do
    let name ← need "name" draft.name
    let requestType ← need "request_type" draft.requestType
    let responseType ← need "response_type" draft.responseType
    return { name := name
             requestType := requestType
             responseType := responseType
             documentation := draft.documentation.getD "" }

/-- The values of a service's keys. -/
structure ServiceDraft where
  type : Option TypeName := none
  documentation : Option String := none
  rpcs : Option (List Rpc) := none

/-- How a service is decoded. -/
def service : Form ServiceDraft Service where
  title := "struct Service"
  keys := ["type", "documentation", "rpcs"]
  start := {}
  put draft key value :=
    match key with
    | "type" => return { draft with type := ← once key draft.type typeName value }
    | "documentation" =>
      return { draft with documentation := ← once key draft.documentation text value }
    | "rpcs" => return { draft with rpcs := ← once key draft.rpcs (list rpc.ofJson) value }
    | _ => return draft
  finish draft := do
    let type ← need "type" draft.type
    return { type := type
             documentation := draft.documentation.getD ""
             rpcs := draft.rpcs.getD [] }

/-- The values of a record's keys. -/
structure RecordDraft where
  type : Option TypeName := none
  documentation : Option String := none
  fields : Option (List Field) := none
  oneOfs : Option (List OneOf) := none
  nested : Option (List Declaration) := none

/-- How a record is decoded, when `nested` decodes the declarations inside it. -/
def record (nested : Json → Result (List Declaration)) : Form RecordDraft Declaration where
  title := "struct Record"
  keys := ["type", "documentation", "fields", "one_ofs", "nested"]
  start := {}
  put draft key value :=
    match key with
    | "type" => return { draft with type := ← once key draft.type typeName value }
    | "documentation" =>
      return { draft with documentation := ← once key draft.documentation text value }
    | "fields" => return { draft with fields := ← once key draft.fields (list field.ofJson) value }
    | "one_ofs" => return { draft with oneOfs := ← once key draft.oneOfs (list oneOf.ofJson) value }
    | "nested" => return { draft with nested := ← once key draft.nested nested value }
    | _ => return draft
  finish draft := do
    let type ← need "type" draft.type
    return .record
      { type := type
        documentation := draft.documentation.getD ""
        fields := draft.fields.getD []
        oneOfs := draft.oneOfs.getD [] }
      (draft.nested.getD [])

/-! ## Declarations -/

/-- The kind among the members of a declaration inside another, behind the kind that was already
found. -/
def kindAmong (found : Option DeclarationKind) :
    List (String × Json) → Result (Option DeclarationKind)
  | [] => .ok found
  | (key, value) :: rest =>
    if key = "kind" then
      if found.isSome then .error (.duplicateField "kind")
      else do
        let value ← kind value
        kindAmong (some value) rest
    else kindAmong found rest

/-- The kind of a declaration has to be there. -/
def needKind : Option DeclarationKind → Result DeclarationKind
  | some kind => .ok kind
  | none => .error (.missingField "kind")

/-- A declaration of the given kind from the members of an object. -/
def declarationOfMembers (nested : Json → Result (List Declaration)) (kind : DeclarationKind)
    (members : List (String × Json)) : Result Declaration :=
  match kind with
  | .record => (record nested).ofMembers members
  | .enumeration => return .enumeration (← enumeration.ofMembers members)
  | .service => return .service (← service.ofMembers members)

/-- A declaration of the given kind from the items of an array behind the kind. -/
def declarationOfItems (nested : Json → Result (List Declaration)) (kind : DeclarationKind)
    (items : List Json) : Result Declaration :=
  match kind with
  | .record => (record nested).ofItems items
  | .enumeration => return .enumeration (← enumeration.ofItems items)
  | .service => return .service (← service.ofItems items)

/-- What messages call a declaration. -/
def declarationTitle : String := "internally tagged enum TypeDecl"

/-- Decodes a declaration inside another. The first argument bounds the levels of nesting. -/
def declaration : Nat → Json → Result Declaration
  | 0, value => .error (.invalidType value.shape declarationTitle)
  | levels + 1, value =>
    match value with
    | .object members => do
      let found ← kindAmong none members
      let kind ← needKind found
      declarationOfMembers (list (declaration levels)) kind members
    | .array [] => .error (.missingField "kind")
    | .array (first :: items) => do
      let kind ← kind first
      declarationOfItems (list (declaration levels)) kind items
    | other => .error (.invalidType other.shape declarationTitle)

end Typescribe.Decoding
