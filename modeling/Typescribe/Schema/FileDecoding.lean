import Typescribe.Json.Text
import Typescribe.Schema.Decoding

/-!
# Decoding of schema files

The first problem in the order of the text is the one that is reported. A top-level declaration is
read whole before anything in it but its kind is looked at.
-/

namespace Typescribe

namespace Decoding

/-- A fault of the text as a problem. -/
def ofText {α : Type} : Except JsonFault α → Result α
  | .ok value => .ok value
  | .error fault => .error (.text fault)

/-- The problem of a tree that is not what is expected. A fault in its place comes first. -/
def mismatch (tree : JsonTree) (expected : String) : SchemaProblem :=
  match tree with
  | .fault fault => .text fault
  | .null => .invalidType .null expected
  | .bool value => .invalidType (.bool value) expected
  | .number value => .invalidType (.number value) expected
  | .string value => .invalidType (.string value) expected
  | .array _ _ => .invalidType .sequence expected
  | .object _ _ => .invalidType .map expected

/-- A text. -/
def textOfTree : JsonTree → Result String
  | .string value => .ok value
  | other => .error (mismatch other "a string")

/-- The kind of a top-level declaration, which is given by its name. -/
def kindOfTree : JsonTree → Result DeclarationKind
  | .string name => kindOfName name
  | other => .error (mismatch other "variant identifier")

/-- The kind and the other members of a top-level declaration, behind those already found. The
kind is looked at as it is met; all else is only read. -/
def splitKind (found : Option DeclarationKind) :
    List (String × JsonTree) → Result (Option DeclarationKind × List (String × Json))
  | [] => .ok (found, [])
  | (key, tree) :: rest =>
    if key = "kind" then
      if found.isSome then .error (.duplicateField "kind")
      else do
        let kind ← kindOfTree tree
        splitKind (some kind) rest
    else do
      let value ← ofText tree.value
      let (found, members) ← splitKind found rest
      return (found, (key, value) :: members)

/-- Decodes a top-level declaration. -/
def declarationOfTree : JsonTree → Result Declaration
  | .object members stop => do
    let (found, members) ← splitKind none members
    ofText (JsonTree.ending stop)
    let kind ← needKind found
    declarationOfMembers (list (declaration (Json.membersDepth members))) kind members
  | .array items stop => do
    match items with
    | [] =>
      ofText (JsonTree.ending stop)
      throw (.missingField "kind")
    | first :: items =>
      let kind ← kindOfTree first
      let items ← ofText (JsonTree.itemValues items)
      ofText (JsonTree.ending stop)
      declarationOfItems (list (declaration (Json.itemsDepth items))) kind items
  | other => .error (mismatch other declarationTitle)

/-- Decodes the declarations of a file. -/
def declarationsOfTree : JsonTree → Result (List Declaration)
  | .array items stop => do
    let declarations ← items.mapM declarationOfTree
    ofText (JsonTree.ending stop)
    return declarations
  | other => .error (mismatch other "a sequence")

/-- The values of a file's keys. -/
structure FileDraft where
  name : Option String := none
  declarations : Option (List Declaration) := none

/-- The keys of a file. -/
def fileKeys : List String := ["name", "declarations"]

/-- Adds the value of a key of a file. The value of an unknown key only has to be JSON. -/
def FileDraft.put (draft : FileDraft) (key : String) (tree : JsonTree) : Result FileDraft :=
  match key with
  | "name" =>
    if draft.name.isSome then .error (.duplicateField key)
    else return { draft with name := some (← textOfTree tree) }
  | "declarations" =>
    if draft.declarations.isSome then .error (.duplicateField key)
    else return { draft with declarations := some (← declarationsOfTree tree) }
  | _ => do
    let _ ← ofText tree.value
    return draft

/-- What messages call a file. -/
def fileTitle : String := "struct SchemaFile"

/-- Decodes a file. In its array form nothing may follow the declarations. -/
def fileOfTree : JsonTree → Result SchemaFile
  | .object members stop => do
    let draft ← members.foldlM
      (fun draft member => FileDraft.put draft member.1 member.2) ({} : FileDraft)
    ofText (JsonTree.ending stop)
    match draft.name with
    | none => throw (.missingField "name")
    | some name => return { name := name, declarations := draft.declarations.getD [] }
  | .array items stop =>
    match items with
    | [] => do
      ofText (JsonTree.ending stop)
      throw (.invalidLength 0 (fileTitle ++ " with " ++ elements fileKeys.length))
    | [first] => do
      let name ← textOfTree first
      ofText (JsonTree.ending stop)
      return { name := name }
    | first :: second :: rest => do
      let name ← textOfTree first
      let declarations ← declarationsOfTree second
      if !rest.isEmpty then throw (.text .malformed)
      ofText (JsonTree.ending stop)
      return { name := name, declarations := declarations }
  | other => .error (mismatch other fileTitle)

end Decoding

/-- The declaration that a JSON value encodes. -/
def Declaration.ofJson (value : Json) : Except SchemaProblem Declaration :=
  Decoding.declarationOfTree (JsonTree.ofJson value)

namespace SchemaFile

/-- The schema file that a JSON value encodes. -/
def ofJson (value : Json) : Except SchemaProblem SchemaFile :=
  Decoding.fileOfTree (JsonTree.ofJson value)

/-- The schema file that a text encodes. Values of unknown keys of the file are passed over. -/
def ofText (text : String) : Except SchemaProblem SchemaFile := do
  let (tree, fault) := JsonText.read (fun key => !Decoding.fileKeys.contains key) text
  let file ← Decoding.fileOfTree tree
  match fault with
  | none => return file
  | some fault => throw (.text fault)

end SchemaFile

end Typescribe
