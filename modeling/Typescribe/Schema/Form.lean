import Typescribe.Schema.Declaration
import Typescribe.Schema.Problem

/-!
# Decoding of single values and of objects

Unknown keys of an object are ignored, and a key with a default may be left out. Any object may
also be written as an array of its values in the order of its keys.
-/

namespace Typescribe.Decoding

/-- What decoding yields. -/
abbrev Result (α : Type) := Except SchemaProblem α

/-! ## Single values -/

/-- A text. -/
def text : Json → Result String
  | .string value => .ok value
  | other => .error (.invalidType other.shape "a string")

/-- A text, or nothing. -/
def optionalText : Json → Result (Option String)
  | .null => .ok none
  | other => do
    let value ← text other
    return some value

/-- A type name. -/
def typeName (value : Json) : Result TypeName := do
  let name ← text value
  return ⟨name⟩

/-- A list of values that are decoded one by one. -/
def list {α : Type} (item : Json → Result α) : Json → Result (List α)
  | .array items => items.mapM item
  | other => .error (.invalidType other.shape "a sequence")

/-- The cardinality of the given name. -/
def cardinalityOfName (name : String) : Result Cardinality :=
  match name with
  | "required" => .ok .required
  | "optional" => .ok .optional
  | "repeated" => .ok .repeated
  | _ => .error (.unknownVariant name ["required", "optional", "repeated"])

/-- Nothing, which is also written as an empty object. -/
def nothing : Json → Result Unit
  | .null => .ok ()
  | .object [] => .ok ()
  | other => .error (.invalidType other.shape "unit")

/-- A cardinality: its name, or an object with its name as the only key. -/
def cardinality : Json → Result Cardinality
  | .string name => cardinalityOfName name
  | .object [(name, content)] => do
    let value ← cardinalityOfName name
    nothing content
    return value
  | .object _ => .error (.invalidValue .map "map with a single key")
  | other => .error (.invalidType other.shape "string or map")

/-- The kind of the given name. -/
def kindOfName (name : String) : Result DeclarationKind :=
  match name with
  | "record" => .ok .record
  | "enum" => .ok .enumeration
  | "service" => .ok .service
  | _ => .error (.unknownVariant name ["record", "enum", "service"])

/-- The kind of a declaration inside another: its name, or its number. -/
def kind : Json → Result DeclarationKind
  | .string name => kindOfName name
  | .number (.natural 0) => .ok .record
  | .number (.natural 1) => .ok .enumeration
  | .number (.natural 2) => .ok .service
  | .number (.natural index) =>
    .error (.invalidValue (.number (.natural index)) "variant index 0 <= i < 3")
  | other => .error (.invalidType other.shape "variant identifier")

/-! ## Objects and their array form -/

/-- How an object is decoded: the values of its keys are collected in a draft, from which the
result is made at the end. -/
structure Form (δ α : Type) where
  /-- What messages call the object. -/
  title : String
  /-- The keys in the order of the array form. -/
  keys : List String
  start : δ
  /-- Adds the value of a key. An unknown key adds nothing. -/
  put : δ → String → Json → Result δ
  /-- The result, or the first key that is missing. -/
  finish : δ → Except String α

/-- The value of a key that may be given once. -/
def once {β : Type} (key : String) (slot : Option β) (item : Json → Result β) (value : Json) :
    Result (Option β) :=
  if slot.isSome then .error (.duplicateField key)
  else do
    let value ← item value
    return some value

/-- A value that has to be there. -/
def need {β : Type} (key : String) : Option β → Except String β
  | some value => .ok value
  | none => .error key

/-- How messages count elements. -/
def elements (count : Nat) : String :=
  count.repr ++ if count = 1 then " element" else " elements"

namespace Form

variable {δ α : Type} (form : Form δ α)

/-- The result of a draft made from an object. -/
def finishMembers (draft : δ) : Result α :=
  match form.finish draft with
  | .ok result => .ok result
  | .error key => .error (.missingField key)

/-- The result of a draft made from an array with the given number of items. -/
def finishItems (draft : δ) (count : Nat) : Result α :=
  match form.finish draft with
  | .error key =>
    .error (.invalidLength (form.keys.idxOf key)
      (form.title ++ " with " ++ elements form.keys.length))
  | .ok result =>
    if form.keys.length < count then
      .error (.invalidLength count (elements form.keys.length ++ " in sequence"))
    else .ok result

/-- Decodes the members of an object. -/
def ofMembers (members : List (String × Json)) : Result α := do
  let draft ← members.foldlM (fun draft member => form.put draft member.1 member.2) form.start
  form.finishMembers draft

/-- Decodes the items of an array. -/
def ofItems (items : List Json) : Result α := do
  let draft ← (form.keys.zip items).foldlM
    (fun draft member => form.put draft member.1 member.2) form.start
  form.finishItems draft items.length

/-- Decodes an object or an array. -/
def ofJson : Json → Result α
  | .object members => form.ofMembers members
  | .array items => form.ofItems items
  | other => .error (.invalidType other.shape form.title)

end Form

end Typescribe.Decoding
