import Typescribe.Json.Value

/-!
# JSON texts as trees

What could be read of a text is kept as a tree even if the text is faulty: the fault then stands
in the tree where reading stopped, so that whoever walks the tree in order meets everything before
the fault first.
-/

namespace Typescribe

/-- Why a text stops being JSON. -/
inductive JsonFault where
  /-- The text ends too early. -/
  | ended
  /-- The text goes on in a way that JSON does not. -/
  | malformed
  deriving DecidableEq, Repr

/-- As much of a JSON value as could be read. -/
inductive JsonTree where
  | null
  | bool (value : Bool)
  | number (value : JsonNumber)
  | string (value : String)
  /-- An array, with the fault that stopped it behind its last item. -/
  | array (items : List JsonTree) (stop : Option JsonFault)
  /-- An object, with the fault that stopped it behind its last member. -/
  | object (members : List (String × JsonTree)) (stop : Option JsonFault)
  /-- A fault in the place of a value. -/
  | fault (fault : JsonFault)
  deriving Inhabited

namespace JsonTree

mutual

/-- The tree of a value, which has no faults. -/
def ofJson : Json → JsonTree
  | .null => .null
  | .bool value => .bool value
  | .number value => .number value
  | .string value => .string value
  | .array items => .array (ofItems items) none
  | .object members => .object (ofMembers members) none

/-- The trees of the items of an array. -/
def ofItems : List Json → List JsonTree
  | [] => []
  | item :: rest => ofJson item :: ofItems rest

/-- The trees of the members of an object. -/
def ofMembers : List (String × Json) → List (String × JsonTree)
  | [] => []
  | (key, value) :: rest => (key, ofJson value) :: ofMembers rest

end

/-- What ends a sequence of trees: nothing, or the fault that stopped it. -/
def ending : Option JsonFault → Except JsonFault Unit
  | none => .ok ()
  | some reason => .error reason

mutual

/-- The value of a tree, or the first fault in it. -/
def value : JsonTree → Except JsonFault Json
  | .null => .ok .null
  | .bool value => .ok (.bool value)
  | .number value => .ok (.number value)
  | .string value => .ok (.string value)
  | .array items stop => do
    let items ← itemValues items
    ending stop
    return .array items
  | .object members stop => do
    let members ← memberValues members
    ending stop
    return .object members
  | .fault reason => .error reason

/-- The values of the items of an array, or the first fault in them. -/
def itemValues : List JsonTree → Except JsonFault (List Json)
  | [] => .ok []
  | item :: rest => do
    let item ← item.value
    let rest ← itemValues rest
    return item :: rest

/-- The values of the members of an object, or the first fault in them. -/
def memberValues : List (String × JsonTree) → Except JsonFault (List (String × Json))
  | [] => .ok []
  | (key, tree) :: rest => do
    let value ← tree.value
    let rest ← memberValues rest
    return (key, value) :: rest

end

end JsonTree

end Typescribe
