import Typescribe.Json.Passing

/-!
# JSON texts

A text is read once, from left to right, into a tree that holds its first fault, if it has one.
-/

namespace Typescribe.JsonText

/-- What could be read, and what follows it if reading can go on. -/
structure Reading where
  tree : JsonTree
  rest : Except JsonFault (List Char)
  deriving Inhabited

namespace Reading

/-- A fault in the place of a value. -/
def fault (fault : JsonFault) : Reading :=
  ⟨.fault fault, .error fault⟩

/-- An array that a fault stops. The items are given the last one first. -/
def stoppedArray (items : List JsonTree) (fault : JsonFault) : Reading :=
  ⟨.array items.reverse (some fault), .error fault⟩

/-- An object that a fault stops. The members are given the last one first. -/
def stoppedObject (members : List (String × JsonTree)) (fault : JsonFault) : Reading :=
  ⟨.object members.reverse (some fault), .error fault⟩

/-- A value that is passed over, as what follows it says. -/
def passed : Except JsonFault (List Char) → Reading
  | .ok rest => ⟨.null, .ok rest⟩
  | .error fault => ⟨.fault fault, .error fault⟩

end Reading

/-- How deeply arrays and objects may nest. -/
def maxDepth : Nat := 127

/-- A value that is one word. -/
def readWord (tree : JsonTree) (word text : List Char) : Reading :=
  match expectWord word text with
  | .ok rest => ⟨tree, .ok rest⟩
  | .error fault => .fault fault

/-- A value that is neither an array nor an object. -/
def readScalar : List Char → Reading
  | [] => .fault .ended
  | 'n' :: rest => readWord .null "ull".toList rest
  | 't' :: rest => readWord (.bool true) "rue".toList rest
  | 'f' :: rest => readWord (.bool false) "alse".toList rest
  | '"' :: rest =>
    match readString true [] .plain rest with
    | .ok (text, rest) => ⟨.string text, .ok rest⟩
    | .error fault => .fault fault
  | c :: rest =>
    if c = '-' ∨ c.isDigit then
      match readNumeral true (c :: rest) with
      | .error fault => .fault fault
      | .ok (numeral, rest) =>
        match numeral.value with
        | .ok number => ⟨.number number, .ok rest⟩
        | .error fault => .fault fault
    else .fault .malformed

mutual

/-- Reads a value with the given number of levels left for nesting. The members of the outermost
object that `passed` picks are passed over. The first argument bounds the number of steps. -/
def readValue : Nat → Nat → (String → Bool) → List Char → Reading
  | 0, _, _, _ => .fault .malformed
  | steps + 1, levels, passed, text =>
    match skipBlanks text with
    | [] => .fault .ended
    | c :: rest =>
      if c = '[' ∨ c = '\x7b' then
        match levels with
        | 0 => .fault .malformed
        | levels + 1 =>
          if c = '[' then readItems steps levels [] true rest
          else readMembers steps levels passed [] true rest
      else readScalar (c :: rest)

/-- Reads one item of an array and the items behind it. -/
def readItem : Nat → Nat → List JsonTree → List Char → Reading
  | 0, _, items, _ => .stoppedArray items .malformed
  | steps + 1, levels, items, text =>
    match readValue steps levels (fun _ => false) text with
    | ⟨tree, .error fault⟩ => .stoppedArray (tree :: items) fault
    | ⟨tree, .ok rest⟩ => readItems steps levels (tree :: items) false rest

/-- Reads the rest of an array. The items read so far are given the last one first. A comma calls
for an item, so what is wrong behind it stands in the place of that item. -/
def readItems : Nat → Nat → List JsonTree → Bool → List Char → Reading
  | 0, _, items, _, _ => .stoppedArray items .malformed
  | steps + 1, levels, items, isFirst, text =>
    match skipBlanks text with
    | [] => .stoppedArray items .ended
    | c :: rest =>
      if c = ']' then ⟨.array items.reverse none, .ok rest⟩
      else if isFirst then readItem steps levels items (c :: rest)
      else if c = ',' then readItem steps levels items rest
      else .stoppedArray items .malformed

/-- Reads one member of an object, from the opening quote of its key on, and the members behind
it. -/
def readMember : Nat → Nat → (String → Bool) → List (String × JsonTree) → List Char → Reading
  | 0, _, _, members, _ => .stoppedObject members .malformed
  | _ + 1, _, _, members, [] => .stoppedObject members .ended
  | steps + 1, levels, passed, members, c :: rest =>
    if c = '"' then
      match readString true [] .plain rest with
      | .error fault => .stoppedObject members fault
      | .ok (key, rest) =>
        match skipBlanks rest with
        | [] => .stoppedObject ((key, .fault .ended) :: members) .ended
        | colon :: rest =>
          if colon = ':' then
            match if passed key then .passed (passValue rest)
              else readValue steps levels (fun _ => false) rest with
            | ⟨tree, .error fault⟩ => .stoppedObject ((key, tree) :: members) fault
            | ⟨tree, .ok rest⟩ =>
              readMembers steps levels passed ((key, tree) :: members) false rest
          else .stoppedObject ((key, .fault .malformed) :: members) .malformed
    else .stoppedObject members .malformed

/-- Reads the rest of an object. The members read so far are given the last one first. -/
def readMembers :
    Nat → Nat → (String → Bool) → List (String × JsonTree) → Bool → List Char → Reading
  | 0, _, _, members, _, _ => .stoppedObject members .malformed
  | steps + 1, levels, passed, members, isFirst, text =>
    match skipBlanks text with
    | [] => .stoppedObject members .ended
    | c :: rest =>
      if c = '\x7d' then ⟨.object members.reverse none, .ok rest⟩
      else if isFirst then readMember steps levels passed members (c :: rest)
      else if c = ',' then readMember steps levels passed members (skipBlanks rest)
      else .stoppedObject members .malformed

end

/-- Reads a text, passing over the members of the outermost object that `passed` picks. Nothing
but blanks may follow the value; a fault there comes after everything in the tree. -/
def read (passed : String → Bool) (text : String) : JsonTree × Option JsonFault :=
  let chars := text.toList
  let reading := readValue (3 * chars.length + 3) maxDepth passed chars
  match reading.rest with
  | .ok rest => (reading.tree, if (skipBlanks rest).isEmpty then none else some .malformed)
  | .error fault => (reading.tree, some fault)

end Typescribe.JsonText
