/-!
# Texts as bytes

Bytes are read as UTF-8. What is not UTF-8 falls into parts, each of which either cannot start a
character or is as much of one as there is.
-/

namespace Typescribe.Text

/-- What the first bytes of a sequence of bytes are. -/
inductive Utf8Part where
  /-- A character of the given number of bytes. -/
  | char (found : Char) (size : Nat)
  /-- A number of bytes that belong to no character. -/
  | invalid (size : Nat)

/-- Whether a byte is in a range. -/
def inRange (low high byte : Nat) : Bool :=
  decide (low ≤ byte) && decide (byte ≤ high)

/-- What a leading byte calls for: the number of bytes that follow, and the range of the first
of them. -/
def utf8Lead? (byte : Nat) : Option (Nat × Nat × Nat) :=
  if inRange 0xC2 0xDF byte then some (1, 0x80, 0xBF)
  else if byte = 0xE0 then some (2, 0xA0, 0xBF)
  else if byte = 0xED then some (2, 0x80, 0x9F)
  else if inRange 0xE1 0xEF byte then some (2, 0x80, 0xBF)
  else if byte = 0xF0 then some (3, 0x90, 0xBF)
  else if byte = 0xF4 then some (3, 0x80, 0x8F)
  else if inRange 0xF1 0xF3 byte then some (3, 0x80, 0xBF)
  else none

/-- The part that a leading byte starts, when the given number of bytes has to follow, the first
of them in the given range. `seen` bytes of the part have been read, of the given value. -/
def utf8Tail (seen value : Nat) : Nat → Nat → Nat → List UInt8 → Utf8Part
  | 0, _, _, _ => .char (Char.ofNat value) seen
  | _ + 1, _, _, [] => .invalid seen
  | left + 1, low, high, byte :: rest =>
    if inRange low high byte.toNat then
      utf8Tail (seen + 1) (value * 64 + (byte.toNat - 0x80)) left 0x80 0xBF rest
    else .invalid seen

/-- The part that bytes start with. -/
def utf8Part (first : UInt8) (rest : List UInt8) : Utf8Part :=
  let byte := first.toNat
  if byte < 0x80 then .char (Char.ofNat byte) 1
  else
    match utf8Lead? byte with
    | none => .invalid 1
    | some (count, low, high) =>
      let bits := if count = 1 then byte - 0xC0 else if count = 2 then byte - 0xE0 else byte - 0xF0
      utf8Tail 1 bits count low high rest

/-- The characters that bytes stand for, with nothing for each part that belongs to no character.
The given number of bytes is still to be passed over. -/
def utf8Chars : Nat → List UInt8 → List (Option Char)
  | _, [] => []
  | skipped + 1, _ :: rest => utf8Chars skipped rest
  | 0, byte :: rest =>
    match utf8Part byte rest with
    | .char found size => some found :: utf8Chars (size - 1) rest
    | .invalid size => none :: utf8Chars (size - 1) rest

/-- The text that bytes stand for, if they are UTF-8. -/
def ofUtf8? (bytes : List UInt8) : Option String :=
  ((utf8Chars 0 bytes).mapM id).map String.ofList

/-- The text that bytes stand for, with a replacement character for each part that belongs to no
character. -/
def ofUtf8Lossy (bytes : List UInt8) : String :=
  String.ofList ((utf8Chars 0 bytes).map fun found => found.getD '\ufffd')

end Typescribe.Text
