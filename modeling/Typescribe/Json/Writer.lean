import Typescribe.Json.Value

/-!
# JSON texts: writing

Values are written without blanks. Only what JSON forbids inside a string is escaped.
-/

namespace Typescribe.Json

/-- A hexadecimal digit. -/
def hexChar (digit : Nat) : Char :=
  (Nat.toDigits 16 (digit % 16)).headD '0'

/-- A character inside a string. -/
def escapeChar (c : Char) : List Char :=
  match c with
  | '"' => ['\\', '"']
  | '\\' => ['\\', '\\']
  | '\x08' => ['\\', 'b']
  | '\x0c' => ['\\', 'f']
  | '\n' => ['\\', 'n']
  | '\r' => ['\\', 'r']
  | '\t' => ['\\', 't']
  | c =>
    if c.toNat < 0x20 then ['\\', 'u', '0', '0', hexChar (c.toNat / 16), hexChar c.toNat] else [c]

/-- A string as written. -/
def writeString (text : String) : String :=
  String.ofList ('"' :: text.toList.flatMap escapeChar ++ ['"'])

/-- A number as written. -/
def writeNumber : JsonNumber → String
  | .natural value => value.repr
  | .negative value => "-" ++ value.repr
  | .double value => JsonNumber.format.write value

mutual

/-- A value as written. -/
def write : Json → String
  | null => "null"
  | bool value => if value then "true" else "false"
  | number value => writeNumber value
  | string value => writeString value
  | array items => "[" ++ String.intercalate "," (writeItems items) ++ "]"
  | object members => "\x7b" ++ String.intercalate "," (writeMembers members) ++ "\x7d"

/-- The items of an array as written. -/
def writeItems : List Json → List String
  | [] => []
  | item :: rest => item.write :: writeItems rest

/-- The members of an object as written. -/
def writeMembers : List (String × Json) → List String
  | [] => []
  | (key, value) :: rest => (writeString key ++ ":" ++ value.write) :: writeMembers rest

end

end Typescribe.Json
