import Typescribe.Json.Tree
import Typescribe.Text.Span

/-!
# Words and strings in JSON texts

A string is read character by character. Code points beyond the first plane are written as two
surrogates, which have to stand together wherever a string is wanted.
-/

namespace Typescribe.JsonText

/-- Whether a character may stand between the parts of a JSON text. -/
def isBlank (c : Char) : Bool :=
  c == ' ' || c == '\n' || c == '\t' || c == '\r'

/-- A text without the blanks in front. -/
def skipBlanks (text : List Char) : List Char :=
  text.dropWhile isBlank

/-- What follows an expected word. -/
def expectWord : List Char → List Char → Except JsonFault (List Char)
  | [], text => .ok text
  | _ :: _, [] => .error .ended
  | expected :: word, c :: rest =>
    if c = expected then expectWord word rest else .error .malformed

/-- The value of a hexadecimal digit. -/
def hexDigit? (c : Char) : Option Nat :=
  if '0' ≤ c ∧ c ≤ '9' then some (c.toNat - '0'.toNat)
  else if 'a' ≤ c ∧ c ≤ 'f' then some (c.toNat - 'a'.toNat + 10)
  else if 'A' ≤ c ∧ c ≤ 'F' then some (c.toNat - 'A'.toNat + 10)
  else none

/-- Where the reader of a string is. -/
inductive StringState where
  /-- Between characters. -/
  | plain
  /-- Behind a backslash. -/
  | escape
  /-- In a code unit of which the given number of digits is to come, behind the given leading
  surrogate if there is one. -/
  | unit (left value : Nat) (leading : Option Nat)
  /-- Behind a leading surrogate, where a backslash has to follow. -/
  | trailing (leading : Nat)
  /-- Behind that backslash, where another code unit has to follow. -/
  | trailingMark (leading : Nat)

/-- The character that a letter behind a backslash stands for. -/
def simpleEscape? : Char → Option Char
  | '"' => some '"'
  | '\\' => some '\\'
  | '/' => some '/'
  | 'b' => some '\x08'
  | 'f' => some '\x0c'
  | 'n' => some '\n'
  | 'r' => some '\r'
  | 't' => some '\t'
  | _ => none

/-- Whether fewer than the four bytes of a code unit are left. -/
def tooShortForUnit (text : List Char) : Bool :=
  decide (Text.byteLength (text.take 4) < 4)

/-- Whether a code unit is a leading surrogate. -/
def isLeading (unit : Nat) : Bool :=
  decide (0xD800 ≤ unit) && decide (unit < 0xDC00)

/-- Whether a code unit is a trailing surrogate. -/
def isTrailing (unit : Nat) : Bool :=
  decide (0xDC00 ≤ unit) && decide (unit < 0xE000)

/-- What a complete code unit leads to: the character it completes, if any, and the state behind
it. A text that is only passed over may hold surrogates without partners. -/
def endUnit (strict : Bool) (unit : Nat) (leading : Option Nat) :
    Except JsonFault (Option Char × StringState) :=
  if !strict then .ok (none, .plain)
  else
    match leading with
    | some first =>
      if isTrailing unit then
        .ok (some (Char.ofNat ((first - 0xD800) * 0x400 + (unit - 0xDC00) + 0x10000)), .plain)
      else .error .malformed
    | none =>
      if isTrailing unit then .error .malformed
      else if isLeading unit then .ok (none, .trailing unit)
      else .ok (some (Char.ofNat unit), .plain)

/-- Reads the rest of a string. `seen` holds the characters read so far, the last one first. -/
def readString (strict : Bool) (seen : List Char) :
    StringState → List Char → Except JsonFault (String × List Char)
  | _, [] => .error .ended
  | .plain, c :: rest =>
    if c = '"' then .ok (String.ofList seen.reverse, rest)
    else if c = '\\' then readString strict seen .escape rest
    else if c < ' ' then .error .malformed
    else readString strict (c :: seen) .plain rest
  | .escape, c :: rest =>
    if c = 'u' then
      if tooShortForUnit rest then .error .ended
      else readString strict seen (.unit 4 0 none) rest
    else
      match simpleEscape? c with
      | some character => readString strict (character :: seen) .plain rest
      | none => .error .malformed
  | .unit left value leading, c :: rest =>
    match hexDigit? c with
    | none => .error .malformed
    | some digit =>
      if left ≤ 1 then
        match endUnit strict (value * 16 + digit) leading with
        | .error fault => .error fault
        | .ok (some character, state) => readString strict (character :: seen) state rest
        | .ok (none, state) => readString strict seen state rest
      else readString strict seen (.unit (left - 1) (value * 16 + digit) leading) rest
  | .trailing leading, c :: rest =>
    if c = '\\' then readString strict seen (.trailingMark leading) rest else .error .malformed
  | .trailingMark leading, c :: rest =>
    if c = 'u' then
      if tooShortForUnit rest then .error .ended
      else readString strict seen (.unit 4 0 (some leading)) rest
    else .error .malformed

end Typescribe.JsonText
