import Typescribe.Toml.Quoted
import Typescribe.Toml.Table

/-!
# TOML documents

A document is a list of lines, each of which opens a table or gives a value to a key. Arrays and
tables between braces may run over several lines.
-/

namespace Typescribe.Toml

/-! ## Between the parts -/

/-- Whether a character is a blank inside a line. -/
def isLineBlank (c : Char) : Bool :=
  c == ' ' || c == '\t'

/-- A text without the blanks in front. -/
def skipLineBlanks (text : List Char) : List Char :=
  text.dropWhile isLineBlank

/-- What follows blanks, line ends and comments. -/
def skipGap (isComment : Bool) : List Char → Option (List Char)
  | [] => some []
  | '\r' :: '\n' :: rest => skipGap false rest
  | c :: rest =>
    if c = '\n' then skipGap false rest
    else if isComment then if isTextChar c then skipGap true rest else none
    else if isLineBlank c then skipGap false rest
    else if c = '#' then skipGap true rest
    else some (c :: rest)

/-- What follows the end of a line, in front of which only blanks and a comment may stand. -/
def endLine (isComment : Bool) : List Char → Option (List Char)
  | [] => some []
  | '\r' :: '\n' :: rest => some rest
  | c :: rest =>
    if c = '\n' then some rest
    else if isComment then if isTextChar c then endLine true rest else none
    else if isLineBlank c then endLine false rest
    else if c = '#' then endLine true rest
    else none

/-- The part of a text of the given length that lies between two of its ends. -/
def spanOf (total : Nat) (start stop : List Char) : Text.Span :=
  ⟨total - Text.byteLength start, Text.byteLength start - Text.byteLength stop⟩

/-- How deeply arrays and tables may nest inside a value, and how many parts a key may have. -/
def maxDepth : Nat := 80

/-! ## Keys -/

/-- Whether a character may stand in a key without quotes. -/
def isBareKeyChar (c : Char) : Bool :=
  c.isAlphanum || c == '_' || c == '-'

/-- Reads one part of a key. -/
def keyPart? (text : List Char) : Option (String × List Char) :=
  match text with
  | [] => none
  | c :: rest =>
    if c = singleQuote ∨ c = doubleQuote then
      if [c, c].isPrefixOf rest then none else lineString? text
    else
      match text.takeWhile isBareKeyChar with
      | [] => none
      | found => some (String.ofList found, text.dropWhile isBareKeyChar)

/-- Reads a key, whose parts dots divide, and the blanks behind it. The first argument is the
number of parts that it may have. -/
def keys? : Nat → Nat → List Char → Option (List TomlKey × List Char)
  | 0, _, _ => none
  | parts + 1, total, text => do
    let (name, rest) ← keyPart? text
    let key : TomlKey := ⟨name, spanOf total text rest⟩
    match skipLineBlanks rest with
    | '.' :: rest =>
      let (others, rest) ← keys? parts total (skipLineBlanks rest)
      return (key :: others, rest)
    | rest => return ([key], rest)

/-! ## Values -/

/-- Whether a character may belong to a value without quotes. -/
def isTokenChar (c : Char) : Bool :=
  ' ' < c && !"[]\x7b\x7d,#=\"\x27".toList.contains c

/-- The characters of a value without quotes, and what follows them. The time of a day may stand
behind the day and a space. -/
def token (text : List Char) : List Char × List Char :=
  let first := text.takeWhile isTokenChar
  match text.dropWhile isTokenChar with
  | ' ' :: c :: rest =>
    if isDate first && c.isDigit then
      (first ++ ' ' :: (c :: rest).takeWhile isTokenChar, (c :: rest).dropWhile isTokenChar)
    else (first, ' ' :: c :: rest)
  | rest => (first, rest)

/-- Reads a value that is neither an array nor a table. -/
def scalar? (text : List Char) : Option (Toml × List Char) :=
  match text with
  | [] => none
  | c :: _ =>
    if c = singleQuote ∨ c = doubleQuote then do
      let (value, rest) ← anyString? text
      return (.string value, rest)
    else do
      let (found, rest) := token text
      let value ← ofToken? found
      return (value, rest)

mutual

/-- Reads a value with the given number of levels left for nesting. The first argument bounds the
number of steps. -/
def value? : Nat → Nat → Nat → List Char → Option (Toml × List Char)
  | 0, _, _, _ => none
  | steps + 1, levels, total, text =>
    match text with
    | '[' :: rest =>
      match levels with
      | 0 => none
      | levels + 1 => items? steps levels total [] rest
    | '\x7b' :: rest =>
      match levels with
      | 0 => none
      | levels + 1 => braces? steps levels total { origin := .braces } rest
    | text => scalar? text

/-- Reads the rest of an array, in front of an item or the end. The items read so far are given
the last one first. -/
def items? : Nat → Nat → Nat → List (Text.Span × Toml) → List Char → Option (Toml × List Char)
  | 0, _, _, _, _ => none
  | steps + 1, levels, total, seen, text => do
    match ← skipGap false text with
    | ']' :: rest => return (.array .brackets seen.reverse, rest)
    | start =>
      let (value, rest) ← value? steps levels total start
      let seen := (spanOf total start rest, value) :: seen
      match ← skipGap false rest with
      | ',' :: rest => items? steps levels total seen rest
      | ']' :: rest => return (.array .brackets seen.reverse, rest)
      | _ => none

/-- Reads the rest of a table between braces, in front of a key or the end. -/
def braces? : Nat → Nat → Nat → Draft → List Char → Option (Toml × List Char)
  | 0, _, _, _, _ => none
  | steps + 1, levels, total, draft, text => do
    match ← skipGap false text with
    | '\x7d' :: rest => return (draft.table, rest)
    | start =>
      let (keys, rest) ← keys? maxDepth total start
      match ← skipGap false rest with
      | '=' :: rest =>
        let start ← skipGap false rest
        let (value, rest) ← value? steps levels total start
        let draft ← assign keys (spanOf total start rest) value draft
        match ← skipGap false rest with
        | ',' :: rest => braces? steps levels total draft rest
        | '\x7d' :: rest => return (draft.table, rest)
        | _ => none
      | _ => none

end

/-! ## Lines -/

/-- A document read so far: its contents, and the keys of the header that was opened last. -/
structure State where
  draft : Draft := { origin := .header }
  header : List TomlKey := []

/-- What follows the end of a header. -/
def headerEnd? (isItem : Bool) : List Char → Option (List Char)
  | ']' :: rest => if isItem then expectChar? ']' rest else some rest
  | _ => none

/-- Reads the header that starts with the given text, behind its brackets. -/
def header? (total : Nat) (start : List Char) (isItem : Bool) (text : List Char) (state : State) :
    Option (State × List Char) := do
  let (keys, rest) ← keys? maxDepth total (skipLineBlanks text)
  let rest ← headerEnd? isItem rest
  let draft ← openHeader isItem keys (spanOf total start rest) state.draft
  return ({ draft, header := keys }, rest)

/-- Reads a key and its value. -/
def assignment? (total : Nat) (text : List Char) (state : State) :
    Option (State × List Char) := do
  let (keys, rest) ← keys? maxDepth total text
  let start := skipLineBlanks (← expectChar? '=' rest)
  let (value, rest) ← value? (2 * text.length + 2) maxDepth total start
  let draft ← inOpened (assign keys (spanOf total start rest) value) state.header state.draft
  return ({ state with draft }, rest)

/-- Reads the lines of a document. The first argument bounds their number. -/
def lines? : Nat → Nat → List Char → State → Option Draft
  | 0, _, _, _ => none
  | lines + 1, total, text, state => do
    match ← skipGap false text with
    | [] => return state.draft
    | start =>
      let (state, rest) ←
        match start with
        | '[' :: '[' :: rest => header? total start true rest state
        | '[' :: rest => header? total start false rest state
        | _ => assignment? total start state
      lines? lines total (← endLine false rest) state

/-- The entries of a document. A byte order mark in front does not count. -/
def ofText? (text : String) : Option (List TomlEntry) :=
  let chars := text.toList
  let body := if chars.head? = some '\ufeff' then chars.tail else chars
  (lines? (chars.length + 1) (Text.byteLength chars) body {}).map Draft.entries

end Typescribe.Toml
