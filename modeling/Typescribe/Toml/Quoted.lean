import Typescribe.Toml.Scalar

/-!
# TOML strings

A string stands between single quotes, in which nothing is escaped, or between double quotes, in
which backslashes introduce escapes. In triple quotes either may run over several lines.
-/

namespace Typescribe.Toml

/-- The character that encloses strings without escapes. -/
def singleQuote : Char := '\x27'

/-- The character that encloses strings with escapes. -/
def doubleQuote : Char := '"'

/-- Whether a character may stand in strings and comments as it is. -/
def isTextChar (c : Char) : Bool :=
  c == '\t' || (' ' ≤ c && c != '\x7f')

/-- The number of hexadecimal digits that follow the mark of a code point. -/
def codePointDigits? : Char → Option Nat
  | 'x' => some 2
  | 'u' => some 4
  | 'U' => some 8
  | _ => none

/-- The character that a letter behind a backslash stands for. -/
def simpleEscape? : Char → Option Char
  | 'b' => some '\x08'
  | 't' => some '\t'
  | 'n' => some '\n'
  | 'f' => some '\x0c'
  | 'r' => some '\r'
  | 'e' => some '\x1b'
  | '"' => some '"'
  | '\\' => some '\\'
  | _ => none

/-- The character of a code point. Surrogates have none. -/
def charOf? (code : Nat) : Option Char :=
  if code < 0xD800 ∨ (0xE000 ≤ code ∧ code < 0x110000) then some (Char.ofNat code) else none

/-- What a string stands between. -/
structure Quotes where
  mark : Char
  isMultiline : Bool

namespace Quotes

/-- Whether backslashes introduce escapes. -/
def hasEscapes (quotes : Quotes) : Bool :=
  quotes.mark == doubleQuote

/-- What ends a string. -/
def delimiter (quotes : Quotes) : List Char :=
  List.replicate (if quotes.isMultiline then 3 else 1) quotes.mark

end Quotes

/-- Where the reader of a string is. -/
inductive QuotedState where
  /-- Between characters. -/
  | plain
  /-- Behind a carriage return, where a line feed has to follow. -/
  | newline
  /-- Behind a backslash. -/
  | escape
  /-- In a code point of which the given number of digits is to come. -/
  | codePoint (left value : Nat)
  /-- Behind a backslash that joins lines, among blanks; whether the line has ended yet. -/
  | joining (hasEnded : Bool)

/-- Up to two quotes that stand before the end of a string over several lines, and what follows
the end. -/
def trailingQuotes (mark : Char) (afterEnd : List Char) : List Char × List Char :=
  let extra := (afterEnd.take 2).takeWhile fun c => c == mark
  (extra, afterEnd.drop extra.length)

/-- Reads the rest of a string. `seen` holds the characters read so far, the last one first. -/
def quotedFrom (quotes : Quotes) (seen : List Char) :
    QuotedState → List Char → Option (String × List Char)
  | _, [] => none
  | .plain, c :: rest =>
    if quotes.delimiter.isPrefixOf (c :: rest) then
      let afterEnd := (c :: rest).drop quotes.delimiter.length
      if quotes.isMultiline then
        let (extra, afterEnd) := trailingQuotes quotes.mark afterEnd
        some (String.ofList (seen.reverse ++ extra), afterEnd)
      else some (String.ofList seen.reverse, afterEnd)
    else if c = '\\' ∧ quotes.hasEscapes then quotedFrom quotes seen .escape rest
    else if isTextChar c then quotedFrom quotes (c :: seen) .plain rest
    else if c = '\n' ∧ quotes.isMultiline then quotedFrom quotes (c :: seen) .plain rest
    else if c = '\r' ∧ quotes.isMultiline then quotedFrom quotes (c :: seen) .newline rest
    else none
  | .newline, c :: rest =>
    if c = '\n' then quotedFrom quotes (c :: seen) .plain rest else none
  | .escape, c :: rest =>
    match codePointDigits? c, simpleEscape? c with
    | some count, _ => quotedFrom quotes seen (.codePoint count 0) rest
    | none, some found => quotedFrom quotes (found :: seen) .plain rest
    | none, none =>
      if !quotes.isMultiline then none
      else if c = ' ' ∨ c = '\t' then quotedFrom quotes seen (.joining false) rest
      else if c = '\n' then quotedFrom quotes seen (.joining true) rest
      else if c = '\r' ∧ rest.head? = some '\n' then quotedFrom quotes seen (.joining true) rest
      else none
  | .codePoint left value, c :: rest =>
    if !isHexDigit c then none
    else
      let value := value * 16 + digitValue c
      if 1 < left then quotedFrom quotes seen (.codePoint (left - 1) value) rest
      else
        match charOf? value with
        | some found => quotedFrom quotes (found :: seen) .plain rest
        | none => none
  | .joining hasEnded, c :: rest =>
    if c = ' ' ∨ c = '\t' then quotedFrom quotes seen (.joining hasEnded) rest
    else if c = '\n' then quotedFrom quotes seen (.joining true) rest
    else if c = '\r' ∧ rest.head? = some '\n' then quotedFrom quotes seen (.joining true) rest
    else if !hasEnded then none
    else if quotes.delimiter.isPrefixOf (c :: rest) then
      let (extra, afterEnd) :=
        trailingQuotes quotes.mark ((c :: rest).drop quotes.delimiter.length)
      some (String.ofList (seen.reverse ++ extra), afterEnd)
    else if c = '\\' then quotedFrom quotes seen .escape rest
    else if isTextChar c then quotedFrom quotes (c :: seen) .plain rest
    else none

/-- A text without a line ending in front. -/
def dropNewline : List Char → List Char
  | '\n' :: rest => rest
  | '\r' :: '\n' :: rest => rest
  | text => text

/-- Reads a string on one line. -/
def lineString? : List Char → Option (String × List Char)
  | [] => none
  | mark :: rest =>
    if mark = singleQuote ∨ mark = doubleQuote then quotedFrom ⟨mark, false⟩ [] .plain rest
    else none

/-- Reads a string. A line ending directly behind triple quotes does not count. -/
def anyString? : List Char → Option (String × List Char)
  | first :: second :: third :: rest =>
    if (first = singleQuote ∨ first = doubleQuote) ∧ first = second ∧ second = third then
      quotedFrom ⟨first, true⟩ [] .plain (dropNewline rest)
    else lineString? (first :: second :: third :: rest)
  | text => lineString? text

end Typescribe.Toml
