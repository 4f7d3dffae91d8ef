/-!
# String literals of the target language

A default value is written between double quotes unless it already is a quoted literal.
-/

namespace Typescribe.Text

/-- Whether a text of at least two characters starts and ends with the given quote. -/
def enclosedBy (quote : Char) : List Char → Bool
  | first :: second :: rest => first == quote && (second :: rest).getLast? == some quote
  | _ => false

/-- Whether a text is written between a pair of double quotes or a pair of single quotes. -/
def isQuoted (text : List Char) : Bool :=
  enclosedBy '"' text || enclosedBy '\'' text

/-- A character inside a double-quoted literal: backslashes and double quotes are escaped. -/
def escapeChar (c : Char) : List Char :=
  if c = '\\' then ['\\', '\\'] else if c = '"' then ['\\', '"'] else [c]

/-- A text as a literal, character by character. -/
def quoteChars (text : List Char) : List Char :=
  if isQuoted text then text else '"' :: text.flatMap escapeChar ++ ['"']

/-- A text as a literal. A text that already is a quoted literal stays as it is. -/
def quote (text : String) : String :=
  String.ofList (quoteChars text.toList)

end Typescribe.Text
