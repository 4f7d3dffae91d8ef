import Typescribe.Text.Blank

/-!
# Lines of a text

A line ends at a line feed. A carriage return belongs to the ending only when it stands directly
before a line feed, and a final line feed opens no further line.
-/

namespace Typescribe.Text

/-- The lines of a text with their endings kept, so that they concatenate to the text. -/
def pieces : List Char → List (List Char)
  | [] => []
  | c :: rest =>
    if c = '\n' then
      [c] :: pieces rest
    else
      match pieces rest with
      | [] => [[c]]
      | piece :: later => (c :: piece) :: later

/-- A line without its ending. -/
def body (piece : List Char) : List Char :=
  match piece.reverse with
  | '\n' :: '\r' :: rest => rest.reverse
  | '\n' :: rest => rest.reverse
  | _ => piece

/-- The lines of a text without their endings. -/
def lineChars (text : List Char) : List (List Char) :=
  (pieces text).map body

/-- The lines of a text without their endings. -/
def lines (text : String) : List String :=
  (lineChars text.toList).map String.ofList

/-- A list of lines without the empty ones at both ends. -/
def dropEmptyEnds (texts : List (List Char)) : List (List Char) :=
  ((texts.dropWhile List.isEmpty).reverse.dropWhile List.isEmpty).reverse

/-- The lines of a documentation text as they appear in comments: trailing blanks are trimmed from
every line, and blank lines at the start and at the end are dropped. -/
def docLineChars (text : List Char) : List (List Char) :=
  dropEmptyEnds ((lineChars text).map trimEnd)

/-- The comment lines of a documentation text. Blank documentation has none. -/
def docLines (text : String) : List String :=
  (docLineChars text.toList).map String.ofList

end Typescribe.Text
