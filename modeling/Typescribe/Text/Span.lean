/-!
# Places in a text

Places are counted in bytes of UTF-8.
-/

namespace Typescribe.Text

/-- A part of a text. -/
structure Span where
  offset : Nat
  length : Nat
  deriving DecidableEq, Repr

/-- The number of bytes of a text. -/
def byteLength : List Char → Nat
  | [] => 0
  | c :: rest => c.utf8Size + byteLength rest

/-- The offsets of the occurrences of a pattern in a text that starts at an offset, when the given
number of characters is still to be passed over. -/
def occurrencesFrom (pattern : List Char) : Nat → Nat → List Char → List Nat
  | _, _, [] => []
  | skipped + 1, offset, c :: rest => occurrencesFrom pattern skipped (offset + c.utf8Size) rest
  | 0, offset, c :: rest =>
    if pattern.isPrefixOf (c :: rest) then
      offset :: occurrencesFrom pattern (pattern.length - 1) (offset + c.utf8Size) rest
    else
      occurrencesFrom pattern 0 (offset + c.utf8Size) rest

/-- The offsets of the occurrences of a pattern, from left to right. Occurrences do not
overlap. -/
def occurrences (pattern text : List Char) : List Nat :=
  occurrencesFrom pattern 0 0 text

end Typescribe.Text
