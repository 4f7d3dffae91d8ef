import Typescribe.Text.Lines

/-!
# Comparing two texts line by line
-/

namespace Typescribe.Text

/-- How two different texts differ. -/
inductive Difference where
  /-- The first line, counted from one, in which the texts differ. A text that has ended has no
  such line. -/
  | atLine (number : Nat) (expected actual : Option String)
  /-- All lines agree, so that only line endings differ. -/
  | trailingNewlines
  deriving DecidableEq, Repr

namespace Difference

/-- The first difference between two lists of lines, the first of which has the given number. -/
def ofLines (number : Nat) : List String → List String → Difference
  | [], [] => trailingNewlines
  | expected :: restExpected, actual :: restActual =>
    if expected = actual then
      ofLines (number + 1) restExpected restActual
    else
      atLine number (some expected) (some actual)
  | expected, actual => atLine number expected.head? actual.head?

/-- The line as it is shown. -/
def shown (line : Option String) : String :=
  line.getD "<end of file>"

/-- What is said about a difference. -/
def message : Difference → String
  | atLine number expected actual =>
    "content differs at line " ++ number.repr ++ "\n  expected: " ++ shown expected ++
      "\n  actual:   " ++ shown actual
  | trailingNewlines => "content differs only in trailing newlines"

end Difference

/-- Compares a text with the expected one. Equal texts have no difference. -/
def difference (expected actual : String) : Option Difference :=
  if expected = actual then none else some (Difference.ofLines 1 (lines expected) (lines actual))

end Typescribe.Text
