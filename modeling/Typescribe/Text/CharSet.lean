/-!
# Sets of characters

A character property is a list of runs of code points. The property tables of this library are
values of `CharSet`; what they are used for stands with the functions that read them.
-/

namespace Typescribe.Text

/-- The code points `first`, `first + step`, `first + 2 * step`, … up to `last`. Alphabets that
alternate between two cases need one run of step two for each case. -/
structure CharRun where
  first : Nat
  last : Nat
  step : Nat

/-- Whether a code point belongs to the run. -/
def CharRun.contains (run : CharRun) (code : Nat) : Bool :=
  decide (run.first ≤ code) && decide (code ≤ run.last) && (code - run.first) % run.step == 0

/-- A set of characters, as the union of its runs. -/
abbrev CharSet := List CharRun

/-- Whether a character belongs to the set. -/
def CharSet.contains (set : CharSet) (c : Char) : Bool :=
  set.any fun run => run.contains c.toNat

end Typescribe.Text
