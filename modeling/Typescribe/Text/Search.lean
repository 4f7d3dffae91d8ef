/-!
# Occurrences of a text in a text

Occurrences are taken from left to right and do not overlap. The text that is looked for is never
empty.
-/

namespace Typescribe.Text

/-- The texts before and after the first occurrence of a pattern. -/
def cutFirst? (pattern : List Char) : List Char → Option (List Char × List Char)
  | [] => none
  | c :: rest =>
    if pattern.isPrefixOf (c :: rest) then
      some ([], (c :: rest).drop pattern.length)
    else
      (cutFirst? pattern rest).map fun cut => (c :: cut.1, cut.2)

/-- What stands after an occurrence of a non-empty pattern is shorter than the whole. -/
theorem length_lt_of_cutFirst? {pattern text before after : List Char} (nonempty : pattern ≠ [])
    (cut : cutFirst? pattern text = some (before, after)) : after.length < text.length := by
  induction text generalizing before with
  | nil => simp [cutFirst?] at cut
  | cons c rest ih =>
    rw [cutFirst?] at cut
    split at cut
    · simp only [Option.some.injEq, Prod.mk.injEq] at cut
      obtain ⟨-, rfl⟩ := cut
      have positive : 0 < pattern.length := List.length_pos_iff.mpr nonempty
      simp only [List.length_drop, List.length_cons]
      omega
    · simp only [Option.map_eq_some_iff, Prod.exists, Prod.mk.injEq] at cut
      obtain ⟨inner, tail, found, -, rfl⟩ := cut
      have shorter := ih found
      simp only [List.length_cons]
      omega

/-- A text with every occurrence of a pattern replaced, when the given number of characters is
still to be passed over. -/
def replaceFrom (pattern replacement : List Char) : Nat → List Char → List Char
  | _, [] => []
  | skipped + 1, _ :: rest => replaceFrom pattern replacement skipped rest
  | 0, c :: rest =>
    if pattern.isPrefixOf (c :: rest) then
      replacement ++ replaceFrom pattern replacement (pattern.length - 1) rest
    else
      c :: replaceFrom pattern replacement 0 rest

/-- A text with every occurrence of a pattern replaced. -/
def replaceAll (pattern replacement text : List Char) : List Char :=
  replaceFrom pattern replacement 0 text

end Typescribe.Text
