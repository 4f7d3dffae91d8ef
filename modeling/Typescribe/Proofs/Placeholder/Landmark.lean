import Typescribe.Generation.References
import Typescribe.Proofs.Placeholder.Marks
import Typescribe.Proofs.Text.Lines

/-!
# Texts that replacing tokens keeps

A token of a brace-free type has its opening braces side by side and its closing braces at its
end. So it overlaps no text that has a brace of its own with other characters around it, such as
the head of a class. Whatever else a file holds, replacing tokens keeps these texts.
-/

namespace Typescribe.Placeholder

open Text

/-- A text around an opening brace that stands alone, with no other brace before it. -/
inductive Landmark : List Char → Prop where
  | intro {before after : List Char} (nonempty : before ≠ []) (plain : Braceless before)
      (behind : after ≠ []) (single : '{' ∉ after) : Landmark (before ++ '{' :: after)

variable {type part text line : List Char}

/-- A token's end does not reach into a text without braces before its first opening brace. -/
theorem not_prefix_of_tokenChars_eq {left right before rest : List Char}
    (split : tokenChars type = left ++ right) (startsBefore : left ≠ []) (goesOn : right ≠ [])
    (typePlain : Braceless type) (nonempty : before ≠ []) (plain : Braceless before) :
    ¬ right <+: before ++ '{' :: rest := by
  intro reaches
  have inside : '{' ∉ "fieldDecorator:".toList ++ (type ++ closing) := by
    simp only [List.mem_append, not_or]
    exact ⟨by decide, typePlain.1, by decide⟩
  have comparable := List.prefix_or_prefix_of_prefix reaches (List.prefix_append before _)
  rw [tokenChars_eq] at split
  match left with
  | [] => exact startsBefore rfl
  | [c] =>
    -- What is left of the token starts with a brace, and the text before the brace does not.
    rw [List.singleton_append, List.cons.injEq] at split
    obtain ⟨d, rest, rfl⟩ := List.exists_cons_of_ne_nil nonempty
    rw [← split.2, List.cons_append, List.cons_prefix_cons] at reaches
    exact plain.1 (reaches.1 ▸ List.mem_cons_self)
  | c :: d :: left =>
    rw [List.cons_append, List.cons_append, List.cons.injEq, List.cons.injEq] at split
    have whole : ("fieldDecorator:".toList ++ (type ++ closing)).getLast? = some '}' := by
      rw [List.getLast?_append, List.getLast?_append]
      rfl
    have ends : '}' ∈ right := by
      rw [split.2.2, List.getLast?_append, List.getLast?_eq_some_getLast goesOn, Option.some_or,
        Option.some.injEq] at whole
      exact whole ▸ List.getLast_mem goesOn
    rcases comparable with short | ⟨more, rfl⟩
    · exact plain.2 (short.subset ends)
    · rw [List.prefix_append_right_inj] at reaches
      cases more with
      | nil => exact plain.2 (List.append_nil before ▸ ends)
      | cons e more =>
        apply inside
        rw [split.2.2, (List.cons_prefix_cons.mp reaches).1]
        simp

/-- Replacing the token of a brace-free type keeps every landmark. -/
theorem Landmark.infix_replaceAll (landmark : Landmark part) (typePlain : Braceless type)
    (replacement : List Char) (found : part <:+: text) :
    part <:+: replaceAll (tokenChars type) replacement text := by
  obtain ⟨nonempty, plain, behind, single⟩ := landmark
  apply Text.infix_replaceAll (tokenChars_ne_nil type) _ _ found
  · intro after
    rw [tokenChars_eq]
    apply Apart.append (apart_of_head_not_mem plain.1)
    rw [apart_cons_iff]
    refine ⟨?_, apart_of_head_not_mem single⟩
    obtain ⟨c, rest, rfl⟩ := List.exists_cons_of_ne_nil behind
    intro opens
    have twice := (List.cons_prefix_cons.mp opens).2
    exact single ((List.cons_prefix_cons.mp twice).1 ▸ List.mem_cons_self)
  · intro left right split startsBefore goesOn after
    rw [List.append_assoc, List.cons_append]
    exact not_prefix_of_tokenChars_eq split startsBefore goesOn typePlain nonempty plain

/-- What every replacement keeps, patching keeps. -/
theorem apply_induction (holds : List Char → Prop) (patch : Patch)
    (step : ∀ entry ∈ patch.replacements, ∀ text, holds text →
      holds (replaceAll (tokenChars entry.1.text.toList) entry.2.toList text))
    {text : String} (start : holds text.toList) : holds (patch.apply text).toList := by
  obtain ⟨path, replacements⟩ := patch
  rw [Patch.apply, String.toList_ofList]
  generalize text.toList = chars at start
  induction replacements generalizing chars with
  | nil => exact start
  | cons entry rest ih =>
    obtain ⟨first, later⟩ := List.forall_mem_cons.mp step
    exact ih later _ (first chars start)

/-- Patching keeps every line with a landmark. -/
theorem HasLine.apply (landmark : Landmark ('\n' :: (line ++ ['\n']))) (patch : Patch)
    (typesPlain : ∀ entry ∈ patch.replacements, Braceless entry.1.text.toList) {text : String}
    (has : HasLine text.toList line) : HasLine (patch.apply text).toList line := by
  refine apply_induction (HasLine · line) patch (fun entry listed chars has => ?_) has
  have kept := landmark.infix_replaceAll (typesPlain entry listed) entry.2.toList has
  rwa [replaceAll_cons] at kept
  rw [tokenChars_eq]
  exact fun opens => absurd (List.cons_prefix_cons.mp opens).1 (by decide)

/-- Patching keeps a settled beginning. -/
theorem Settled.isPrefix_apply (settled : Settled part) (patch : Patch) {text : String}
    (leads : part <+: text.toList) : part <+: (patch.apply text).toList := by
  refine apply_induction (part <+: ·) patch (fun entry _ chars leads => ?_) leads
  obtain ⟨rest, rfl⟩ := leads
  have apart : Apart (tokenChars entry.1.text.toList) part rest :=
    (settled.apart rest).of_isPrefix (opening_prefix_tokenChars _)
  rw [replaceAll_append_of_apart apart]
  exact List.prefix_append _ _

/-- A line that opens a block behind a text without braces is a landmark, also if the block is
closed at once. -/
theorem landmark_line {head line : String} (plain : Braceless head.toList)
    (opens : line ∈ [head ++ " \x7b", head ++ " \x7b\x7d"]) :
    Landmark ('\n' :: (line.toList ++ ['\n'])) := by
  have lineFeed : Braceless ['\n'] := by decide
  have leading : Braceless ('\n' :: (head.toList ++ [' '])) :=
    lineFeed.append (plain.append (by decide))
  have landmark : ∀ rest : List Char, '{' ∉ rest →
      Landmark (('\n' :: (head.toList ++ [' '])) ++ '{' :: (rest ++ ['\n'])) := fun rest single =>
    .intro (List.cons_ne_nil _ _) leading (by simp) (by simpa using single)
  rcases List.mem_pair.mp opens with rfl | rfl
  · simpa using landmark [] (by decide)
  · simpa using landmark ['}'] (by decide)

end Typescribe.Placeholder
