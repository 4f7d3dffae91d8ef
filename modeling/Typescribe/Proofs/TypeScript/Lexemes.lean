import Typescribe.Layout.Fragment
import Typescribe.Proofs.Text.DocLines
import Typescribe.Proofs.Text.Literal

/-!
# Comments and string literals as they are read

A line of code ends at any of four characters, of which the line feed is one. A comment is read up
to the first of them, and a string literal must not hold any. So a documentation is in its comments
as a whole, and a default value in its literal, exactly if no such character is in the way.
-/

namespace Typescribe.TypeScript

open Text

/-- The characters that end a line of code: line feed, carriage return, line separator and paragraph
separator. -/
def isLineTerminator (c : Char) : Bool :=
  c == '\n' || c == '\r' || c == '\u2028' || c == '\u2029'

/-- A text that no character cuts into lines of code. -/
def OneLine (text : List Char) : Prop :=
  ∀ c ∈ text, isLineTerminator c = false

instance (text : List Char) : Decidable (OneLine text) :=
  List.decidableBAll (fun c => isLineTerminator c = false) text

/-- Reads a comment: the two slashes and what stands behind them on the line, and the rest of the
text from where the line ends. -/
def readComment? (text : List Char) : Option (List Char × List Char) :=
  if ['/', '/'].isPrefixOf text then
    some (text.takeWhile fun c => !isLineTerminator c, text.dropWhile fun c => !isLineTerminator c)
  else
    none

/-- Reads a string literal from behind its opening quote: its value and the rest of the text. A
literal ends on the line on which it starts. -/
def readString? (text : List Char) : Option (List Char × List Char) :=
  readLiteral? (fun c => !isLineTerminator c) text

/-- Between two line feeds, the documentation has a character that ends a line of code and behind it
one that is not blank. -/
def Overruns (documentation : List Char) : Prop :=
  ∃ line ∈ documentation.splitOn '\n', ∃ before c after,
    line = before ++ c :: after ∧ isLineTerminator c = true ∧ ∃ d ∈ after, isBlank d = false

theorem isBlank_of_isLineTerminator {c : Char} (terminates : isLineTerminator c = true) :
    isBlank c = true := by
  simp only [isLineTerminator, Bool.or_eq_true, beq_iff_eq, or_assoc] at terminates
  rcases terminates with rfl | rfl | rfl | rfl <;> decide

/-- A line has a line terminator when it is trimmed if something that is not blank stands behind
one. -/
theorem exists_mem_trimEnd_iff {line : List Char} :
    (∃ c ∈ trimEnd line, isLineTerminator c = true) ↔
      ∃ before c after, line = before ++ c :: after ∧ isLineTerminator c = true ∧
        ∃ d ∈ after, isBlank d = false := by
  constructor
  · rintro ⟨c, inside, terminates⟩
    obtain ⟨before, rest, split⟩ := List.append_of_mem inside
    obtain ⟨blanks, whole⟩ := trimEnd_isPrefix line
    rw [split] at whole
    refine ⟨before, c, rest ++ blanks, by rw [← whole, List.append_assoc, List.cons_append],
      terminates, ?_⟩
    -- The last character is not blank, so the line terminator is not the last.
    have solid := isBlank_getLast?_trimEnd line
    rw [split, List.getLast?_append, List.getLast?_cons] at solid
    cases last : rest.getLast? with
    | none =>
      rw [last] at solid
      have blank := isBlank_of_isLineTerminator terminates
      rw [solid c rfl] at blank
      cases blank
    | some d =>
      rw [last] at solid
      exact ⟨d, List.mem_append_left _ (List.mem_of_getLast? last), solid d rfl⟩
  · rintro ⟨before, c, after, rfl, terminates, d, inside, solid⟩
    obtain ⟨between, rest, rfl⟩ := List.append_of_mem inside
    refine ⟨c, ?_, terminates⟩
    rw [← List.cons_append, ← List.append_assoc, trimEnd_append_cons solid]
    simp

/-- The comment lines of a documentation are lines of code exactly if it does not overrun them. -/
theorem oneLine_docLines_iff (documentation : String) :
    (∀ line ∈ docLines documentation, OneLine line.toList) ↔ ¬ Overruns documentation.toList := by
  rw [← not_iff_not, not_not]
  simp only [OneLine, not_forall, Bool.not_eq_false]
  constructor
  · rintro ⟨line, listed, c, inside, terminates⟩
    obtain ⟨piece, isPiece, same⟩ := exists_piece_of_mem_docLines listed
    -- Only an empty line may be more than what stands between two line feeds.
    have nonempty : line.toList ≠ [] := List.ne_nil_of_mem inside
    have trimmed : line.toList ∈ (lineChars documentation.toList).map trimEnd := by
      rw [same]
      exact List.mem_map_of_mem (List.mem_map_of_mem isPiece)
    obtain ⟨between, split, trimmedTo⟩ :=
      List.mem_map.mp ((mem_map_trimEnd_iff nonempty).mp trimmed)
    rw [← trimmedTo] at inside
    exact ⟨between, split, exists_mem_trimEnd_iff.mp ⟨c, inside, terminates⟩⟩
  · rintro ⟨between, split, overruns⟩
    obtain ⟨c, inside, terminates⟩ := exists_mem_trimEnd_iff.mpr overruns
    have nonempty : trimEnd between ≠ [] := List.ne_nil_of_mem inside
    have trimmed := (mem_map_trimEnd_iff nonempty).mpr (List.mem_map_of_mem split)
    -- What the line terminator stands in is not blank, so that it is not dropped at the ends.
    have solid : allBlank (String.ofList (trimEnd between)) = false := by
      rw [← isEmpty_trimEnd, List.isEmpty_eq_false_iff]
      exact nonempty
    have kept : String.ofList (trimEnd between) ∈ docLines documentation := by
      obtain ⟨line, listed, same⟩ := List.mem_map.mp trimmed
      rw [mem_docLines_iff solid, trimmedLines, lines, List.map_map, ← same]
      exact List.mem_map.mpr ⟨line, listed, by simp⟩
    exact ⟨_, kept, c, by rwa [String.toList_ofList], terminates⟩

/-- A comment is read up to the end of its line, and so as a whole exactly if it is one line. -/
theorem readComment?_iff {comment : List Char} (slashes : ['/', '/'] <+: comment)
    (after : List Char) :
    readComment? (comment ++ '\n' :: after) = some (comment, '\n' :: after) ↔ OneLine comment := by
  have starts : ['/', '/'].isPrefixOf (comment ++ '\n' :: after) = true :=
    List.isPrefixOf_iff_prefix.mpr (slashes.trans (List.prefix_append _ _))
  have ends : isLineTerminator '\n' = true := by decide
  rw [readComment?, if_pos starts, Option.some.injEq, Prod.mk.injEq]
  constructor
  · rintro ⟨taken, -⟩ c inside
    rw [← taken] at inside
    simpa using List.mem_takeWhile_imp inside
  · intro oneLine
    have passed : ∀ c ∈ comment, (!isLineTerminator c) = true := fun c inside => by
      simp [oneLine c inside]
    rw [List.takeWhile_append_of_pos passed, List.dropWhile_append_of_pos passed,
      List.takeWhile_cons_of_neg (by simp [ends]), List.dropWhile_cons_of_neg (by simp [ends])]
    simp

/-- The slashes in front of a line do not change whether it is one. -/
theorem oneLine_commentText (line : String) :
    OneLine (Fragment.commentText line).toList ↔ OneLine line.toList := by
  have lead : OneLine "// ".toList := by decide
  rw [Fragment.commentText]
  split
  next empty =>
    rw [String.isEmpty_iff.mp empty]
    decide
  next =>
    rw [String.toList_append]
    exact List.forall_mem_append.trans (and_iff_right lead)

section

variable {value : String} (unquoted : ¬ Quoted value.toList)
include unquoted

/-- Line terminators are not escaped. -/
theorem oneLine_quote : OneLine (quote value).toList ↔ OneLine value.toList := by
  have escaped (c : Char) : OneLine (escapeChar c) ↔ isLineTerminator c = false := by
    rw [escapeChar]
    split
    next same =>
      rw [same]
      decide
    next =>
      split
      next same =>
        rw [same]
        decide
      next => exact List.forall_mem_singleton
  have quoteSign : isLineTerminator '"' = false := by decide
  simp only [OneLine] at escaped ⊢
  rw [toList_quote unquoted, List.forall_mem_cons, List.forall_mem_append,
    List.forall_mem_singleton, List.forall_mem_flatMap]
  simp only [escaped, quoteSign, true_and, and_true]

/-- A default value is read back from its literal if it is one line, and otherwise the literal does
not end on the line on which it starts. -/
theorem readString?_quote (after : List Char) :
    readString? ((quote value).toList.tail ++ after) =
      if OneLine value.toList then some (value.toList, after) else none := by
  have allowed : (value.toList.all fun c => !isLineTerminator c) = true ↔ OneLine value.toList := by
    simp [OneLine]
  rw [readString?, toList_quote unquoted, List.tail_cons, List.append_assoc, List.singleton_append,
    readLiteral?_escape (by decide) (by decide)]
  exact if_congr allowed rfl rfl

end

end Typescribe.TypeScript
