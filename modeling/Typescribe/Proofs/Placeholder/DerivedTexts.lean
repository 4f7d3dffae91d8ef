import Typescribe.Proofs.Placeholder.Marks
import Typescribe.Proofs.Text.Lines
import Typescribe.Text.Casing
import Typescribe.Text.Literal

/-!
# Marks in derived texts

Comment lines, literals, routes and method names are made from texts of the schema. None of these
derivations makes a mark where there was none.
-/

namespace Typescribe

open Placeholder Text

namespace Text

theorem toNat_ofNat_cases (code : Nat) :
    (Char.ofNat code).toNat = code ∨ (Char.ofNat code).toNat = 0 := by
  by_cases valid : code.isValidChar
  · left
    rw [Char.ofNat, dif_pos valid]
    rfl
  · right
    rw [Char.ofNat, dif_neg valid]
    rfl

/-- A character that no case mapping leads to is in a lowercase only as its own. -/
theorem eq_of_mem_toLowercase {target c : Char} (member : target ∈ toLowercase c)
    (plain : target ≠ 'i' ∧ target ≠ '\u0307' ∧ 0 < target.toNat)
    (avoided : ∀ shift ∈ lowercaseShifts, (target.toNat : Int) < shift.run.first + shift.distance ∨
      shift.run.last + shift.distance < (target.toNat : Int)) : target = c := by
  rw [toLowercase] at member
  split at member
  · simp [plain.1, plain.2.1] at member
  · split at member
    next shift found =>
      have inRun := List.find?_some found
      rw [CharRun.contains, Bool.and_eq_true, Bool.and_eq_true, decide_eq_true_eq,
        decide_eq_true_eq] at inRun
      have apart := avoided shift (List.mem_of_find?_eq_some found)
      have code := congrArg Char.toNat (List.mem_singleton.mp member)
      rcases toNat_ofNat_cases (Int.toNat (c.toNat + shift.distance)) with same | zero
      · rw [same] at code
        omega
      · rw [zero] at code
        omega
    next => exact List.mem_singleton.mp member

theorem eq_of_brace_mem_toLowercase {c : Char} (member : '{' ∈ toLowercase c) : '{' = c :=
  eq_of_mem_toLowercase member (by decide) (by decide +kernel)

theorem toLowercase_brace : toLowercase '{' = ['{'] := by decide

theorem capital_not_mem_toLowercase (c : Char) : 'D' ∉ toLowercase c := by
  intro member
  obtain rfl := eq_of_mem_toLowercase member (by decide) (by decide +kernel)
  exact absurd member (by decide)

theorem capital_not_mem_kebabChars (chars : List Char) : 'D' ∉ kebabChars chars := by
  cases chars with
  | nil => exact List.not_mem_nil
  | cons first rest =>
    rw [kebabChars, List.mem_append, List.mem_flatMap, not_or]
    refine ⟨capital_not_mem_toLowercase first, ?_⟩
    rintro ⟨c, -, member⟩
    rw [kebabChar] at member
    split at member
    · rcases List.mem_cons.mp member with hyphen | lowered
      · exact absurd hyphen (by decide)
      · exact capital_not_mem_toLowercase c lowered
    next small =>
      rw [← List.mem_singleton.mp member] at small
      exact small (by decide)

end Text

namespace Placeholder.Unmarked

variable {text : List Char}

/-- Comment lines have no mark if the documentation has none. -/
theorem docLines {documentation : String} (unmarked : Unmarked documentation.toList) :
    ∀ line ∈ Text.docLines documentation, Unmarked line.toList :=
  fun _ member => unmarked.of_infix (infix_of_mem_docLines member)

/-- A part that the escapes do not touch is found behind them only if it was there. -/
theorem prefix_of_prefix_escape {part : List Char} (noBackslash : '\\' ∉ part)
    (noQuote : '"' ∉ part) (found : part <+: text.flatMap escapeChar) : part <+: text := by
  induction text generalizing part with
  | nil => exact found
  | cons c rest ih =>
    cases part with
    | nil => exact List.nil_prefix
    | cons first part =>
      rw [List.mem_cons, not_or] at noBackslash noQuote
      rw [List.flatMap_cons, escapeChar] at found
      split at found
      · exact absurd (List.cons_prefix_cons.mp found).1.symm noBackslash.1
      · split at found
        · exact absurd (List.cons_prefix_cons.mp found).1.symm noBackslash.1
        · obtain ⟨same, later⟩ := List.cons_prefix_cons.mp found
          exact List.cons_prefix_cons.mpr ⟨same, ih noBackslash.2 noQuote.2 later⟩

theorem escape (unmarked : Unmarked text) : Unmarked (text.flatMap escapeChar) := by
  induction text with
  | nil => exact unmarked
  | cons c rest ih =>
    have later := ih (unmarked.of_infix (List.suffix_cons c rest).isInfix)
    have nothing : Unmarked [] := of_not_mem List.not_mem_nil
    rw [List.flatMap_cons, escapeChar]
    split
    · have behind := not_infix_append_cons nothing later (by decide : '\\' ∉ mark)
      exact not_infix_append_cons nothing behind (by decide : '\\' ∉ mark)
    · split
      · have behind := not_infix_append_cons nothing later (by decide : '"' ∉ mark)
        exact not_infix_append_cons nothing behind (by decide : '\\' ∉ mark)
      next noBackslash noQuote =>
        intro found
        rcases List.infix_cons_iff.mp found with here | there
        · apply unmarked
          refine (prefix_of_prefix_escape (by decide) (by decide) ?_).isInfix
          rwa [List.flatMap_cons, escapeChar, if_neg noBackslash, if_neg noQuote]
        · exact later there

/-- Quoting makes no mark. -/
theorem quote {value : String} (unmarked : Unmarked value.toList) :
    Unmarked (Text.quote value).toList := by
  rw [Text.quote, String.toList_ofList, quoteChars]
  split
  · exact unmarked
  · have opened := not_infix_append_cons (of_not_mem List.not_mem_nil) unmarked.escape
      (by decide : '"' ∉ mark)
    exact append_of_head opened (by decide) (by decide)

/-- Lowering the first letter makes no mark. -/
theorem lowerFirst {name : String} (unmarked : Unmarked name.toList) :
    Unmarked (Text.lowerFirst name).toList := by
  rw [Text.lowerFirst, String.toList_ofList]
  cases chars : name.toList with
  | nil => exact of_not_mem List.not_mem_nil
  | cons first rest =>
    rw [chars] at unmarked
    rw [lowerFirstChars]
    by_cases brace : first = '{'
    · rwa [brace, toLowercase_brace, List.singleton_append, ← brace]
    · apply append_of_not_mem
      · exact fun member => brace (eq_of_brace_mem_toLowercase member).symm
      · exact unmarked.of_infix (List.suffix_cons first rest).isInfix

/-- Kebab case has no mark, as the mark has a capital. -/
theorem kebab (name : String) : Unmarked (Text.kebab name).toList := by
  rw [Text.kebab, String.toList_ofList]
  exact not_infix_of_not_mem (by decide : 'D' ∈ mark) (capital_not_mem_kebabChars _)

end Placeholder.Unmarked

end Typescribe
