import Typescribe.Generation.Placeholder
import Typescribe.Proofs.Text.Occurrence

/-!
# Texts without marks

The mark is the part of a token's opening before the colon. A text without the mark can become
part of a generated file without ever being taken for a token, provided that what stands at its
edges does not complete a mark either. `Unmarked` is the first condition and `Settled` both.
-/

namespace Typescribe.Placeholder

open Text

/-- A token's opening without the colon. -/
def mark : List Char := "\x7b\x7bfieldDecorator".toList

theorem opening_eq : opening = mark ++ [':'] := by decide

/-- The text contains no mark. -/
def Unmarked (text : List Char) : Prop :=
  ¬ mark <:+: text

instance (text : List Char) : Decidable (Unmarked text) :=
  inferInstanceAs (Decidable (¬ _))

/-- The character at an edge of a text, if there is one, does not occur in a pattern. -/
def Foreign (pattern : List Char) (edge : Option Char) : Prop :=
  ∀ c ∈ edge, c ∉ pattern

instance (pattern : List Char) : (edge : Option Char) → Decidable (Foreign pattern edge)
  | none => isTrue (by simp [Foreign])
  | some c => decidable_of_iff (c ∉ pattern) (by simp [Foreign])

/-- Whether a text has no braces, as every type name of a well-formed schema. -/
def Braceless (text : List Char) : Prop :=
  '{' ∉ text ∧ '}' ∉ text

instance (text : List Char) : Decidable (Braceless text) :=
  inferInstanceAs (Decidable (_ ∧ _))

namespace Braceless

theorem append {first second : List Char} (left : Braceless first) (right : Braceless second) :
    Braceless (first ++ second) := by
  simp only [Braceless, List.mem_append, not_or] at *
  exact ⟨⟨left.1, right.1⟩, left.2, right.2⟩

theorem of_subset {part whole : List Char} (braceless : Braceless whole) (subset : part ⊆ whole) :
    Braceless part :=
  ⟨fun member => braceless.1 (subset member), fun member => braceless.2 (subset member)⟩

theorem intercalate {separator : List Char} {parts : List (List Char)}
    (between : Braceless separator) (inside : ∀ part ∈ parts, Braceless part) :
    Braceless (separator.intercalate parts) :=
  ⟨not_mem_intercalate between.1 fun part member => (inside part member).1,
    not_mem_intercalate between.2 fun part member => (inside part member).2⟩

end Braceless

namespace Unmarked

variable {first second text part : List Char}

theorem of_not_mem (absent : '{' ∉ text) : Unmarked text :=
  not_infix_of_not_mem (by decide) absent

/-- A text with braces has no mark either if the mark's capital is missing. -/
theorem of_capital_not_mem (absent : 'D' ∉ text) : Unmarked text :=
  not_infix_of_not_mem (by decide) absent

theorem nil : Unmarked [] :=
  of_not_mem List.not_mem_nil

theorem of_braceless (braceless : Braceless text) : Unmarked text :=
  of_not_mem braceless.1

theorem of_infix (unmarked : Unmarked text) (found : part <:+: text) : Unmarked part :=
  fun marked => unmarked (marked.trans found)

/-- Joining is harmless where the first text has no opening brace. -/
theorem append_of_not_mem (absent : '{' ∉ first) (right : Unmarked second) :
    Unmarked (first ++ second) := by
  induction first with
  | nil => exact right
  | cons c rest ih =>
    rw [List.mem_cons, not_or] at absent
    intro found
    rcases List.infix_cons_iff.mp found with here | there
    · exact absent.1 (List.cons_prefix_cons.mp here).1
    · exact ih absent.2 there

/-- Joining is harmless where the second text starts with a character foreign to the mark. -/
theorem append_of_head (left : Unmarked first) (right : Unmarked second)
    (foreign : Foreign mark second.head?) : Unmarked (first ++ second) := by
  cases second with
  | nil => rwa [List.append_nil]
  | cons c rest =>
    have unmarkedRest : Unmarked rest := right.of_infix (List.suffix_cons c rest).isInfix
    exact not_infix_append_cons left unmarkedRest (foreign c (by simp))

/-- Joining is harmless where the first text ends in a character foreign to the mark. -/
theorem append_of_last (left : Unmarked first) (right : Unmarked second)
    (foreign : Foreign mark first.getLast?) : Unmarked (first ++ second) := by
  rcases List.eq_nil_or_concat first with rfl | ⟨init, c, rfl⟩
  · exact right
  · rw [List.concat_eq_append] at *
    have unmarkedInit : Unmarked init := left.of_infix (List.prefix_append init [c]).isInfix
    rw [List.append_assoc, List.singleton_append]
    exact not_infix_append_cons unmarkedInit right (foreign c (by simp))

end Unmarked

/-- A text that stands between others without a mark reaching into it from either side. -/
structure Divider (text : List Char) : Prop where
  nonempty : text ≠ []
  noBrace : '{' ∉ text
  head : Foreign mark text.head?
  last : Foreign mark text.getLast?

instance (text : List Char) : Decidable (Divider text) :=
  decidable_of_iff
    (text ≠ [] ∧ '{' ∉ text ∧ Foreign mark text.head? ∧ Foreign mark text.getLast?)
    ⟨fun ⟨nonempty, noBrace, head, last⟩ => ⟨nonempty, noBrace, head, last⟩,
      fun ⟨nonempty, noBrace, head, last⟩ => ⟨nonempty, noBrace, head, last⟩⟩

namespace Unmarked

variable {first second divider : List Char}

/-- Texts with a divider between them are joined without making a mark. -/
theorem join (left : Unmarked first) (between : Divider divider) (right : Unmarked second) :
    Unmarked (first ++ divider ++ second) := by
  apply (left.append_of_head (of_not_mem between.noBrace) between.head).append_of_last right
  intro c member
  rw [List.getLast?_append, Option.mem_def, Option.or_eq_some_iff] at member
  rcases member with inDivider | ⟨empty, -⟩
  · exact between.last c inDivider
  · exact absurd (List.getLast?_eq_none_iff.mp empty) between.nonempty

theorem intercalate {parts : List (List Char)} (between : Divider divider)
    (inside : ∀ part ∈ parts, Unmarked part) : Unmarked (divider.intercalate parts) := by
  induction parts with
  | nil => exact of_not_mem List.not_mem_nil
  | cons first rest ih =>
    obtain ⟨head, tail⟩ := List.forall_mem_cons.mp inside
    cases rest with
    | nil => rwa [List.intercalate_singleton]
    | cons second later =>
      rw [List.intercalate_cons_cons]
      exact head.join between (ih tail)

/-- A fixed text without a brace may stand before any text. -/
theorem literal_append {literal text : String} (noBrace : '{' ∉ literal.toList)
    (unmarked : Unmarked text.toList) : Unmarked (literal ++ text).toList := by
  rw [String.toList_append]
  exact append_of_not_mem noBrace unmarked

/-- A fixed text may stand behind any text if it starts with a character foreign to the mark. -/
theorem append_literal {text literal : String} (unmarked : Unmarked text.toList)
    (fixed : Unmarked literal.toList) (foreign : Foreign mark literal.toList.head?) :
    Unmarked (text ++ literal).toList := by
  rw [String.toList_append]
  exact unmarked.append_of_head fixed foreign

theorem join_literal {left literal right : String} (first : Unmarked left.toList)
    (between : Divider literal.toList) (second : Unmarked right.toList) :
    Unmarked (left ++ literal ++ right).toList := by
  rw [String.toList_append, String.toList_append]
  exact first.join between second

end Unmarked

/-- Searching for tokens goes on behind the first one. -/
theorem residualChars_eq (text : List Char) :
    residualChars text =
      match cutFirst? opening text with
      | none => []
      | some opened =>
        match cutFirst? closing opened.2 with
        | none => []
        | some closed => closed.1 :: residualChars closed.2 := by
  rw [residualChars]
  split
  next absent => rw [absent]
  next before afterOpening found =>
    split
    next absent => simp only [found, absent]
    next type rest closed => simp only [found, closed]

/-- A text that holds no mark and ends in no part of an opening. Whatever follows it, no opening
starts in it. -/
structure Settled (text : List Char) : Prop where
  unmarked : Unmarked text
  foreign : Foreign opening text.getLast?

namespace Settled

variable {first second text : List Char}

theorem nil : Settled [] :=
  ⟨Unmarked.of_not_mem List.not_mem_nil, by decide⟩

/-- A line is settled by the line feed at its end. -/
theorem line (unmarked : Unmarked text) : Settled (text ++ ['\n']) := by
  constructor
  · exact unmarked.append_of_head (by decide) (by decide)
  · intro c member
    rw [List.getLast?_concat, Option.mem_some_iff] at member
    subst member
    decide

theorem foreign_mark (settled : Settled text) : Foreign mark text.getLast? := by
  intro c member inMark
  apply settled.foreign c member
  rw [opening_eq]
  exact List.mem_append_left _ inMark

theorem append (left : Settled first) (right : Settled second) : Settled (first ++ second) := by
  refine ⟨left.unmarked.append_of_last right.unmarked left.foreign_mark, ?_⟩
  intro c member
  rw [List.getLast?_append, Option.mem_def, Option.or_eq_some_iff] at member
  rcases member with member | ⟨-, member⟩
  · exact right.foreign c member
  · exact left.foreign c member

theorem flatMap {α : Type} {items : List α} {render : α → List Char}
    (settled : ∀ item ∈ items, Settled (render item)) : Settled (items.flatMap render) := by
  induction items with
  | nil => exact nil
  | cons item rest ih =>
    rw [List.flatMap_cons]
    have tail := ih fun other member => settled other (List.mem_cons_of_mem _ member)
    exact (settled item List.mem_cons_self).append tail

/-- No opening starts in a settled text, whatever follows. -/
theorem apart (settled : Settled text) (after : List Char) : Apart opening text after := by
  rcases List.eq_nil_or_concat text with rfl | ⟨init, c, rfl⟩
  · exact apart_nil opening after
  · rw [List.concat_eq_append] at *
    apply apart_of_not_infix
    · intro found
      apply settled.unmarked
      rw [opening_eq] at found
      exact (List.prefix_append mark [':']).isInfix.trans found
    · exact settled.foreign c (by simp)

end Settled

theorem opening_prefix_tokenChars (type : List Char) : opening <+: tokenChars type := by
  rw [tokenChars, List.append_assoc]
  exact List.prefix_append opening (type ++ closing)

/-- A text in which no opening starts holds no token. -/
theorem residualChars_of_apart {text : List Char} (apart : Apart opening text []) :
    residualChars text = [] := by
  have cut := cutFirst?_append_of_apart apart
  rw [List.append_nil, cutFirst?, Option.map_none] at cut
  rw [residualChars_eq, cut]

/-- There is nothing to replace in a text in which no opening starts. -/
theorem replaceAll_of_apart {text : List Char} (apart : Apart opening text [])
    (type replacement : List Char) : replaceAll (tokenChars type) replacement text = text := by
  have passed : replaceAll (tokenChars type) replacement (text ++ []) = _ :=
    replaceAll_append_of_apart (apart.of_isPrefix (opening_prefix_tokenChars type))
  rwa [replaceAll_nil, List.append_nil] at passed

/-- A settled text holds no token. -/
theorem Settled.residualChars_eq_nil {text : List Char} (settled : Settled text) :
    residualChars text = [] :=
  residualChars_of_apart (settled.apart [])

/-- There is nothing to replace in a settled text. -/
theorem Settled.replaceAll_eq {text : List Char} (settled : Settled text)
    (type replacement : List Char) : replaceAll (tokenChars type) replacement text = text :=
  replaceAll_of_apart (settled.apart []) type replacement

/-- No opening starts in the text, whatever follows it. -/
def Inert (text : List Char) : Prop :=
  ∀ after, Apart opening text after

theorem Settled.inert {text : List Char} (settled : Settled text) : Inert text :=
  settled.apart

namespace Inert

variable {text : List Char}

/-- A text without an opening that ends in no part of one is inert. -/
theorem of_not_isInfix {c : Char} (free : ¬ opening <:+: text) (last : text.getLast? = some c)
    (foreign : c ∉ opening) : Inert text := by
  obtain ⟨init, rfl⟩ := List.getLast?_eq_some_iff.mp last
  exact apart_of_not_infix free foreign

/-- Replacing passes over an inert text. -/
theorem replaceAll_append (inert : Inert text) (type replacement after : List Char) :
    replaceAll (tokenChars type) replacement (text ++ after) =
      text ++ replaceAll (tokenChars type) replacement after :=
  replaceAll_append_of_apart ((inert after).of_isPrefix (opening_prefix_tokenChars type))

/-- Searching passes over an inert text. -/
theorem residualChars_append (inert : Inert text) (after : List Char) :
    residualChars (text ++ after) = residualChars after := by
  rw [residualChars_eq, cutFirst?_append_of_apart (inert after), residualChars_eq after]
  cases cutFirst? opening after <;> rfl

end Inert

/-- A token is two opening braces followed by what has none. -/
theorem tokenChars_eq (type : List Char) :
    tokenChars type = '{' :: '{' :: ("fieldDecorator:".toList ++ (type ++ closing)) := by
  rw [tokenChars, List.append_assoc]
  rfl

/-- A text is cut at the first opening. No opening reaches into another, because its colon is
nowhere but at its end. -/
theorem cutFirst?_opening_iff {text before after : List Char} :
    cutFirst? opening text = some (before, after) ↔
      text = before ++ (opening ++ after) ∧ ¬ opening <:+: before := by
  rw [cutFirst?_eq_some_iff (by decide)]
  refine and_congr_right fun _ => ⟨fun free found => ?_, fun free => ?_⟩
  · exact free (found.trans List.infix_append_left)
  · exact not_infix_append_of_last_not_mem (c := ':') free (by decide) (by decide)

/-- A text is cut at the first closing. Of three braces in a row the first two are a closing. -/
theorem cutFirst?_closing_iff {text before after : List Char} :
    cutFirst? closing text = some (before, after) ↔
      text = before ++ (closing ++ after) ∧ ¬ closing <:+: before ++ ['}'] :=
  cutFirst?_eq_some_iff (by decide)

/-- Searching finds a token behind a text without an opening and goes on behind the token. -/
theorem residualChars_token {before type : List Char} (free : ¬ opening <:+: before)
    (closes : ¬ closing <:+: type ++ ['}']) (rest : List Char) :
    residualChars (before ++ (tokenChars type ++ rest)) = type :: residualChars rest := by
  have opened : cutFirst? opening (before ++ (tokenChars type ++ rest)) =
      some (before, type ++ (closing ++ rest)) := by
    rw [cutFirst?_opening_iff, tokenChars, List.append_assoc, List.append_assoc]
    exact ⟨rfl, free⟩
  rw [residualChars_eq, opened]
  dsimp only
  rw [cutFirst?_closing_iff.mpr ⟨rfl, closes⟩]

/-- A type without a closing brace ends where its token closes. -/
theorem not_closing_infix_of_not_mem {type : List Char} (plain : '}' ∉ type) :
    ¬ closing <:+: type ++ ['}'] := by
  intro found
  have twice := found.sublist.count_le '}'
  rw [List.count_append, List.count_eq_zero.mpr plain] at twice
  exact absurd twice (by decide)

/-- Searching finds a token of a brace-free type and goes on behind it. -/
theorem residualChars_tokenChars_append {type : List Char} (plain : '}' ∉ type)
    (after : List Char) :
    residualChars (tokenChars type ++ after) = type :: residualChars after := by
  have free : ¬ opening <:+: [] := by decide
  exact residualChars_token free (not_closing_infix_of_not_mem plain) after

theorem tokenChars_ne_nil (type : List Char) : tokenChars type ≠ [] := by
  rw [tokenChars_eq]
  exact List.cons_ne_nil _ _

theorem not_inert_tokenChars (type : List Char) : ¬ Inert (tokenChars type) := by
  intro inert
  refine inert [] [] (tokenChars type) rfl (tokenChars_ne_nil type) ?_
  rw [List.append_nil]
  exact opening_prefix_tokenChars type

/-- Two brace-free texts before closing braces are equal if one closes where the other does. -/
theorem eq_of_closing_isPrefix {left right after : List Char} (plainLeft : '}' ∉ left)
    (plainRight : '}' ∉ right) (isPrefix : left ++ closing <+: right ++ (closing ++ after)) :
    left = right := by
  induction left generalizing right with
  | nil =>
    cases right with
    | nil => rfl
    | cons c right =>
      have same := (List.cons_prefix_cons.mp isPrefix).1
      exact absurd (same ▸ List.mem_cons_self) plainRight
  | cons c left ih =>
    cases right with
    | nil =>
      have same := (List.cons_prefix_cons.mp isPrefix).1
      exact absurd (same ▸ List.mem_cons_self) plainLeft
    | cons d right =>
      rw [List.cons_append, List.cons_append, List.cons_prefix_cons] at isPrefix
      rw [List.mem_cons, not_or] at plainLeft plainRight
      rw [isPrefix.1, ih plainLeft.2 plainRight.2 isPrefix.2]

/-- No opening starts inside a token, behind its first brace. -/
theorem apart_token_tail {type : List Char} (plain : '{' ∉ type) (after : List Char) :
    Apart opening ('{' :: ("fieldDecorator:".toList ++ (type ++ closing))) after := by
  rw [apart_cons_iff]
  constructor
  · -- The second brace is followed by a letter and not by another brace.
    intro found
    exact absurd (List.cons_prefix_cons.mp (List.cons_prefix_cons.mp found).2).1 (by decide)
  · apply apart_of_head_not_mem
    simp only [List.mem_append, not_or]
    exact ⟨by decide, plain, by decide⟩

/-- No token starts inside the token of another type. -/
theorem tokenChars_apart {searched written : List Char} (plainSearched : Braceless searched)
    (plainWritten : Braceless written) (different : searched ≠ written) (after : List Char) :
    Apart (tokenChars searched) (tokenChars written) after := by
  have inside := (apart_token_tail plainWritten.1 after).of_isPrefix
    (opening_prefix_tokenChars searched)
  rw [tokenChars_eq written, apart_cons_iff, ← List.cons_append, ← tokenChars_eq]
  refine ⟨fun found => ?_, inside⟩
  rw [tokenChars, tokenChars] at found
  simp only [List.append_assoc, List.prefix_append_right_inj] at found
  exact different (eq_of_closing_isPrefix plainSearched.2 plainWritten.2 found)

end Typescribe.Placeholder
