import Mathlib.Data.List.Basic
import Typescribe.Text.Lines

/-!
# Lines and the texts they come from

The lines of a text are parts of it, and lines joined by line feeds are found again.
-/

namespace Typescribe.Text

/-- A text has a line: at its start or behind a line feed, and closed by another. -/
def HasLine (text line : List Char) : Prop :=
  '\n' :: (line ++ ['\n']) <:+: '\n' :: text

theorem flatten_pieces (text : List Char) : (pieces text).flatten = text := by
  induction text with
  | nil => rfl
  | cons c rest ih =>
    rw [pieces]
    split
    · rw [List.flatten_cons, ih, List.singleton_append]
    · cases found : pieces rest with
      | nil =>
        rw [found] at ih
        rw [← ih]
        rfl
      | cons piece later =>
        rw [found, List.flatten_cons] at ih
        rw [← ih]
        rfl

theorem body_isPrefix (piece : List Char) : body piece <+: piece := by
  rw [body]
  split
  next rest ending =>
    rw [← List.reverse_reverse piece, ending]
    exact ⟨['\r', '\n'], by simp⟩
  next rest ending =>
    rw [← List.reverse_reverse piece, ending]
    exact ⟨['\n'], by simp⟩
  next => exact List.prefix_refl piece

theorem trimEnd_isPrefix (text : List Char) : trimEnd text <+: text := by
  rw [trimEnd, ← List.reverse_suffix, List.reverse_reverse]
  exact List.dropWhile_suffix _

theorem trimStart_append {margin rest : List Char} {c : Char}
    (blank : ∀ c ∈ margin, isBlank c = true) (solid : isBlank c = false) :
    trimStart (margin ++ c :: rest) = c :: rest := by
  rw [trimStart, List.dropWhile_append_of_pos blank, List.dropWhile_cons_of_neg (by simp [solid])]

/-- A comment line is a line of the documentation without the blanks at its end. -/
theorem exists_piece_of_mem_docLines {text line : String} (member : line ∈ docLines text) :
    ∃ piece ∈ pieces text.toList, line.toList = trimEnd (body piece) := by
  rw [docLines, List.mem_map] at member
  obtain ⟨chars, member, rfl⟩ := member
  rw [String.toList_ofList]
  have trimmed : chars ∈ (lineChars text.toList).map trimEnd := by
    rw [docLineChars, dropEmptyEnds, List.mem_reverse] at member
    have kept := (List.dropWhile_suffix _).subset member
    exact (List.dropWhile_suffix _).subset (List.mem_reverse.mp kept)
  obtain ⟨line, listed, rfl⟩ := List.mem_map.mp trimmed
  obtain ⟨piece, inside, rfl⟩ := List.mem_map.mp listed
  exact ⟨piece, inside, rfl⟩

/-- A comment line is part of the documentation that it comes from. -/
theorem infix_of_mem_docLines {text line : String} (member : line ∈ docLines text) :
    line.toList <:+: text.toList := by
  obtain ⟨piece, inside, same⟩ := exists_piece_of_mem_docLines member
  have whole : piece <:+: text.toList := by
    have found := List.infix_of_mem_flatten inside
    rwa [flatten_pieces] at found
  rw [same]
  exact ((trimEnd_isPrefix _).trans (body_isPrefix piece)).isInfix.trans whole

/-- A line feed stands at the end of a piece only. -/
theorem exists_line_of_mem_pieces {text piece : List Char} (member : piece ∈ pieces text) :
    ∃ line, '\n' ∉ line ∧ (piece = line ∨ piece = line ++ ['\n']) := by
  induction text generalizing piece with
  | nil => exact absurd member List.not_mem_nil
  | cons c rest ih =>
    rw [pieces] at member
    split at member
    next lineFeed =>
      rcases List.mem_cons.mp member with rfl | member
      · exact ⟨[], List.not_mem_nil, .inr (by simp [lineFeed])⟩
      · exact ih member
    next different =>
      cases found : pieces rest with
      | nil =>
        rw [found] at member
        refine ⟨[c], ?_, .inl (List.mem_singleton.mp member)⟩
        simpa using Ne.symm different
      | cons first later =>
        rw [found] at member
        rcases List.mem_cons.mp member with rfl | member
        · obtain ⟨line, oneLine, ends⟩ := ih (found ▸ List.mem_cons_self)
          refine ⟨c :: line, by simp [Ne.symm different, oneLine], ?_⟩
          rcases ends with rfl | rfl
          · exact .inl rfl
          · exact .inr rfl
        · exact ih (found ▸ List.mem_cons_of_mem first member)

/-- A line without its ending has no line feed. -/
theorem lineFeed_not_mem_body {text piece : List Char} (member : piece ∈ pieces text) :
    '\n' ∉ body piece := by
  obtain ⟨line, oneLine, rfl | rfl⟩ := exists_line_of_mem_pieces member
  · exact fun inside => oneLine ((body_isPrefix piece).subset inside)
  · have reversed : (line ++ ['\n']).reverse = '\n' :: line.reverse := by simp
    rw [← List.mem_reverse] at oneLine
    rw [body, reversed]
    split
    next rest ending =>
      rw [(List.cons.inj ending).2] at oneLine
      exact fun inside => oneLine (List.mem_cons_of_mem _ (List.mem_reverse.mp inside))
    next rest _ ending =>
      rw [(List.cons.inj ending).2] at oneLine
      exact fun inside => oneLine (List.mem_reverse.mp inside)
    next impossible => exact absurd rfl (impossible _)

theorem lineFeed_not_mem_docLine {text line : String} (member : line ∈ docLines text) :
    '\n' ∉ line.toList := by
  obtain ⟨piece, inside, same⟩ := exists_piece_of_mem_docLines member
  rw [same]
  exact fun lineFeed => lineFeed_not_mem_body inside ((trimEnd_isPrefix _).subset lineFeed)

/-- What stands in front of a character of a line has no line feed. -/
theorem lineFeed_not_mem_of_mem_pieces {text left right : List Char} {c : Char}
    (member : left ++ c :: right ∈ pieces text) : '\n' ∉ left := by
  obtain ⟨line, oneLine, same⟩ := exists_line_of_mem_pieces member
  have short : left ++ (c :: right).dropLast = (left ++ c :: right).dropLast :=
    (List.dropLast_append_of_ne_nil (List.cons_ne_nil c right)).symm
  intro inside
  have inDropLast : '\n' ∈ (left ++ c :: right).dropLast := short ▸ List.mem_append_left _ inside
  rcases same with same | same
  · exact oneLine (List.dropLast_subset _ (same ▸ inDropLast))
  · rw [same, List.dropLast_concat] at inDropLast
    exact oneLine inDropLast

/-- What holds of every text without a line feed, and of a text with one more line in front if it
holds of the text, holds of every text. -/
theorem line_induction {motive : List Char → Prop} (last : ∀ line, '\n' ∉ line → motive line)
    (step : ∀ line rest, '\n' ∉ line → motive rest → motive (line ++ '\n' :: rest))
    (text : List Char) : motive text := by
  by_cases inside : '\n' ∈ text
  · obtain ⟨line, rest, split, oneLine⟩ := List.eq_append_cons_of_mem inside
    have shorter : rest.length < text.length := by
      rw [split, List.length_append, List.length_cons]
      omega
    rw [split]
    exact step line rest oneLine (line_induction last step rest)
  · exact last text inside
termination_by text.length

/-- A line feed closes the line before it. -/
theorem pieces_append_lineFeed {line : List Char} (oneLine : '\n' ∉ line) (rest : List Char) :
    pieces (line ++ '\n' :: rest) = (line ++ ['\n']) :: pieces rest := by
  induction line with
  | nil => rw [List.nil_append, pieces, if_pos rfl, List.nil_append]
  | cons c line ih =>
    rw [List.mem_cons, not_or] at oneLine
    rw [List.cons_append, pieces, if_neg (Ne.symm oneLine.1), ih oneLine.2]
    rfl

theorem pieces_eq_singleton {line : List Char} (oneLine : '\n' ∉ line) (nonempty : line ≠ []) :
    pieces line = [line] := by
  induction line with
  | nil => exact absurd rfl nonempty
  | cons c line ih =>
    rw [List.mem_cons, not_or] at oneLine
    rw [pieces, if_neg (Ne.symm oneLine.1)]
    cases line with
    | nil => rfl
    | cons d line => rw [ih oneLine.2 (List.cons_ne_nil d line)]

/-- The first line of a text starts with whatever has no line feed at the start of the text. -/
theorem exists_pieces_append {line : List Char} (oneLine : '\n' ∉ line) (nonempty : line ≠ [])
    (rest : List Char) : ∃ ending later, pieces (line ++ rest) = (line ++ ending) :: later := by
  induction line with
  | nil => exact absurd rfl nonempty
  | cons c line ih =>
    rw [List.mem_cons, not_or] at oneLine
    rw [List.cons_append, pieces, if_neg (Ne.symm oneLine.1)]
    cases line with
    | nil =>
      cases pieces ([] ++ rest) with
      | nil => exact ⟨[], [], rfl⟩
      | cons ending later => exact ⟨ending, later, rfl⟩
    | cons d line =>
      obtain ⟨ending, later, found⟩ := ih oneLine.2 (List.cons_ne_nil d line)
      rw [found]
      exact ⟨ending, later, rfl⟩

/-- A text can be split into lines behind a line feed. -/
theorem pieces_concat_append (before rest : List Char) :
    pieces (before ++ ['\n'] ++ rest) = pieces (before ++ ['\n']) ++ pieces rest := by
  induction before with
  | nil => rw [List.nil_append, List.singleton_append, pieces, if_pos rfl]; rfl
  | cons c before ih =>
    rw [List.cons_append, List.cons_append, pieces, ih, pieces]
    split
    · rfl
    · cases found : pieces (before ++ ['\n']) with
      | nil =>
        have flat := flatten_pieces (before ++ ['\n'])
        rw [found] at flat
        exact absurd flat.symm (List.append_ne_nil_of_right_ne_nil _ (List.cons_ne_nil _ _))
      | cons piece later => rfl

/-- A line with another behind it ends with a line feed. -/
theorem exists_of_pieces_eq_cons_cons {text first second : List Char} {later : List (List Char)}
    (split : pieces text = first :: second :: later) :
    ∃ line rest, first = line ++ ['\n'] ∧ pieces rest = second :: later := by
  by_cases inside : '\n' ∈ text
  · obtain ⟨line, rest, rfl, oneLine⟩ := List.eq_append_cons_of_mem inside
    rw [pieces_append_lineFeed oneLine, List.cons.injEq] at split
    exact ⟨line, rest, split.1.symm, split.2⟩
  · by_cases empty : text = []
    · rw [empty] at split
      exact absurd split.symm (List.cons_ne_nil _ _)
    · rw [pieces_eq_singleton inside empty, List.cons.injEq] at split
      exact absurd split.2.symm (List.cons_ne_nil _ _)

theorem body_append_lineFeed {line : List Char} (noReturn : line.getLast? ≠ some '\r') :
    body (line ++ ['\n']) = line := by
  rw [← List.head?_reverse] at noReturn
  rw [body, List.reverse_append, List.reverse_singleton, List.singleton_append]
  split
  next rest ending =>
    rw [List.cons.injEq] at ending
    rw [ending.2] at noReturn
    exact absurd rfl noReturn
  next rest _ ending =>
    rw [List.cons.injEq] at ending
    rw [← ending.2, List.reverse_reverse]
  next impossible => exact absurd rfl (impossible _)

theorem body_eq_self {line : List Char} (oneLine : '\n' ∉ line) : body line = line := by
  rw [← List.mem_reverse] at oneLine
  rw [body]
  split
  next ending => exact absurd (ending ▸ List.mem_cons_self) oneLine
  next ending => exact absurd (ending ▸ List.mem_cons_self) oneLine
  next => rfl

/-- Lines that were joined are found again, provided that the last one is not empty. -/
theorem lineChars_intercalate {lines : List (List Char)}
    (plain : ∀ line ∈ lines, '\n' ∉ line ∧ line.getLast? ≠ some '\r')
    (closed : ∀ last ∈ lines.getLast?, last ≠ []) :
    lineChars (['\n'].intercalate lines) = lines := by
  induction lines with
  | nil => rfl
  | cons first rest ih =>
    obtain ⟨⟨oneLine, noReturn⟩, restPlain⟩ := List.forall_mem_cons.mp plain
    cases rest with
    | nil =>
      rw [List.intercalate_singleton, lineChars, pieces_eq_singleton oneLine (closed first rfl),
        List.map_singleton, body_eq_self oneLine]
    | cons second later =>
      have tail : lineChars (['\n'].intercalate (second :: later)) = second :: later :=
        ih restPlain fun last isLast => closed last (by rwa [List.getLast?_cons_cons])
      rw [lineChars] at tail ⊢
      rw [List.intercalate_cons_cons, List.append_assoc, List.singleton_append,
        pieces_append_lineFeed oneLine, List.map_cons, tail, body_append_lineFeed noReturn]

end Typescribe.Text
