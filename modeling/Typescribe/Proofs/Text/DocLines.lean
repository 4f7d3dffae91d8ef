import Mathlib.Data.List.DropRight
import Typescribe.Proofs.Text.Lines

/-!
# Comment lines are a normal form of documentation

The comment lines of a documentation are its lines without the blanks at their ends, less the blank
lines in front of the first line that is not blank and behind the last. Nothing else is lost, and
comment lines that are joined to a text are its comment lines.
-/

namespace Typescribe.Text

/-- The lines of a text without the blanks at their ends. -/
def trimmedLines (text : String) : List String :=
  (lines text).map fun line => String.ofList (trimEnd line.toList)

/-- The numbers of blank lines between each line that is not blank and the next such line. -/
def gaps (texts : List String) : List Nat :=
  (texts.splitOnP fun line => !allBlank line).dropLast.tail.map List.length

/-- Lines that stand in comments as they are: nothing is trimmed from them, and they start and end
with lines that are not blank. -/
structure AreCommentLines (texts : List String) : Prop where
  oneLine : ∀ line ∈ texts, '\n' ∉ line.toList
  trimmed : ∀ line ∈ texts, ∀ c ∈ line.toList.getLast?, isBlank c = false
  first : ∀ line ∈ texts.head?, allBlank line = false
  last : ∀ line ∈ texts.getLast?, allBlank line = false

/-- Blank lines in front of lines are in no gap. -/
theorem gaps_append_left {before : List String} (blank : ∀ line ∈ before, allBlank line = true)
    (texts : List String) : gaps (before ++ texts) = gaps texts := by
  rw [gaps, gaps, List.tail_dropLast, List.tail_dropLast]
  congr 2
  -- A blank line in front makes the first group longer, which is no gap.
  induction before with
  | nil => rfl
  | cons line before ih =>
    obtain ⟨head, tail⟩ := List.forall_mem_cons.mp blank
    rw [List.cons_append, List.splitOnP_cons_eq_if_modifyHead, if_neg (by simp [head]),
      List.tail_modifyHead, ih tail]

/-- Blank lines behind lines are in no gap. -/
theorem gaps_append_right {after : List String} (blank : ∀ line ∈ after, allBlank line = true)
    (texts : List String) : gaps (texts ++ after) = gaps texts := by
  rw [gaps, gaps]
  congr 2
  induction texts with
  | nil =>
    rw [List.nil_append, List.splitOnP_eq_singleton fun line listed => by simp [blank line listed]]
    rfl
  | cons line texts ih =>
    rw [List.cons_append, List.splitOnP_cons_eq_if_modifyHead, List.splitOnP_cons_eq_if_modifyHead]
    split
    · rw [List.dropLast_cons_of_ne_nil (List.splitOnP_ne_nil _ _),
        List.dropLast_cons_of_ne_nil (List.splitOnP_ne_nil _ _), ih]
    · rw [← List.modifyHead_dropLast, ih, List.modifyHead_dropLast]

example : gaps ["", "a", "", "", "b", "c", ""] = [2, 0] := by
  decide

theorem trimEnd_eq_rdropWhile (text : List Char) : trimEnd text = text.rdropWhile isBlank :=
  rfl

/-- A text that does not end with a blank is trimmed. -/
theorem trimEnd_eq_self {text : List Char} (solid : ∀ c ∈ text.getLast?, isBlank c = false) :
    trimEnd text = text := by
  rw [trimEnd_eq_rdropWhile, List.rdropWhile_eq_self_iff]
  intro nonempty
  simp [solid _ (List.getLast?_eq_some_getLast nonempty)]

theorem isBlank_getLast?_trimEnd (text : List Char) :
    ∀ c ∈ (trimEnd text).getLast?, isBlank c = false := by
  intro c isLast
  have nonempty : text.rdropWhile isBlank ≠ [] := by
    intro empty
    rw [trimEnd_eq_rdropWhile, empty] at isLast
    cases isLast
  have solid := List.rdropWhile_last_not isBlank text nonempty
  rw [trimEnd_eq_rdropWhile, List.getLast?_eq_some_getLast nonempty, Option.mem_some_iff] at isLast
  rwa [isLast, Bool.not_eq_true] at solid

/-- Nothing is left of a text exactly if it is blank. -/
theorem isEmpty_trimEnd (text : List Char) :
    (trimEnd text).isEmpty = allBlank (String.ofList (trimEnd text)) := by
  rw [Bool.eq_iff_iff, List.isEmpty_iff, allBlank, String.toList_ofList, List.all_eq_true]
  constructor
  · intro empty
    simp [empty]
  · intro blank
    by_contra nonempty
    have isLast := List.getLast?_eq_some_getLast nonempty
    have solid := isBlank_getLast?_trimEnd text _ isLast
    rw [blank _ (List.mem_of_getLast? isLast)] at solid
    cases solid

/-- Nothing is trimmed away in front of a character that is not blank. -/
theorem trimEnd_append_cons {d : Char} (solid : isBlank d = false) (before after : List Char) :
    trimEnd (before ++ d :: after) = before ++ d :: trimEnd after := by
  have stays : (d :: before.reverse).dropWhile isBlank = d :: before.reverse :=
    List.dropWhile_cons_of_neg (by simp [solid])
  rw [trimEnd, trimEnd, List.reverse_append, List.reverse_cons, List.append_assoc,
    List.singleton_append, List.dropWhile_append, stays]
  split
  next empty => simp [List.isEmpty_iff.mp empty]
  next => simp

theorem trimEnd_append_blanks {blanks : List Char} (blank : blanks.all isBlank = true)
    (before : List Char) : trimEnd (before ++ blanks) = trimEnd before := by
  rw [trimEnd, trimEnd, List.reverse_append, List.dropWhile_append_of_pos]
  simpa using blank

/-- The ending of a line is trimmed away with the blanks in front of it. -/
theorem trimEnd_body (piece : List Char) : trimEnd (body piece) = trimEnd piece := by
  rw [body]
  split
  next rest ending =>
    have whole : piece = rest.reverse ++ ['\r', '\n'] := by
      rw [← List.reverse_reverse piece, ending]
      simp
    rw [whole, trimEnd_append_blanks (by decide)]
  next rest _ ending =>
    have whole : piece = rest.reverse ++ ['\n'] := by
      rw [← List.reverse_reverse piece, ending]
      simp
    rw [whole, trimEnd_append_blanks (by decide)]
  next => rfl

theorem map_trimEnd_lineChars (text : List Char) :
    (lineChars text).map trimEnd = (pieces text).map trimEnd := by
  rw [lineChars, List.map_map]
  exact List.map_congr_left fun piece _ => trimEnd_body piece

/-- The trimmed lines of a text, empty ones apart, are what stands between its line feeds. -/
theorem mem_map_trimEnd_iff {text line : List Char} (nonempty : line ≠ []) :
    line ∈ (lineChars text).map trimEnd ↔ line ∈ (text.splitOn '\n').map trimEnd := by
  rw [map_trimEnd_lineChars]
  induction text using line_induction with
  | last only oneLine =>
    rw [List.splitOn_eq_singleton oneLine]
    by_cases empty : only = []
    · rw [empty]
      exact iff_of_false List.not_mem_nil fun same => nonempty (List.mem_singleton.mp same)
    · rw [pieces_eq_singleton oneLine empty]
  | step first rest oneLine ih =>
    rw [pieces_append_lineFeed oneLine, List.splitOn_append_cons_self_of_not_mem oneLine,
      List.map_cons, List.map_cons, trimEnd_append_blanks (by decide), List.mem_cons,
      List.mem_cons]
    exact or_congr_right ih

/-- Comment lines are the trimmed lines without the blank ones at both ends. -/
theorem docLines_eq (text : String) :
    docLines text = ((trimmedLines text).dropWhile allBlank).rdropWhile allBlank := by
  have blank : allBlank ∘ String.ofList ∘ trimEnd = List.isEmpty ∘ trimEnd :=
    funext fun line => (isEmpty_trimEnd line).symm
  have trimmed : trimmedLines text =
      (lineChars text.toList).map (String.ofList ∘ trimEnd) := by
    simp [trimmedLines, lines, Function.comp_def]
  rw [docLines, docLineChars, dropEmptyEnds, trimmed]
  simp only [List.rdropWhile, List.dropWhile_map, ← List.map_reverse, List.map_map, blank]

/-- The trimmed lines are blank lines, the comment lines, and blank lines. -/
theorem exists_blank_ends (text : String) :
    ∃ before after, trimmedLines text = before ++ docLines text ++ after ∧
      (∀ line ∈ before, allBlank line = true) ∧ ∀ line ∈ after, allBlank line = true := by
  refine ⟨(trimmedLines text).takeWhile allBlank,
    ((trimmedLines text).dropWhile allBlank).rtakeWhile allBlank, ?_,
    fun _ => List.mem_takeWhile_imp, fun _ => List.mem_rtakeWhile_imp⟩
  rw [docLines_eq, List.append_assoc, List.rdropWhile_append_rtakeWhile,
    List.takeWhile_append_dropWhile]

/-- A line that is not blank is a comment line exactly if it is one of the trimmed lines. -/
theorem mem_docLines_iff {text line : String} (solid : allBlank line = false) :
    line ∈ docLines text ↔ line ∈ trimmedLines text := by
  obtain ⟨before, after, split, blankBefore, blankAfter⟩ := exists_blank_ends text
  have notBefore : line ∉ before := fun listed => by simp [blankBefore line listed] at solid
  have notAfter : line ∉ after := fun listed => by simp [blankAfter line listed] at solid
  simp [split, notBefore, notAfter]

theorem areCommentLines_docLines (text : String) : AreCommentLines (docLines text) where
  oneLine _ member := lineFeed_not_mem_docLine member
  trimmed line member := by
    obtain ⟨piece, -, same⟩ := exists_piece_of_mem_docLines member
    rw [same]
    exact isBlank_getLast?_trimEnd _
  first := by
    intro line isFirst
    rw [docLines_eq] at isFirst
    -- The first comment line is the first trimmed line that is not blank.
    obtain ⟨rest, starts⟩ := List.head?_eq_some_iff.mp isFirst
    obtain ⟨dropped, whole⟩ :=
      List.rdropWhile_prefix allBlank (l := (trimmedLines text).dropWhile allBlank)
    have solid := List.head?_dropWhile_not allBlank (trimmedLines text)
    rw [← whole, starts] at solid
    exact solid
  last := by
    intro line isLast
    rw [docLines_eq] at isLast
    have nonempty : ((trimmedLines text).dropWhile allBlank).rdropWhile allBlank ≠ [] := by
      intro empty
      rw [empty] at isLast
      cases isLast
    have solid := List.rdropWhile_last_not _ _ nonempty
    rw [List.getLast?_eq_some_getLast nonempty, Option.mem_some_iff] at isLast
    rwa [isLast, Bool.not_eq_true] at solid

namespace AreCommentLines

variable {texts : List String} (are : AreCommentLines texts)
include are

theorem trimmedLines_intercalate : trimmedLines ("\n".intercalate texts) = texts := by
  have plain : ∀ line ∈ texts.map String.toList, '\n' ∉ line ∧ line.getLast? ≠ some '\r' := by
    rw [List.forall_mem_map]
    intro line listed
    refine ⟨are.oneLine line listed, fun isReturn => ?_⟩
    exact absurd (are.trimmed line listed _ isReturn) (by decide)
  have closed : ∀ last ∈ (texts.map String.toList).getLast?, last ≠ [] := by
    intro last isLast empty
    rw [List.getLast?_map, Option.mem_def, Option.map_eq_some_iff] at isLast
    obtain ⟨line, isLast, rfl⟩ := isLast
    have solid := are.last line isLast
    rw [allBlank, empty] at solid
    cases solid
  have split : lines ("\n".intercalate texts) = texts := by
    have found := congrArg (List.map String.ofList) (lineChars_intercalate plain closed)
    rw [List.map_map] at found
    rw [lines, String.toList_intercalate]
    simpa using found
  have kept : texts.map (fun line => String.ofList (trimEnd line.toList)) = texts.map id := by
    refine List.map_congr_left fun line listed => ?_
    rw [trimEnd_eq_self (are.trimmed line listed), String.ofList_toList, id]
  rw [trimmedLines, split, kept, List.map_id]

/-- Comment lines that are joined to a text are found again. -/
theorem docLines_intercalate : docLines ("\n".intercalate texts) = texts := by
  have started : texts.dropWhile allBlank = texts := by
    cases texts with
    | nil => rfl
    | cons line rest => exact List.dropWhile_cons_of_neg (by simp [are.first line rfl])
  have ended : texts.rdropWhile allBlank = texts := by
    rw [List.rdropWhile_eq_self_iff]
    intro nonempty
    simp [are.last _ (List.getLast?_eq_some_getLast nonempty)]
  rw [docLines_eq, are.trimmedLines_intercalate, started, ended]

end AreCommentLines

/-- The comment lines of a documentation are its lines without the blanks at their ends, less the
blank lines at both ends: they start and end with lines that are not blank, keep all such lines in
order and the numbers of blank lines between them, are trimmed lines, and are found again in the
text that they are joined to. -/
theorem docLines_normalise (text : String) :
    (∃ before after, trimmedLines text = before ++ docLines text ++ after ∧
      (∀ line ∈ before, allBlank line = true) ∧ ∀ line ∈ after, allBlank line = true) ∧
    (∀ line ∈ (docLines text).head?, allBlank line = false) ∧
    (∀ line ∈ (docLines text).getLast?, allBlank line = false) ∧
    (docLines text).filter (fun line => !allBlank line) =
      (trimmedLines text).filter (fun line => !allBlank line) ∧
    gaps (docLines text) = gaps (trimmedLines text) ∧
    (∀ line ∈ docLines text, '\n' ∉ line.toList ∧ ∀ c ∈ line.toList.getLast?, isBlank c = false) ∧
    docLines ("\n".intercalate (docLines text)) = docLines text := by
  have are := areCommentLines_docLines text
  obtain ⟨before, after, split, blankBefore, blankAfter⟩ := exists_blank_ends text
  refine ⟨⟨before, after, split, blankBefore, blankAfter⟩, are.first, are.last, ?_, ?_, ?_,
    are.docLines_intercalate⟩
  · have none {lines : List String} (blank : ∀ line ∈ lines, allBlank line = true) :
        lines.filter (fun line => !allBlank line) = [] := by
      simpa using blank
    rw [split, List.filter_append, List.filter_append, none blankBefore, none blankAfter,
      List.nil_append, List.append_nil]
  · rw [split, gaps_append_right blankAfter, gaps_append_left blankBefore]
  · exact fun line listed => ⟨are.oneLine line listed, are.trimmed line listed⟩

end Typescribe.Text
