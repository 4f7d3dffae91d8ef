import Typescribe.Proofs.Text.CodeLines

/-!
# Depth and indentation

A fragment is laid out deeper by indenting what it is laid out to. This holds line by line, so
each text has to be a line of its own: it may not hold a line feed, and it may not be empty, since
an empty line has no indentation.
-/

namespace Typescribe

open Text

namespace Text

/-- A line behind a margin. An empty line gets none. -/
def indentLine (margin line : List Char) : List Char :=
  if line.isEmpty then [] else margin ++ line

/-- A text with a margin in front of every line that is not empty. -/
def indentLines (margin text : List Char) : List Char :=
  ['\n'].intercalate ((text.splitOn '\n').map (indentLine margin))

variable {margin line first : List Char}

@[simp] theorem indentLines_nil : indentLines margin [] = [] := rfl

/-- A text is indented line by line. -/
theorem indentLines_append_lineFeed (oneLine : '\n' ∉ line) (rest : List Char) :
    indentLines margin (line ++ '\n' :: rest) =
      indentLine margin line ++ '\n' :: indentLines margin rest := by
  have someLine : (rest.splitOn '\n').map (indentLine margin) ≠ [] := by
    rw [ne_eq, List.map_eq_nil_iff]
    exact List.splitOn_ne_nil '\n' rest
  obtain ⟨second, later, lines⟩ := List.exists_cons_of_ne_nil someLine
  rw [indentLines, List.splitOn_append_cons_self, List.splitOn_eq_singleton oneLine,
    List.singleton_append, List.map_cons, indentLines, lines, List.intercalate_cons_cons,
    List.append_assoc, List.singleton_append]

/-- Texts are indented one after the other if the first ends where a line ends. -/
theorem EndsLine.indentLines_append (ends : EndsLine first) (second : List Char) :
    indentLines margin (first ++ second) =
      indentLines margin first ++ indentLines margin second := by
  induction first using line_induction with
  | last line oneLine =>
    have empty : line = [] := by
      rcases List.eq_nil_or_concat line with empty | ⟨init, c, rfl⟩
      · exact empty
      · have isFeed := ends c (by simp)
        exact absurd (by simp [isFeed]) oneLine
    rw [empty, indentLines_nil, List.nil_append, List.nil_append]
  | step line rest oneLine ih =>
    have restEnds : EndsLine rest := by
      intro c member
      refine ends c ?_
      rw [List.getLast?_append, List.getLast?_cons, Option.mem_def.mp member]
      rfl
    rw [List.append_assoc, List.cons_append, indentLines_append_lineFeed oneLine, ih restEnds,
      indentLines_append_lineFeed oneLine, List.append_assoc, List.cons_append]

end Text

namespace Fragment

/-- Whether a text is a line that is not empty. -/
def fillsLine (text : String) : Bool :=
  !text.isEmpty && !text.toList.contains '\n'

mutual

/-- Whether each text of a fragment is a line of its own. Lines, headers and closing lines are not
empty; a comment may be. -/
def fillsLines : Fragment → Bool
  | .line text => fillsLine text
  | .blank => true
  | .comment text => !text.toList.contains '\n'
  | .indented body => allFillLines body
  | .block header body close => fillsLine header && allFillLines body && close.all fillsLine

/-- Whether each text of some fragments is a line of its own. -/
def allFillLines : List Fragment → Bool
  | [] => true
  | fragment :: rest => fillsLines fragment && allFillLines rest

end

theorem fillsLine_iff {text : String} :
    fillsLine text = true ↔ text ≠ "" ∧ '\n' ∉ text.toList := by
  simp [fillsLine]

/-- The comment of any line, even of an empty one, is not empty. -/
theorem fillsLine_commentText {text : String} (oneLine : '\n' ∉ text.toList) :
    fillsLine (commentText text) = true := by
  refine fillsLine_iff.mpr ⟨?_, lineFeed_not_mem_commentText oneLine⟩
  intro empty
  have slashes := slashes_isPrefix_commentText text
  rw [empty] at slashes
  exact absurd slashes (by decide)

end Fragment

namespace Indent

variable (unit : Indent) (extra depth : Nat)

theorem margin_add : unit.margin (extra + depth) = unit.margin extra ++ unit.margin depth := by
  rw [margin, List.replicate_add, List.flatMap_append, margin, margin]

/-- A line that is not empty goes deeper behind a margin. -/
theorem lineChars_add {text : String} (fills : Fragment.fillsLine text = true) :
    unit.lineChars (extra + depth) text =
      indentLines (unit.margin extra) (unit.lineChars depth text) := by
  obtain ⟨nonempty, oneLine⟩ := Fragment.fillsLine_iff.mp fills
  have wholeLine : '\n' ∉ unit.margin depth ++ text.toList := by
    rw [List.mem_append, not_or]
    exact ⟨lineFeed_not_mem_margin unit depth, oneLine⟩
  have filled : (unit.margin depth ++ text.toList).isEmpty = false := by
    simp [nonempty]
  rw [lineChars, lineChars, indentLines_append_lineFeed wholeLine, indentLine, filled, margin_add,
    indentLines_nil]
  simp only [Bool.false_eq_true, if_false, List.append_assoc]

end Indent

namespace Fragment

theorem endsLine_lineChars (unit : Indent) (depth : Nat) (text : String) :
    EndsLine (unit.lineChars depth text) :=
  endsLine_concat (unit.margin depth ++ text.toList)

mutual

/-- A fragment that is laid out deeper is indented. -/
theorem chars_add (unit : Indent) (extra depth : Nat) (fragment : Fragment)
    (fills : fragment.fillsLines = true) :
    fragment.chars unit (extra + depth) =
      indentLines (unit.margin extra) (fragment.chars unit depth) := by
  cases fragment with
  | line text =>
    rw [fillsLines] at fills
    rw [chars, chars, unit.lineChars_add extra depth fills]
  | blank =>
    rw [chars, chars]
    rfl
  | comment text =>
    rw [fillsLines, Bool.not_eq_true', List.contains_eq_mem, decide_eq_false_iff_not] at fills
    rw [chars, chars, unit.lineChars_add extra depth (fillsLine_commentText fills)]
  | indented body =>
    rw [fillsLines] at fills
    rw [chars, chars]
    exact charsAll_add unit extra (depth + 1) body fills
  | block header body close =>
    rw [fillsLines, Bool.and_eq_true, Bool.and_eq_true] at fills
    obtain ⟨⟨headerFills, bodyFills⟩, closeFills⟩ := fills
    have opened := endsLine_lineChars unit depth header
    have inside : EndsLine (charsAll unit (depth + 1) body) :=
      getLast?_charsAll unit (depth + 1) body
    have deeper := charsAll_add unit extra (depth + 1) body bodyFills
    rw [← Nat.add_assoc] at deeper
    cases close with
    | none =>
      rw [chars, chars, List.append_nil, List.append_nil, opened.indentLines_append,
        unit.lineChars_add extra depth headerFills, deeper]
    | some text =>
      rw [chars, chars, (opened.append inside).indentLines_append, opened.indentLines_append,
        unit.lineChars_add extra depth headerFills, deeper,
        unit.lineChars_add extra depth closeFills]

/-- Fragments that are laid out deeper are indented. -/
theorem charsAll_add (unit : Indent) (extra depth : Nat) (fragments : List Fragment)
    (fill : allFillLines fragments = true) :
    charsAll unit (extra + depth) fragments =
      indentLines (unit.margin extra) (charsAll unit depth fragments) := by
  cases fragments with
  | nil => rw [charsAll_nil, charsAll_nil, indentLines_nil]
  | cons fragment rest =>
    rw [allFillLines, Bool.and_eq_true] at fill
    have ends : EndsLine (fragment.chars unit depth) := getLast?_chars unit depth fragment
    rw [charsAll_cons, charsAll_cons, ends.indentLines_append,
      chars_add unit extra depth fragment fill.1, charsAll_add unit extra depth rest fill.2]

end

end Fragment

/-- Laying out a fragment whose texts are lines keeps the depth and the unit of indentation. It
appends what the fragment is laid out to at the left margin, indented to the depth. -/
theorem Page.add_indents (page : Page) (fragment : Fragment)
    (fills : fragment.fillsLines = true) :
    (page.add fragment).depth = page.depth ∧
    (page.add fragment).unit = page.unit ∧
    (page.add fragment).text = page.text ++ String.ofList
      (indentLines (String.join (List.replicate page.depth page.unit.text)).toList
        (Page.add { unit := page.unit } fragment).text.toList) := by
  have atLeft : (Page.add { unit := page.unit } fragment).text.toList =
      fragment.chars page.unit 0 := by
    rw [add_eq]
    simp
  have deeper := fragment.chars_add page.unit page.depth 0 fills
  rw [Nat.add_zero] at deeper
  rw [atLeft, String.toList_join, ← Indent.margin, ← deeper, add_eq]
  exact ⟨rfl, rfl, rfl⟩

/-- An enumeration with an empty comment, an empty line and a step of indentation of its own. -/
def Fragment.periods : Fragment :=
  .block "enum Period \x7b" [.comment "", .blank, .indented [.line "JURASSIC,"]] (some "\x7d")

/-- At depth two, behind what is already on the page. -/
theorem Page.add_periods :
    Fragment.periods.fillsLines = true ∧
      (Page.add ⟨.tab, 2, "a\n"⟩ Fragment.periods).depth = 2 ∧
      (Page.add ⟨.tab, 2, "a\n"⟩ Fragment.periods).text =
        "a\n\t\tenum Period \x7b\n\t\t\t//\n\n\t\t\t\tJURASSIC,\n\t\t\x7d\n" := by
  have fills : Fragment.periods.fillsLines = true := by decide
  obtain ⟨depth, -, text⟩ := Page.add_indents ⟨.tab, 2, "a\n"⟩ Fragment.periods fills
  refine ⟨fills, depth, text.trans ?_⟩
  decide

end Typescribe
