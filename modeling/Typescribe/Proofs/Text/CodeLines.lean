import Typescribe.Proofs.Layout

/-!
# Lines of code

A line whose first characters, blanks apart, are two slashes is a comment; the other lines of a
text are its code. Texts that end where a line ends can be put together from parts with the same
code, and the comments of a documentation have no code.
-/

namespace Typescribe.Text

/-- Whether a line holds nothing but a comment. -/
def isComment (line : List Char) : Bool :=
  ['/', '/'].isPrefixOf (trimStart line)

/-- The lines of a text that are no comments. -/
def codeLines (text : List Char) : List (List Char) :=
  (text.splitOn '\n').filter fun line => !isComment line

/-- A text that ends where a line ends. -/
def EndsLine (text : List Char) : Prop :=
  ∀ c ∈ text.getLast?, c = '\n'

/-- Two texts with the same code, in front of which or behind which others can be put. -/
structure SameCode (left right : List Char) : Prop where
  leftEnds : EndsLine left
  rightEnds : EndsLine right
  codeLines : codeLines left = codeLines right

@[simp] theorem docLines_empty : docLines "" = [] := rfl

variable {left right first second : List Char}

theorem EndsLine.append (ends : EndsLine left) (behind : EndsLine right) :
    EndsLine (left ++ right) :=
  Fragment.getLast?_append_of ends behind

theorem endsLine_nil : EndsLine [] := by
  simp [EndsLine]

theorem endsLine_concat (line : List Char) : EndsLine (line ++ ['\n']) := by
  simp [EndsLine]

/-- A text can be split into lines where a line ends. -/
theorem EndsLine.pieces_append (ends : EndsLine left) (right : List Char) :
    pieces (left ++ right) = pieces left ++ pieces right := by
  by_cases empty : left = []
  · rw [empty]
    rfl
  · rw [← List.dropLast_append_getLast empty, ends _ (List.getLast?_eq_some_getLast empty),
      pieces_concat_append]

/-- Some lines of a text end where a line ends, if another line is behind them. -/
theorem endsLine_flatten {text line : List Char} {earlier later : List (List Char)}
    (split : pieces text = earlier ++ line :: later) : EndsLine earlier.flatten := by
  induction earlier generalizing text with
  | nil => exact endsLine_nil
  | cons first earlier ih =>
    obtain ⟨second, others, behind⟩ : ∃ second others, earlier ++ line :: later = second :: others :=
      List.exists_cons_of_ne_nil (List.append_ne_nil_of_right_ne_nil _ (List.cons_ne_nil _ _))
    rw [List.cons_append, behind] at split
    obtain ⟨body, rest, rfl, tail⟩ := exists_of_pieces_eq_cons_cons split
    exact (endsLine_concat body).append (ih (tail.trans behind.symm))

/-- The code of a text that ends where a line ends, with more behind it. -/
theorem codeLines_append (ends : EndsLine left) (right : List Char) :
    codeLines (left ++ right) = (codeLines left).dropLast ++ codeLines right := by
  by_cases empty : left = []
  · simp [empty, codeLines, isComment, trimStart]
  · have ending : left = left.dropLast ++ ['\n'] := by
      rw [← ends _ (List.getLast?_eq_some_getLast empty), List.dropLast_append_getLast]
    rw [ending, List.append_assoc, List.singleton_append]
    simp [codeLines, List.splitOn_append_cons_self, isComment, trimStart]

namespace SameCode

theorem refl (ends : EndsLine left) : SameCode left left :=
  ⟨ends, ends, rfl⟩

theorem append (leading : SameCode left right) (behind : SameCode first second) :
    SameCode (left ++ first) (right ++ second) where
  leftEnds := leading.leftEnds.append behind.leftEnds
  rightEnds := leading.rightEnds.append behind.rightEnds
  codeLines := by
    rw [codeLines_append leading.leftEnds, codeLines_append leading.rightEnds,
      leading.codeLines, behind.codeLines]

theorem flatMap {α : Type} {items : List α} {layout other : α → List Char}
    (same : ∀ item ∈ items, SameCode (layout item) (other item)) :
    SameCode (items.flatMap layout) (items.flatMap other) := by
  induction items with
  | nil => exact refl endsLine_nil
  | cons item rest ih =>
    obtain ⟨head, tail⟩ := List.forall_mem_cons.mp same
    exact head.append (ih tail)

theorem intercalate {parts others : List (List Char)} (same : List.Forall₂ SameCode parts others) :
    SameCode (['\n'].intercalate parts) (['\n'].intercalate others) := by
  induction same with
  | nil => exact refl endsLine_nil
  | cons head tail ih =>
    cases tail with
    | nil => simpa using head
    | cons next later =>
      rw [List.intercalate_cons_cons, List.intercalate_cons_cons]
      exact (head.append (refl (endsLine_concat []))).append ih

/-- A comment has no code. -/
theorem comment {line : List Char} (oneLine : '\n' ∉ line)
    (isComment : Text.isComment line = true) :
    SameCode (line ++ ['\n']) [] where
  leftEnds := endsLine_concat line
  rightEnds := endsLine_nil
  codeLines := by
    have split : (line ++ ['\n']).splitOn '\n' = [line, []] := by
      rw [List.splitOn_append_cons_self, List.splitOn_eq_singleton oneLine]
      rfl
    simp [Text.codeLines, split, isComment]

end SameCode

end Typescribe.Text

namespace Typescribe

open Text

theorem eq_of_mem_margin {unit : Indent} {depth : Nat} {c : Char}
    (member : c ∈ unit.margin depth) : c = ' ' ∨ c = '\t' := by
  rw [Indent.margin, List.mem_flatMap] at member
  obtain ⟨text, listed, member⟩ := member
  rw [List.eq_of_mem_replicate listed] at member
  cases unit with
  | spaces width =>
    rw [Indent.text, String.toList_ofList] at member
    exact .inl (List.eq_of_mem_replicate member)
  | tab => exact .inr (by simpa [Indent.text] using member)

theorem lineFeed_not_mem_margin (unit : Indent) (depth : Nat) : '\n' ∉ unit.margin depth :=
  fun lineFeed => by simpa using eq_of_mem_margin lineFeed

namespace Fragment

@[simp] theorem comments_nil : comments [] = [] := rfl

theorem slashes_isPrefix_commentText (text : String) :
    ['/', '/'] <+: (commentText text).toList := by
  rw [commentText]
  split <;> simp

/-- A comment is a comment at every depth. -/
theorem isComment_commentText (unit : Indent) (depth : Nat) (text : String) :
    isComment (unit.margin depth ++ (commentText text).toList) = true := by
  obtain ⟨rest, starts⟩ := slashes_isPrefix_commentText text
  have blank : ∀ c ∈ unit.margin depth, isBlank c = true := by
    intro c inMargin
    rcases eq_of_mem_margin inMargin with rfl | rfl <;> decide
  rw [isComment, trimStart, List.dropWhile_append_of_pos blank, ← starts]
  simp [show isBlank '/' = false by decide]

/-- The comment of one line is one line. -/
theorem lineFeed_not_mem_commentText {text : String} (oneLine : '\n' ∉ text.toList) :
    '\n' ∉ (commentText text).toList := by
  rw [commentText]
  split <;> simp [oneLine]

/-- The comments of a documentation have no code. -/
theorem sameCode_comments (unit : Indent) (depth : Nat) (documentation : String) :
    SameCode (charsAll unit depth (comments (docLines documentation))) [] := by
  have each : ∀ line ∈ docLines documentation,
      SameCode (unit.lineChars depth (commentText line)) [] := by
    intro line member
    have oneLine := lineFeed_not_mem_commentText (lineFeed_not_mem_docLine member)
    refine .comment ?_ (isComment_commentText unit depth line)
    simp [oneLine, lineFeed_not_mem_margin]
  have none : (docLines documentation).flatMap (fun _ => ([] : List Char)) = [] := by simp
  rw [comments, charsAll_eq_flatMap, List.flatMap_map, ← none]
  simp only [chars]
  exact .flatMap each

/-- A text has the same code behind the comments of a documentation. -/
theorem sameCode_commented (unit : Indent) (depth : Nat) (documentation : String)
    {code other : List Char} (same : SameCode code other) :
    SameCode (charsAll unit depth (comments (docLines documentation)) ++ code) other :=
  (sameCode_comments unit depth documentation).append same

/-- Blocks have the same code if their bodies have. -/
theorem sameCode_braced {unit : Indent} {depth : Nat} {first second : List Fragment}
    (header : String)
    (inside : SameCode (charsAll unit (depth + 1) first) (charsAll unit (depth + 1) second)) :
    SameCode (charsAll unit depth [braced header first])
      (charsAll unit depth [braced header second]) := by
  have line := fun text => SameCode.refl (endsLine_concat (unit.margin depth ++ text))
  simpa [braced, chars, Indent.lineChars] using
    (line (header ++ " \x7b").toList).append (inside.append (line ['}']))

end Fragment

end Typescribe
