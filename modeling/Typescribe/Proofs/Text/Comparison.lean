import Mathlib.Data.List.DropRight
import Typescribe.Proofs.Text.Lines
import Typescribe.Proofs.Text.Occurrence
import Typescribe.Text.Comparison

/-!
# What the comparison of two texts says

A difference is reported at the first line that is not the same in both texts. If all lines are the
same, the texts differ in how their lines end. This is called a difference in trailing newlines,
which it is unless a carriage return stands before a line feed.
-/

namespace Typescribe.Text

/-- A line ending of two characters. -/
def returnFeed : List Char := ['\r', '\n']

/-- A text whose last line is closed. -/
def closed (text : List Char) : List Char :=
  if text = [] ∨ text.getLast? = some '\n' then text else text ++ ['\n']

/-- A text in which every line, the last one included, ends with a line feed alone. -/
def unified (text : List Char) : List Char :=
  closed (replaceAll returnFeed ['\n'] text)

/-- A text without the characters of line endings at its end. -/
def withoutTrailingNewlines (text : String) : String :=
  String.ofList (text.toList.rdropWhile fun c => c = '\n' || c = '\r')

/-- Two lists of lines are the same up to an offset and differ in the lines there. A list that has
ended has no such line. -/
structure DifferAt (first second : List String) (offset : Nat) (want got : Option String) :
    Prop where
  before : first.take offset = second.take offset
  inFirst : first[offset]? = want
  inSecond : second[offset]? = got
  different : want ≠ got

/-! ## Line endings -/

theorem closed_append_lineFeed (before rest : List Char) :
    closed (before ++ '\n' :: rest) = before ++ '\n' :: closed rest := by
  cases rest with
  | nil => simp [closed]
  | cons c rest =>
    have sameLast : (before ++ '\n' :: c :: rest).getLast? = (c :: rest).getLast? := by
      rw [List.getLast?_append, List.getLast?_cons_cons, List.getLast?_cons, Option.some_or]
    rw [closed, closed, sameLast]
    split
    next ends => rw [if_pos (by simpa using ends)]
    next goesOn => rw [if_neg (by simpa using goesOn), List.append_assoc, List.cons_append]

/-- Closing their last lines makes two texts the same only if one is the other with its last line
closed. -/
theorem eq_of_closed_eq {first second : List Char} (same : closed first = closed second) :
    first = second ∨ second = first ++ ['\n'] ∨ first = second ++ ['\n'] := by
  rw [closed, closed] at same
  split at same
  · split at same
    · exact .inl same
    · exact .inr (.inr same)
  · split at same
    · exact .inr (.inl same.symm)
    · exact .inl (List.append_cancel_right same)

/-- The longer line ending starts nowhere in a line, unless the line goes on with its second
half. -/
theorem apart_returnFeed {line after : List Char} (oneLine : '\n' ∉ line)
    (notSplit : line.getLast? = some '\r' → after.head? ≠ some '\n') :
    Apart returnFeed line after := by
  rintro left right rfl nonempty ⟨more, found⟩
  obtain ⟨c, tail, rfl⟩ := List.exists_cons_of_ne_nil nonempty
  rw [returnFeed, List.cons_append, List.cons_append, List.cons_append, List.cons.injEq] at found
  obtain ⟨isReturn, found⟩ := found
  cases tail with
  | nil =>
    refine notSplit ?_ ?_
    · rw [← isReturn, List.getLast?_concat]
    · rw [← List.nil_append after, ← found]
      rfl
  | cons d tail =>
    rw [List.cons_append, List.cons.injEq] at found
    exact oneLine (by simp [← found.1])

theorem replaceAll_returnFeed_eq_self {text : List Char} (absent : ¬ returnFeed <:+: text) :
    replaceAll returnFeed ['\n'] text = text := by
  have apart : Apart returnFeed text [] := by
    rintro left right rfl - found
    rw [List.append_nil] at found
    exact absent (found.isInfix.trans (List.suffix_append left right).isInfix)
  have replaced : replaceAll returnFeed ['\n'] (text ++ []) =
      text ++ replaceAll returnFeed ['\n'] [] :=
    replaceAll_append_of_apart apart
  rwa [List.append_nil, replaceAll_nil, List.append_nil] at replaced

/-- The ending of a line is replaced by a line feed. -/
theorem replaceAll_returnFeed_line {line : List Char} (oneLine : '\n' ∉ line) (rest : List Char) :
    replaceAll returnFeed ['\n'] (line ++ '\n' :: rest) =
      body (line ++ ['\n']) ++ '\n' :: replaceAll returnFeed ['\n'] rest := by
  -- A carriage return at the end of the line belongs to its ending.
  by_cases returns : line.getLast? = some '\r'
  · obtain ⟨start, rfl⟩ : ∃ start, line = start ++ ['\r'] := List.getLast?_eq_some_iff.mp returns
    have ending : start ++ ['\r'] ++ '\n' :: rest = start ++ (returnFeed ++ rest) := by
      simp [returnFeed]
    have apart : Apart returnFeed start (returnFeed ++ rest) :=
      apart_returnFeed (fun inside => oneLine (List.mem_append_left _ inside)) fun _ => by
        simp [returnFeed]
    have bare : body (start ++ ['\r'] ++ ['\n']) = start := by simp [body]
    have nonempty : returnFeed ≠ [] := List.cons_ne_nil _ _
    rw [ending, replaceAll_append_of_apart apart, replaceAll_occurrence nonempty, bare,
      List.singleton_append]
  · have apart : Apart returnFeed line ('\n' :: rest) :=
      apart_returnFeed oneLine fun isReturn => absurd isReturn returns
    rw [replaceAll_append_of_apart apart, replaceAll_cons (by simp [returnFeed]),
      body_append_lineFeed returns]

/-- Every line is closed by a line feed alone. -/
theorem unified_eq_flatMap (text : List Char) :
    unified text = (lineChars text).flatMap (· ++ ['\n']) := by
  induction text using line_induction with
  | last line oneLine =>
    have kept : replaceAll returnFeed ['\n'] line = line :=
      replaceAll_returnFeed_eq_self (not_infix_of_not_mem (by simp [returnFeed]) oneLine)
    by_cases empty : line = []
    · rw [empty]
      rfl
    · have unclosed : ¬ (line = [] ∨ line.getLast? = some '\n') := by
        rintro (isEmpty | isFeed)
        · exact empty isEmpty
        · exact oneLine (List.mem_of_getLast? isFeed)
      rw [unified, kept, closed, if_neg unclosed, lineChars, pieces_eq_singleton oneLine empty,
        List.map_singleton, body_eq_self oneLine, List.flatMap_singleton]
  | step line rest oneLine ih =>
    have split : lineChars (line ++ '\n' :: rest) = body (line ++ ['\n']) :: lineChars rest := by
      rw [lineChars, pieces_append_lineFeed oneLine, List.map_cons, lineChars]
    rw [unified, replaceAll_returnFeed_line oneLine, closed_append_lineFeed, ← unified, ih, split,
      List.flatMap_cons, List.append_assoc, List.singleton_append]

/-- Lines that are closed by line feeds are found again with them. -/
theorem pieces_flatMap {texts : List (List Char)} (oneLine : ∀ line ∈ texts, '\n' ∉ line) :
    pieces (texts.flatMap (· ++ ['\n'])) = texts.map (· ++ ['\n']) := by
  induction texts with
  | nil => rfl
  | cons line rest ih =>
    obtain ⟨head, tail⟩ := List.forall_mem_cons.mp oneLine
    rw [List.flatMap_cons, List.append_assoc, List.singleton_append, pieces_append_lineFeed head,
      ih tail, List.map_cons]

/-- Texts have the same lines exactly if they are the same once their line endings are. -/
theorem lines_eq_iff {first second : String} :
    lines first = lines second ↔ unified first.toList = unified second.toList := by
  have oneLine (text : List Char) : ∀ line ∈ lineChars text, '\n' ∉ line := by
    rw [lineChars, List.forall_mem_map]
    exact fun piece listed => lineFeed_not_mem_body listed
  have sameChars : lines first = lines second ↔
      lineChars first.toList = lineChars second.toList :=
    List.map_inj_right fun _ _ => String.ofList_inj.mp
  rw [sameChars, unified_eq_flatMap, unified_eq_flatMap]
  constructor
  · intro same
    rw [same]
  · intro same
    have samePieces := congrArg pieces same
    rw [pieces_flatMap (oneLine _), pieces_flatMap (oneLine _)] at samePieces
    exact (List.map_inj_right fun _ _ => List.append_cancel_right).mp samePieces

/-! ## Verdicts -/

section

variable {first second : List String} {offset : Nat} {want got : Option String}

theorem not_differAt_self : ¬ DifferAt first first offset want got :=
  fun differ => differ.different (differ.inFirst.symm.trans differ.inSecond)

/-- Lists that do not start alike differ there and nowhere else. -/
theorem differAt_iff_of_head?_ne (different : first.head? ≠ second.head?) :
    DifferAt first second offset want got ↔
      offset = 0 ∧ first.head? = want ∧ second.head? = got := by
  rw [List.head?_eq_getElem?, List.head?_eq_getElem?] at different ⊢
  constructor
  · intro differ
    cases offset with
    | zero => exact ⟨rfl, differ.inFirst, differ.inSecond⟩
    | succ offset =>
      have same := congrArg (·[0]?) differ.before
      rw [List.getElem?_take_of_lt (Nat.succ_pos offset),
        List.getElem?_take_of_lt (Nat.succ_pos offset)] at same
      exact absurd same different
  · rintro ⟨rfl, rfl, rfl⟩
    exact ⟨rfl, rfl, rfl, different⟩

/-- Lists that start alike differ behind their first lines. -/
theorem differAt_cons_self {line : String} :
    DifferAt (line :: first) (line :: second) offset want got ↔
      ∃ behind, offset = behind + 1 ∧ DifferAt first second behind want got := by
  constructor
  · intro differ
    cases offset with
    | zero => exact absurd (differ.inFirst.symm.trans differ.inSecond) differ.different
    | succ offset =>
      have before := differ.before
      rw [List.take_succ_cons, List.take_succ_cons, List.cons.injEq] at before
      exact ⟨offset, rfl, before.2, differ.inFirst, differ.inSecond, differ.different⟩
  · rintro ⟨behind, rfl, differ⟩
    refine ⟨?_, differ.inFirst, differ.inSecond, differ.different⟩
    rw [List.take_succ_cons, List.take_succ_cons, differ.before]

end

namespace Difference

variable {start number : Nat} {first second : List String} {want got : Option String}

/-- Two lists of which the first two patterns of the comparison miss do not start alike. -/
theorem head?_ne_of_unmatched (notNil : first = [] → second = [] → False)
    (notCons : ∀ expected restExpected actual restActual, first = expected :: restExpected →
      second = actual :: restActual → False) : first.head? ≠ second.head? := by
  cases first with
  | nil =>
    cases second with
    | nil => exact (notNil rfl rfl).elim
    | cons actual restActual => simp
  | cons expected restExpected =>
    cases second with
    | nil => simp
    | cons actual restActual => exact (notCons _ _ _ _ rfl rfl).elim

/-- Only the same lines have no line at which they differ. -/
theorem ofLines_eq_trailingNewlines_iff :
    ofLines start first second = trailingNewlines ↔ first = second := by
  fun_induction ofLines start first second with
  | case1 => simp
  | case2 start first line second ih => simp [ih]
  | case3 start expected first actual second different => simp [different]
  | case4 start first second notNil notCons =>
    have heads := head?_ne_of_unmatched notNil notCons
    exact iff_of_false Difference.noConfusion fun same => heads (congrArg List.head? same)

/-- A difference is found where the lists differ. -/
theorem ofLines_eq_atLine_iff :
    ofLines start first second = atLine number want got ↔
      ∃ offset, number = start + offset ∧ DifferAt first second offset want got := by
  fun_induction ofLines start first second with
  | case1 => simp [not_differAt_self]
  | case2 start first line second ih =>
    rw [ih]
    constructor
    · rintro ⟨offset, rfl, behind⟩
      exact ⟨offset + 1, by omega, differAt_cons_self.mpr ⟨offset, rfl, behind⟩⟩
    · rintro ⟨_, rfl, differ⟩
      obtain ⟨offset, rfl, behind⟩ := differAt_cons_self.mp differ
      exact ⟨offset, by omega, behind⟩
  | case3 start expected first actual second different =>
    have heads : (expected :: first).head? ≠ (actual :: second).head? := by simpa using different
    simp [differAt_iff_of_head?_ne heads, eq_comm]
  | case4 start first second notNil notCons =>
    have heads := head?_ne_of_unmatched notNil notCons
    simp [differAt_iff_of_head?_ne heads, eq_comm]

end Difference

section

variable {expected actual : String}

theorem difference_eq_none_iff : difference expected actual = none ↔ expected = actual := by
  simp [difference]

theorem difference_eq_some_iff {verdict : Difference} :
    difference expected actual = some verdict ↔
      expected ≠ actual ∧ Difference.ofLines 1 (lines expected) (lines actual) = verdict := by
  simp [difference]

/-- A difference is reported at the first line that is not the same. -/
theorem difference_eq_atLine_iff {number : Nat} {want got : Option String} :
    difference expected actual = some (.atLine number want got) ↔
      1 ≤ number ∧ DifferAt (lines expected) (lines actual) (number - 1) want got := by
  rw [difference_eq_some_iff, Difference.ofLines_eq_atLine_iff]
  constructor
  · rintro ⟨-, offset, rfl, differ⟩
    exact ⟨by omega, by rwa [Nat.add_sub_cancel_left]⟩
  · rintro ⟨positive, differ⟩
    refine ⟨?_, number - 1, by omega, differ⟩
    rintro rfl
    exact not_differAt_self differ

/-- Only line endings are found to differ if texts are the same once these are. -/
theorem difference_eq_trailingNewlines_iff :
    difference expected actual = some .trailingNewlines ↔
      expected ≠ actual ∧ unified expected.toList = unified actual.toList := by
  rw [difference_eq_some_iff, Difference.ofLines_eq_trailingNewlines_iff, lines_eq_iff]

/-- Texts with one kind of line ending and the same lines are the same but for the ending of the
last line. -/
theorem eq_append_lineFeed (plain : ¬ returnFeed <:+: expected.toList)
    (otherPlain : ¬ returnFeed <:+: actual.toList) (different : expected ≠ actual)
    (same : unified expected.toList = unified actual.toList) :
    actual = expected ++ "\n" ∨ expected = actual ++ "\n" := by
  rw [unified, unified, replaceAll_returnFeed_eq_self plain,
    replaceAll_returnFeed_eq_self otherPlain] at same
  rcases eq_of_closed_eq same with equal | longer | shorter
  · exact absurd (String.toList_inj.mp equal) different
  · exact .inl (by rw [← String.toList_inj, longer, String.toList_append]; rfl)
  · exact .inr (by rw [← String.toList_inj, shorter, String.toList_append]; rfl)

end

theorem withoutTrailingNewlines_append (text : String) :
    withoutTrailingNewlines (text ++ "\n") = withoutTrailingNewlines text := by
  rw [withoutTrailingNewlines, String.toList_append]
  exact congrArg String.ofList (List.rdropWhile_concat_pos _ _ _ rfl)

theorem message_atLine (number : Nat) (want got : Option String) :
    (Difference.atLine number want got).message =
      String.join ["content differs at line ", number.repr, "\n  expected: ",
        want.getD "<end of file>", "\n  actual:   ", got.getD "<end of file>"] := by
  have written : (Difference.atLine number want got).message =
    "content differs at line " ++ number.repr ++ "\n  expected: " ++ want.getD "<end of file>" ++
      "\n  actual:   " ++ got.getD "<end of file>" := rfl
  rw [written, ← String.toList_inj]
  simp

end Typescribe.Text
