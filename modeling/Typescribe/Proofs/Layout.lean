import Typescribe.Proofs.Placeholder.Marks
import Typescribe.Proofs.Text.Lines
import Typescribe.TypeScript.Module

/-!
# The text of fragments

Laying a fragment out appends a text that depends on the unit of indentation and the depth alone.
The text of a list of fragments is the concatenation of their texts, and unless it is empty it
ends with a line.
-/

namespace Typescribe

open Text Placeholder

/-- The indentation at a depth. -/
def Indent.margin (unit : Indent) (depth : Nat) : List Char :=
  (List.replicate depth unit.text).flatMap String.toList

/-- A line at a depth. -/
def Indent.lineChars (unit : Indent) (depth : Nat) (text : String) : List Char :=
  unit.margin depth ++ text.toList ++ ['\n']

namespace Fragment

mutual

/-- The text of a fragment at a depth. -/
def chars (unit : Indent) (depth : Nat) : Fragment → List Char
  | .line text => unit.lineChars depth text
  | .blank => ['\n']
  | .comment text => unit.lineChars depth (commentText text)
  | .indented body => charsAll unit (depth + 1) body
  | .block header body close =>
    unit.lineChars depth header ++ charsAll unit (depth + 1) body ++
      match close with
      | some text => unit.lineChars depth text
      | none => []

/-- The text of fragments at a depth. -/
def charsAll (unit : Indent) (depth : Nat) : List Fragment → List Char
  | [] => []
  | fragment :: rest => chars unit depth fragment ++ charsAll unit depth rest

end

mutual

/-- The texts of the lines that a fragment is laid out to. -/
def texts : Fragment → List String
  | .line text => [text]
  | .blank => []
  | .comment text => [commentText text]
  | .indented body => textsAll body
  | .block header body close => header :: textsAll body ++ close.toList

/-- The texts of the lines that fragments are laid out to. -/
def textsAll : List Fragment → List String
  | [] => []
  | fragment :: rest => texts fragment ++ textsAll rest

end

variable {unit : Indent} {depth : Nat} {first second : List Fragment}

theorem charsAll_eq_flatMap (fragments : List Fragment) :
    charsAll unit depth fragments = fragments.flatMap (chars unit depth) := by
  induction fragments with
  | nil => rw [charsAll, List.flatMap_nil]
  | cons fragment rest ih => rw [charsAll, ih, List.flatMap_cons]

@[simp] theorem charsAll_nil : charsAll unit depth [] = [] := by
  rw [charsAll]

@[simp] theorem charsAll_cons (fragment : Fragment) (rest : List Fragment) :
    charsAll unit depth (fragment :: rest) =
      chars unit depth fragment ++ charsAll unit depth rest := by
  rw [charsAll]

@[simp] theorem charsAll_append :
    charsAll unit depth (first ++ second) =
      charsAll unit depth first ++ charsAll unit depth second := by
  simp only [charsAll_eq_flatMap, List.flatMap_append]

theorem charsAll_flatMap {α : Type} (items : List α) (layout : α → List Fragment) :
    charsAll unit depth (items.flatMap layout) =
      items.flatMap fun item => charsAll unit depth (layout item) := by
  induction items with
  | nil => rw [List.flatMap_nil, List.flatMap_nil, charsAll_nil]
  | cons item rest ih => rw [List.flatMap_cons, List.flatMap_cons, charsAll_append, ih]

@[simp] theorem textsAll_nil : textsAll [] = [] := by
  rw [textsAll]

@[simp] theorem textsAll_cons (fragment : Fragment) (rest : List Fragment) :
    textsAll (fragment :: rest) = texts fragment ++ textsAll rest := by
  rw [textsAll]

@[simp] theorem textsAll_append :
    textsAll (first ++ second) = textsAll first ++ textsAll second := by
  induction first with
  | nil => rw [List.nil_append, textsAll_nil, List.nil_append]
  | cons fragment rest ih =>
    rw [List.cons_append, textsAll_cons, textsAll_cons, ih, List.append_assoc]

end Fragment

namespace Page

@[simp] theorem margin_toList (page : Page) : page.margin.toList = page.unit.margin page.depth := by
  rw [margin, String.toList_join, Indent.margin]

theorem line_eq (page : Page) (text : String) :
    page.line text =
      { page with text := page.text ++ String.ofList (page.unit.lineChars page.depth text) } := by
  rw [line, Indent.lineChars, ← margin_toList]
  congr 1
  rw [← String.toList_inj]
  simp

mutual

/-- Laying out a fragment appends its text and keeps the depth. -/
theorem add_eq (page : Page) (fragment : Fragment) :
    page.add fragment =
      { page with text := page.text ++ String.ofList (fragment.chars page.unit page.depth) } := by
  cases fragment with
  | line text => rw [add, line_eq, Fragment.chars]
  | blank => rw [add, blank, Fragment.chars]
  | comment text => rw [add, comment, line_eq, Fragment.chars]
  | indented body => rw [add, addAll_eq, dedent, Fragment.chars]; rfl
  | block header body close =>
    cases close with
    | none =>
      simp only [add, addAll_eq, dedent, line_eq, indent, Fragment.chars, String.append_assoc,
        List.append_nil, String.ofList_append, Nat.add_sub_cancel]
    | some text =>
      simp only [add, addAll_eq, dedent, line_eq, indent, Fragment.chars, String.append_assoc,
        String.ofList_append, Nat.add_sub_cancel]

/-- Laying out fragments appends their texts and keeps the depth. -/
theorem addAll_eq (page : Page) (fragments : List Fragment) :
    page.addAll fragments =
      { page with
        text :=
          page.text ++ String.ofList (Fragment.charsAll page.unit page.depth fragments) } := by
  cases fragments with
  | nil => rw [addAll, Fragment.charsAll_nil, String.ofList_nil, String.append_empty]
  | cons fragment rest =>
    rw [addAll, addAll_eq, add_eq, Fragment.charsAll_cons, String.ofList_append,
      String.append_assoc]

end

end Page

/-- What respects concatenation respects joining with a separator. -/
theorem intercalate_hom {α β : Type} (convert : List α → List β)
    (empty : convert [] = []) (append : ∀ first second,
      convert (first ++ second) = convert first ++ convert second)
    (separator : List α) (parts : List (List α)) :
    convert (separator.intercalate parts) =
      (convert separator).intercalate (parts.map convert) := by
  induction parts with
  | nil => exact empty
  | cons first rest ih =>
    cases rest with
    | nil => rw [List.intercalate_singleton, List.map_singleton, List.intercalate_singleton]
    | cons second later =>
      rw [List.intercalate_cons_cons, append, append, ih]
      exact List.intercalate_cons_cons.symm

namespace Fragment

theorem separated_eq (parts : List (List Fragment)) :
    TypeScript.Class.separated parts = [Fragment.blank].intercalate parts := by
  induction parts with
  | nil => rfl
  | cons first rest ih =>
    cases rest with
    | nil => rw [TypeScript.Class.separated, List.intercalate_singleton]
    | cons second later =>
      rw [TypeScript.Class.separated, ih, List.intercalate_cons_cons, List.append_assoc]
      · rfl
      · simp

/-- Separated sections are laid out with an empty line between them. -/
theorem charsAll_separated (unit : Indent) (depth : Nat) (parts : List (List Fragment)) :
    charsAll unit depth (TypeScript.Class.separated parts) =
      ['\n'].intercalate (parts.map (charsAll unit depth)) := by
  rw [separated_eq, intercalate_hom (charsAll unit depth) charsAll_nil fun _ _ => charsAll_append,
    charsAll_cons, charsAll_nil, List.append_nil, chars]

/-- What respects concatenation and finds nothing in an empty line is found section by section. -/
theorem hom_separated {β : Type} (convert : List Fragment → List β) (empty : convert [] = [])
    (append : ∀ first second, convert (first ++ second) = convert first ++ convert second)
    (blank : convert [.blank] = []) (parts : List (List Fragment)) :
    convert (TypeScript.Class.separated parts) = parts.flatMap convert := by
  rw [separated_eq]
  induction parts with
  | nil => exact empty
  | cons first rest ih =>
    cases rest with
    | nil => simp
    | cons second later =>
      rw [List.intercalate_cons_cons, append, append, ih, blank, List.append_nil,
        ← List.flatMap_cons]

/-- Nothing is found in sections without content. -/
theorem flatMap_filter_isEmpty {β : Type} {convert : List Fragment → List β}
    (empty : convert [] = []) (parts : List (List Fragment)) :
    (parts.filter fun part => !part.isEmpty).flatMap convert = parts.flatMap convert := by
  induction parts with
  | nil => rfl
  | cons first rest ih => cases first <;> simp [ih, empty]

/-- No line of the fragments has a mark. -/
def UnmarkedLines (fragments : List Fragment) : Prop :=
  ∀ text ∈ textsAll fragments, Unmarked text.toList

instance (fragments : List Fragment) : Decidable (UnmarkedLines fragments) :=
  inferInstanceAs (Decidable (∀ _ ∈ _, _))

namespace UnmarkedLines

variable {first second : List Fragment} {text : String}

theorem nil : UnmarkedLines [] := by
  rw [UnmarkedLines, textsAll_nil]
  exact fun _ member => absurd member List.not_mem_nil

theorem append (left : UnmarkedLines first) (right : UnmarkedLines second) :
    UnmarkedLines (first ++ second) := by
  rw [UnmarkedLines, textsAll_append]
  exact List.forall_mem_append.mpr ⟨left, right⟩

theorem cons {fragment : Fragment} (head : ∀ text ∈ fragment.texts, Unmarked text.toList)
    (tail : UnmarkedLines second) : UnmarkedLines (fragment :: second) := by
  rw [UnmarkedLines, textsAll_cons]
  exact List.forall_mem_append.mpr ⟨head, tail⟩

theorem blank (tail : UnmarkedLines second) : UnmarkedLines (.blank :: second) := by
  apply cons _ tail
  rw [texts]
  exact fun _ member => absurd member List.not_mem_nil

theorem line (unmarked : Unmarked text.toList) (tail : UnmarkedLines second) :
    UnmarkedLines (.line text :: second) := by
  apply cons _ tail
  rwa [texts, List.forall_mem_singleton]

theorem comment (unmarked : Unmarked text.toList) (tail : UnmarkedLines second) :
    UnmarkedLines (.comment text :: second) := by
  apply cons _ tail
  rw [texts, List.forall_mem_singleton, commentText]
  split
  · decide
  · rw [String.toList_append]
    exact .append_of_not_mem (by decide) unmarked

theorem indented (inside : UnmarkedLines first) (tail : UnmarkedLines second) :
    UnmarkedLines (.indented first :: second) := by
  apply cons _ tail
  rwa [texts]

/-- A block between braces has two lines of its own. -/
theorem braced (header : Unmarked text.toList) (inside : UnmarkedLines first)
    (tail : UnmarkedLines second) : UnmarkedLines (.braced text first :: second) := by
  apply cons _ tail
  have opened : Unmarked (text ++ " \x7b").toList := by
    rw [String.toList_append]
    exact header.append_of_head (by decide) (by decide)
  rw [Fragment.braced, texts, List.forall_mem_append, List.forall_mem_cons]
  exact ⟨⟨opened, inside⟩, by decide⟩

theorem flatMap {α : Type} {items : List α} {layout : α → List Fragment}
    (inside : ∀ item ∈ items, UnmarkedLines (layout item)) :
    UnmarkedLines (items.flatMap layout) := by
  induction items with
  | nil => exact nil
  | cons item rest ih =>
    obtain ⟨head, tail⟩ := List.forall_mem_cons.mp inside
    rw [List.flatMap_cons]
    exact head.append (ih tail)

theorem lines {texts : List String} (unmarked : ∀ text ∈ texts, Unmarked text.toList) :
    UnmarkedLines (texts.map .line) := by
  induction texts with
  | nil => exact nil
  | cons text rest ih =>
    obtain ⟨head, tail⟩ := List.forall_mem_cons.mp unmarked
    exact line head (ih tail)

theorem comments {texts : List String} (unmarked : ∀ text ∈ texts, Unmarked text.toList) :
    UnmarkedLines (Fragment.comments texts) := by
  induction texts with
  | nil => exact nil
  | cons text rest ih =>
    obtain ⟨head, tail⟩ := List.forall_mem_cons.mp unmarked
    exact comment head (ih tail)

theorem separated {parts : List (List Fragment)} (inside : ∀ part ∈ parts, UnmarkedLines part) :
    UnmarkedLines (TypeScript.Class.separated parts) := by
  induction parts with
  | nil => exact nil
  | cons first rest ih =>
    obtain ⟨head, tail⟩ := List.forall_mem_cons.mp inside
    cases rest with
    | nil => exact head
    | cons second later =>
      rw [TypeScript.Class.separated]
      · exact head.append (blank (ih tail))
      · simp

end UnmarkedLines

theorem brace_not_mem_margin (unit : Indent) (depth : Nat) : '{' ∉ unit.margin depth := by
  rw [Indent.margin, List.mem_flatMap]
  rintro ⟨text, listed, member⟩
  rw [List.eq_of_mem_replicate listed] at member
  cases unit with
  | spaces width =>
    rw [Indent.text, String.toList_ofList] at member
    exact absurd (List.eq_of_mem_replicate member) (by decide)
  | tab => exact absurd member (by decide)

theorem settled_margin : Settled (Indent.standard.margin 1) :=
  ⟨.of_not_mem (brace_not_mem_margin _ _), by decide⟩

/-- A line is settled if its text has no mark. -/
theorem settled_lineChars (unit : Indent) (depth : Nat) {text : String}
    (unmarked : Unmarked text.toList) : Settled (unit.lineChars depth text) :=
  .line (.append_of_not_mem (brace_not_mem_margin unit depth) unmarked)

mutual

theorem settled_chars (unit : Indent) (depth : Nat) (fragment : Fragment)
    (unmarked : ∀ text ∈ fragment.texts, Unmarked text.toList) :
    Settled (fragment.chars unit depth) := by
  cases fragment with
  | line text =>
    rw [texts, List.forall_mem_singleton] at unmarked
    rw [chars]
    exact settled_lineChars unit depth unmarked
  | blank =>
    rw [chars]
    exact .line (.of_not_mem List.not_mem_nil)
  | comment text =>
    rw [texts, List.forall_mem_singleton] at unmarked
    rw [chars]
    exact settled_lineChars unit depth unmarked
  | indented body =>
    rw [texts] at unmarked
    rw [chars]
    exact settled_charsAll unit (depth + 1) body unmarked
  | block header body close =>
    rw [texts, List.forall_mem_append, List.forall_mem_cons] at unmarked
    obtain ⟨⟨unmarkedHeader, unmarkedBody⟩, unmarkedClose⟩ := unmarked
    have opened := (settled_lineChars unit depth unmarkedHeader).append
      (settled_charsAll unit (depth + 1) body unmarkedBody)
    cases close with
    | none =>
      rw [chars]
      exact opened.append .nil
    | some text =>
      rw [chars]
      exact opened.append (settled_lineChars unit depth (unmarkedClose text (by simp)))

/-- Laid-out fragments are settled if no line has a mark. -/
theorem settled_charsAll (unit : Indent) (depth : Nat) (fragments : List Fragment)
    (unmarked : UnmarkedLines fragments) :
    Settled (charsAll unit depth fragments) := by
  cases fragments with
  | nil =>
    rw [charsAll_nil]
    exact .nil
  | cons fragment rest =>
    rw [UnmarkedLines, textsAll_cons, List.forall_mem_append] at unmarked
    rw [charsAll_cons]
    exact (settled_chars unit depth fragment unmarked.1).append
      (settled_charsAll unit depth rest unmarked.2)

end

theorem getLast?_append_of {first second : List Char} (left : ∀ c ∈ first.getLast?, c = '\n')
    (right : ∀ c ∈ second.getLast?, c = '\n') : ∀ c ∈ (first ++ second).getLast?, c = '\n' := by
  intro c member
  rw [List.getLast?_append, Option.mem_def, Option.or_eq_some_iff] at member
  rcases member with member | ⟨-, member⟩
  · exact right c member
  · exact left c member

mutual

theorem getLast?_chars (unit : Indent) (depth : Nat) (fragment : Fragment) :
    ∀ c ∈ (fragment.chars unit depth).getLast?, c = '\n' := by
  have ofLine : ∀ text, ∀ c ∈ (unit.lineChars depth text).getLast?, c = '\n' := by
    intro text c member
    rw [Indent.lineChars, List.getLast?_concat, Option.mem_some_iff] at member
    exact member.symm
  cases fragment with
  | line text =>
    rw [chars]
    exact ofLine text
  | blank => simp [chars]
  | comment text =>
    rw [chars]
    exact ofLine _
  | indented body =>
    rw [chars]
    exact getLast?_charsAll unit (depth + 1) body
  | block header body close =>
    cases close with
    | none =>
      rw [chars, List.append_nil]
      exact getLast?_append_of (ofLine header) (getLast?_charsAll unit (depth + 1) body)
    | some text =>
      rw [chars]
      exact getLast?_append_of (getLast?_append_of (ofLine header)
        (getLast?_charsAll unit (depth + 1) body)) (ofLine text)

/-- Laid-out fragments end with a line feed. -/
theorem getLast?_charsAll (unit : Indent) (depth : Nat) (fragments : List Fragment) :
    ∀ c ∈ (charsAll unit depth fragments).getLast?, c = '\n' := by
  cases fragments with
  | nil => simp
  | cons fragment rest =>
    rw [charsAll_cons]
    exact getLast?_append_of (getLast?_chars unit depth fragment)
      (getLast?_charsAll unit depth rest)

end

/-- The line that a fragment starts with. -/
def firstLine? : Fragment → Option String
  | .line text => some text
  | .block header _ _ => some header
  | _ => none

/-- At the left margin, the line that a fragment starts with is a line of the text. -/
theorem hasLine_charsAll {fragments : List Fragment} {fragment : Fragment} {line : String}
    (unit : Indent) (member : fragment ∈ fragments) (starts : fragment.firstLine? = some line) :
    HasLine (charsAll unit 0 fragments) line.toList := by
  obtain ⟨before, after, rfl⟩ := List.append_of_mem member
  have leading : ∃ rest, fragment.chars unit 0 = line.toList ++ '\n' :: rest := by
    cases fragment with
    | line text =>
      obtain rfl := Option.some.inj starts
      exact ⟨[], by rw [chars]; rfl⟩
    | block header body close =>
      obtain rfl := Option.some.inj starts
      cases close with
      | none => exact ⟨charsAll unit 1 body, by simp [chars, Indent.lineChars, Indent.margin]⟩
      | some text =>
        exact ⟨charsAll unit 1 body ++ unit.lineChars 0 text, by
          simp [chars, Indent.lineChars, Indent.margin]⟩
    | blank => cases starts
    | comment text => cases starts
    | indented body => cases starts
  obtain ⟨rest, leading⟩ := leading
  have feed : ∃ init, '\n' :: charsAll unit 0 before = init ++ ['\n'] := by
    rcases List.eq_nil_or_concat (charsAll unit 0 before) with empty | ⟨init, last, ends⟩
    · exact ⟨[], by rw [empty]; rfl⟩
    · have isFeed := getLast?_charsAll unit 0 before last (by simp [ends])
      exact ⟨'\n' :: init, by rw [ends, isFeed, List.concat_eq_append]; rfl⟩
  obtain ⟨init, feed⟩ := feed
  refine ⟨init, rest ++ charsAll unit 0 after, ?_⟩
  calc init ++ ('\n' :: (line.toList ++ ['\n'])) ++ (rest ++ charsAll unit 0 after)
    _ = (init ++ ['\n']) ++ ((line.toList ++ '\n' :: rest) ++ charsAll unit 0 after) := by simp
    _ = '\n' :: charsAll unit 0 (before ++ fragment :: after) := by
      rw [← feed, ← leading, charsAll_append, charsAll_cons, List.cons_append]

theorem mem_separated {parts : List (List Fragment)} {part : List Fragment} {fragment : Fragment}
    (listed : part ∈ parts) (member : fragment ∈ part) :
    fragment ∈ TypeScript.Class.separated parts := by
  induction parts with
  | nil => exact absurd listed List.not_mem_nil
  | cons first rest ih =>
    cases rest with
    | nil => exact List.mem_singleton.mp listed ▸ member
    | cons second later =>
      rw [TypeScript.Class.separated]
      · rcases List.mem_cons.mp listed with rfl | listed
        · exact List.mem_append_left _ member
        · exact List.mem_append_right _ (List.mem_cons_of_mem _ (ih listed))
      · simp

end Fragment

/-- Fragments are laid out at the left margin of an empty page. -/
theorem Page.text_addAll (fragments : List Fragment) :
    (Page.addAll {} fragments).text = String.ofList (Fragment.charsAll .standard 0 fragments) := by
  rw [Page.addAll_eq]
  exact String.empty_append

/-- The text of a module is the text of its fragments at the left margin. -/
theorem TypeScript.Module.render_toList (item : TypeScript.Module) :
    item.render.toList = Fragment.charsAll .standard 0 item.fragments := by
  rw [render, Page.text_addAll, String.toList_ofList]

end Typescribe
