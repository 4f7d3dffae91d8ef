import Mathlib.Data.List.Basic
import Typescribe.Text.Span

/-!
# What places in a text cover

The bytes in front of a place and in it are those of the parts that the text is split into. A search
finds occurrences only, from left to right, and none earlier than the first that it finds; with one
found, all others overlap it.
-/

namespace Typescribe.Text

@[simp] theorem byteLength_nil : byteLength [] = 0 := rfl

@[simp] theorem byteLength_cons (c : Char) (rest : List Char) :
    byteLength (c :: rest) = c.utf8Size + byteLength rest := rfl

@[simp] theorem byteLength_append (left right : List Char) :
    byteLength (left ++ right) = byteLength left + byteLength right := by
  induction left with
  | nil => simp
  | cons c left ih => simp [ih, Nat.add_assoc]

theorem byteLength_eq_utf8ByteSize_ofList (text : List Char) :
    byteLength text = (String.ofList text).utf8ByteSize := by
  induction text with
  | nil => rfl
  | cons c rest ih =>
    have split : String.ofList (c :: rest) = String.singleton c ++ String.ofList rest :=
      String.toList_inj.mp (by simp)
    rw [byteLength_cons, ih, split, String.utf8ByteSize_append, String.utf8ByteSize_singleton]

theorem byteLength_toList (text : String) : byteLength text.toList = text.utf8ByteSize := by
  rw [byteLength_eq_utf8ByteSize_ofList, String.ofList_toList]

/-- A part that is missing its end has fewer bytes. -/
theorem byteLength_lt_of_isPrefix {left right : List Char} (isPrefix : left <+: right)
    (shorter : left.length < right.length) : byteLength left < byteLength right := by
  obtain ⟨missing, rfl⟩ := isPrefix
  cases missing with
  | nil => simp at shorter
  | cons c missing =>
    have positive := c.utf8Size_pos
    rw [byteLength_append, byteLength_cons]
    omega

/-- Two beginnings of a text with as many bytes are the same. -/
theorem eq_of_isPrefix_of_byteLength {left right text : List Char} (isLeft : left <+: text)
    (isRight : right <+: text) (same : byteLength left = byteLength right) : left = right := by
  rcases Nat.lt_trichotomy left.length right.length with shorter | equal | longer
  · have isPrefix := List.prefix_of_prefix_length_le isLeft isRight (Nat.le_of_lt shorter)
    exact absurd same (Nat.ne_of_lt (byteLength_lt_of_isPrefix isPrefix shorter))
  · exact (List.prefix_of_prefix_length_le isLeft isRight (Nat.le_of_eq equal)).eq_of_length equal
  · have isPrefix := List.prefix_of_prefix_length_le isRight isLeft (Nat.le_of_lt longer)
    exact absurd same.symm (Nat.ne_of_lt (byteLength_lt_of_isPrefix isPrefix longer))

/-- A span is the part of a text between two others. All three are texts, so it starts and ends
between characters. -/
structure Span.Covers (span : Span) (text before covered after : String) : Prop where
  text_eq : text = before ++ covered ++ after
  offset_eq : span.offset = before.utf8ByteSize
  length_eq : span.length = covered.utf8ByteSize

theorem Span.covers_iff {span : Span} {text before covered after : String} :
    span.Covers text before covered after ↔
      text.toList = before.toList ++ covered.toList ++ after.toList ∧
        span = ⟨byteLength before.toList, byteLength covered.toList⟩ := by
  simp only [byteLength_toList]
  constructor
  · rintro ⟨rfl, offset, length⟩
    refine ⟨by simp, ?_⟩
    rw [← offset, ← length]
  · rintro ⟨split, rfl⟩
    exact ⟨String.toList_inj.mp (by simpa using split), rfl, rfl⟩

/-- The first of the places of some kind, if there are any. -/
def Span.IsFirst (place : Span → Prop) : Option Span → Prop
  | none => ∀ span, ¬ place span
  | some first => place first ∧ ∀ span, place span → first.offset ≤ span.offset

theorem Span.isFirst_of {place : Span → Prop} {found : Option Span}
    (sound : ∀ first ∈ found, place first)
    (reached : ∀ span, place span → ∃ first ∈ found, first.offset ≤ span.offset) :
    Span.IsFirst place found := by
  cases found with
  | none =>
    intro span placed
    obtain ⟨_, impossible, -⟩ := reached span placed
    cases impossible
  | some first =>
    refine ⟨sound first rfl, fun span placed => ?_⟩
    obtain ⟨_, isFirst, earlier⟩ := reached span placed
    obtain rfl := Option.some.inj isFirst
    exact earlier

/-- In a text that starts at an offset, a pattern occurs at another. -/
def OccursAt (pattern text : List Char) (start offset : Nat) : Prop :=
  ∃ before after, text = before ++ pattern ++ after ∧ offset = start + byteLength before

section Search

variable {pattern text rest : List Char} {c : Char} {skipped start offset : Nat}

theorem OccursAt.cons (occurs : OccursAt pattern rest (start + c.utf8Size) offset) :
    OccursAt pattern (c :: rest) start offset := by
  obtain ⟨before, after, rfl, rfl⟩ := occurs
  exact ⟨c :: before, after, rfl, by rw [byteLength_cons, Nat.add_assoc]⟩

theorem OccursAt.le (occurs : OccursAt pattern text start offset) : start ≤ offset := by
  obtain ⟨before, -, -, rfl⟩ := occurs
  exact Nat.le_add_right start _

/-- What is found is an occurrence. -/
theorem occursAt_of_mem (found : offset ∈ occurrencesFrom pattern skipped start text) :
    OccursAt pattern text start offset := by
  induction text generalizing skipped start with
  | nil => cases skipped <;> exact absurd found List.not_mem_nil
  | cons c rest ih =>
    cases skipped with
    | succ skipped => exact (ih found).cons
    | zero =>
      rw [occurrencesFrom] at found
      split at found
      next here =>
        rcases List.mem_cons.mp found with rfl | found
        · obtain ⟨after, split⟩ := List.isPrefixOf_iff_prefix.mp here
          exact ⟨[], after, split.symm, rfl⟩
        · exact (ih found).cons
      next => exact (ih found).cons

/-- Occurrences are found from left to right. -/
theorem pairwise_occurrencesFrom (pattern : List Char) (skipped start : Nat) (text : List Char) :
    (occurrencesFrom pattern skipped start text).Pairwise (· < ·) := by
  induction text generalizing skipped start with
  | nil => cases skipped <;> exact .nil
  | cons c rest ih =>
    cases skipped with
    | succ skipped => exact ih _ _
    | zero =>
      rw [occurrencesFrom]
      split
      next =>
        refine .cons (fun later found => ?_) (ih _ _)
        have behind := (occursAt_of_mem found).le
        have positive := c.utf8Size_pos
        omega
      next => exact ih _ _

variable {before after : List Char}

/-- No occurrence is earlier than all that are found, those in the characters passed over apart. -/
theorem exists_mem_occurrencesFrom (nonempty : pattern ≠ []) (passed : skipped ≤ before.length) :
    ∃ offset ∈ occurrencesFrom pattern skipped start (before ++ pattern ++ after),
      offset ≤ start + byteLength before := by
  induction before generalizing skipped start with
  | nil =>
    obtain ⟨c, rest, rfl⟩ := List.exists_cons_of_ne_nil nonempty
    have here : (c :: rest).isPrefixOf (c :: (rest ++ after)) = true :=
      List.isPrefixOf_iff_prefix.mpr ⟨after, rfl⟩
    obtain rfl : skipped = 0 := Nat.le_zero.mp passed
    rw [List.nil_append, List.cons_append, occurrencesFrom, if_pos here]
    exact ⟨start, List.mem_cons_self, Nat.le_add_right start _⟩
  | cons c before ih =>
    rw [byteLength_cons, ← Nat.add_assoc]
    cases skipped with
    | succ skipped => exact ih (Nat.le_of_succ_le_succ passed)
    | zero =>
      rw [List.cons_append, List.cons_append, occurrencesFrom]
      split
      next => exact ⟨start, List.mem_cons_self, by omega⟩
      next => exact ih (Nat.zero_le _)

/-- If there is one that is found, every other occurrence overlaps it. -/
theorem lt_of_occurrencesFrom_eq_singleton (nonempty : pattern ≠ [])
    (passed : skipped ≤ before.length)
    (single : occurrencesFrom pattern skipped start (before ++ pattern ++ after) = [offset]) :
    start + byteLength before < offset + byteLength pattern := by
  induction before generalizing skipped start with
  | nil =>
    have behind := (occursAt_of_mem (single ▸ List.mem_singleton_self offset)).le
    have positive := byteLength_lt_of_isPrefix List.nil_prefix (List.length_pos_of_ne_nil nonempty)
    exact Nat.add_lt_add_of_le_of_lt behind positive
  | cons c before ih =>
    rw [byteLength_cons, ← Nat.add_assoc]
    cases skipped with
    | succ skipped => exact ih (Nat.le_of_succ_le_succ passed) single
    | zero =>
      rw [List.cons_append, List.cons_append, occurrencesFrom] at single
      split at single
      next here =>
        obtain ⟨rfl, noneBehind⟩ := List.cons.inj single
        -- Behind the end of what was found, the other occurrence would have been found as well.
        have shorter : before.length < pattern.length - 1 := by
          by_contra apart
          obtain ⟨offset, found, -⟩ :=
            exists_mem_occurrencesFrom nonempty (Nat.le_of_not_lt apart)
          rw [noneBehind] at found
          exact absurd found List.not_mem_nil
        have isPrefix : c :: before <+: pattern := by
          refine List.prefix_of_prefix_length_le ⟨pattern ++ after, by simp⟩
            (List.isPrefixOf_iff_prefix.mp here) ?_
          rw [List.length_cons]
          omega
        have fewer := byteLength_lt_of_isPrefix isPrefix (by rw [List.length_cons]; omega)
        rw [byteLength_cons] at fewer
        omega
      next => exact ih (Nat.zero_le _) single

end Search

end Typescribe.Text
