import Typescribe.Text.Search

/-!
# Searching and replacing in composed texts

A text is usually known as a concatenation. `Apart` says that no occurrence of a pattern starts in
the first of two parts, whatever it does in the second; searching and replacing then pass over the
first part. The lemmas on breaks say which texts contain no occurrence at all.
-/

namespace Typescribe.Text

variable {pattern replacement before after text : List Char}

/-- No occurrence of the pattern in the composed text starts in its first part. -/
def Apart (pattern before after : List Char) : Prop :=
  ∀ left right, before = left ++ right → right ≠ [] → ¬ pattern <+: right ++ after

theorem apart_nil (pattern after : List Char) : Apart pattern [] after := by
  intro left right split nonempty
  rw [List.nil_eq_append_iff] at split
  exact absurd split.2 nonempty

/-- A first part is passed over character by character. -/
theorem apart_cons_iff {c : Char} :
    Apart pattern (c :: before) after ↔
      ¬ pattern <+: c :: (before ++ after) ∧ Apart pattern before after := by
  constructor
  · intro apart
    refine ⟨apart [] (c :: before) rfl (List.cons_ne_nil _ _), ?_⟩
    intro left right split nonempty
    exact apart (c :: left) right (by rw [split, List.cons_append]) nonempty
  · rintro ⟨head, tail⟩ left right split nonempty
    cases left with
    | nil =>
      rw [List.nil_append] at split
      rw [← split]
      exact head
    | cons first left =>
      rw [List.cons_append, List.cons.injEq] at split
      exact tail left right split.2 nonempty

/-- A longer pattern starts nowhere that its beginning does not start. -/
theorem Apart.of_isPrefix {start : List Char} (apart : Apart start before after)
    (isPrefix : start <+: pattern) : Apart pattern before after := by
  intro left right split nonempty found
  exact apart left right split nonempty (isPrefix.trans found)

/-- Two first parts can be passed over one after the other. -/
theorem Apart.append {middle : List Char} (first : Apart pattern before (middle ++ after))
    (second : Apart pattern middle after) : Apart pattern (before ++ middle) after := by
  induction before with
  | nil => exact second
  | cons c before ih =>
    rw [apart_cons_iff] at first
    rw [List.cons_append, apart_cons_iff, List.append_assoc]
    exact ⟨first.1, ih first.2⟩

/-- An occurrence that does not start in the first part lies in the second. -/
theorem Apart.exists_eq_append {left right : List Char} (apart : Apart pattern before after)
    (split : before ++ after = left ++ (pattern ++ right)) :
    ∃ more, left = before ++ more ∧ after = more ++ (pattern ++ right) := by
  rcases List.append_eq_append_iff.mp split with found | ⟨more, rfl, inside⟩
  · exact found
  · cases more with
    | nil => exact ⟨[], by simp, inside.symm⟩
    | cons c more =>
      have starts : pattern <+: c :: more ++ after := ⟨right, inside⟩
      exact absurd starts (apart left (c :: more) rfl (List.cons_ne_nil c more))

/-- No occurrence starts where the first character of the pattern is missing. -/
theorem apart_of_head_not_mem {c : Char} {tail : List Char} (absent : c ∉ before) :
    Apart (c :: tail) before after := by
  induction before with
  | nil => exact apart_nil _ _
  | cons d before ih =>
    rw [List.mem_cons, not_or] at absent
    rw [apart_cons_iff]
    refine ⟨fun found => absent.1 ?_, ih absent.2⟩
    exact (List.cons_prefix_cons.mp found).1

/-- A character that is missing from the parts and from what stands between them is missing from
the whole. -/
theorem not_mem_intercalate {c : Char} {separator : List Char} {parts : List (List Char)}
    (between : c ∉ separator) (inside : ∀ part ∈ parts, c ∉ part) :
    c ∉ separator.intercalate parts := by
  induction parts with
  | nil => exact List.not_mem_nil
  | cons first rest ih =>
    obtain ⟨head, tail⟩ := List.forall_mem_cons.mp inside
    cases rest with
    | nil => rwa [List.intercalate_singleton]
    | cons second later =>
      rw [List.intercalate_cons_cons, List.mem_append, List.mem_append, not_or, not_or]
      exact ⟨⟨head, between⟩, ih tail⟩

/-- A text in which a character of the pattern is missing has no occurrence of it. -/
theorem not_infix_of_not_mem {c : Char} (inPattern : c ∈ pattern) (missing : c ∉ text) :
    ¬ pattern <:+: text := by
  intro found
  exact missing (found.subset inPattern)

/-- A pattern that occurs has a first occurrence. -/
theorem exists_first_occurrence (nonempty : pattern ≠ [])
    (found : pattern <:+: text) :
    ∃ before after, text = before ++ (pattern ++ after) ∧ ¬ pattern <:+: before := by
  induction text with
  | nil => exact absurd (List.infix_nil.mp found) nonempty
  | cons c rest ih =>
    by_cases here : pattern <+: c :: rest
    · obtain ⟨after, split⟩ := here
      exact ⟨[], after, split.symm, fun inside => nonempty (List.infix_nil.mp inside)⟩
    · have later := (List.infix_cons_iff.mp found).resolve_left here
      obtain ⟨before, after, rfl, free⟩ := ih later
      refine ⟨c :: before, after, rfl, fun inside => ?_⟩
      rcases List.infix_cons_iff.mp inside with starts | inside
      · exact here (starts.trans (List.prefix_append (c :: before) _))
      · exact free inside

/-- No occurrence reaches over a character that the pattern does not hold. -/
theorem not_infix_append_cons {c : Char} (first : ¬ pattern <:+: before)
    (second : ¬ pattern <:+: after) (foreign : c ∉ pattern) :
    ¬ pattern <:+: before ++ c :: after := by
  rw [List.infix_append_iff, List.infix_cons_iff]
  rintro (found | (found | found) | ⟨left, right, rfl, isSuffix, isPrefix⟩)
  · exact first found
  · cases pattern with
    | nil => exact first (List.nil_infix)
    | cons head tail =>
      rw [List.cons_prefix_cons] at found
      exact foreign (found.1 ▸ List.mem_cons_self)
  · exact second found
  · cases right with
    | nil => exact first (by simpa using isSuffix.isInfix)
    | cons head tail =>
      rw [List.cons_prefix_cons] at isPrefix
      exact foreign (by simp [isPrefix.1])

/-- A pattern does not occur in joined texts if it does not occur in the first one and its last
character is missing from the second. -/
theorem not_infix_append_of_last_not_mem {c : Char} (free : ¬ pattern <:+: before)
    (last : pattern.getLast? = some c) (absent : c ∉ after) : ¬ pattern <:+: before ++ after := by
  rw [List.infix_append_iff]
  rintro (found | found | ⟨left, right, rfl, isSuffix, isPrefix⟩)
  · exact free found
  · exact absent (found.subset (List.mem_of_getLast? last))
  · rw [List.getLast?_append, Option.or_eq_some_iff] at last
    rcases last with inside | ⟨empty, -⟩
    · exact absent (isPrefix.subset (List.mem_of_getLast? inside))
    · rw [List.getLast?_eq_none_iff.mp empty, List.append_nil] at free
      exact free isSuffix.isInfix

/-- A text without occurrences that ends in a character foreign to the pattern is apart from
whatever follows. -/
theorem apart_of_not_infix {c : Char} (free : ¬ pattern <:+: before ++ [c])
    (foreign : c ∉ pattern) (after : List Char) : Apart pattern (before ++ [c]) after := by
  intro left right split nonempty found
  rcases List.prefix_or_prefix_of_prefix found (List.prefix_append right after) with inside | beyond
  · exact free (split ▸ inside.isInfix.trans List.infix_append_right)
  · have last : c ∈ right := by
      have ends := congrArg List.getLast? split
      rw [List.getLast?_concat, List.getLast?_append, List.getLast?_eq_some_getLast nonempty,
        Option.some_or, Option.some.injEq] at ends
      exact ends ▸ List.getLast_mem nonempty
    exact foreign (beyond.subset last)

theorem replaceFrom_eq_drop (pattern replacement : List Char) (skipped : Nat) (text : List Char) :
    replaceFrom pattern replacement skipped text =
      replaceAll pattern replacement (text.drop skipped) := by
  induction skipped generalizing text with
  | zero => rfl
  | succ skipped ih =>
    cases text with
    | nil => rfl
    | cons c rest =>
      rw [replaceFrom, ih, List.drop_succ_cons]

@[simp] theorem replaceAll_nil : replaceAll pattern replacement [] = [] := by
  rw [replaceAll, replaceFrom]

/-- Replacing keeps a character at which no occurrence starts. -/
theorem replaceAll_cons {c : Char} {rest : List Char} (absent : ¬ pattern <+: c :: rest) :
    replaceAll pattern replacement (c :: rest) = c :: replaceAll pattern replacement rest := by
  rw [← List.isPrefixOf_iff_prefix] at absent
  rw [replaceAll, replaceFrom, if_neg absent, replaceAll]

/-- Replacing keeps a part in which no occurrence starts. -/
theorem replaceAll_append_of_apart (apart : Apart pattern before after) :
    replaceAll pattern replacement (before ++ after) =
      before ++ replaceAll pattern replacement after := by
  induction before with
  | nil => rfl
  | cons c before ih =>
    rw [apart_cons_iff] at apart
    rw [List.cons_append, replaceAll_cons apart.1, ih apart.2, List.cons_append]

/-- Replacing takes a leading occurrence away and goes on behind it. -/
theorem replaceAll_occurrence (nonempty : pattern ≠ []) (rest : List Char) :
    replaceAll pattern replacement (pattern ++ rest) =
      replacement ++ replaceAll pattern replacement rest := by
  cases pattern with
  | nil => exact absurd rfl nonempty
  | cons c tail =>
    have found : (c :: tail).isPrefixOf (c :: (tail ++ rest)) = true := by
      rw [List.isPrefixOf_iff_prefix]
      exact List.prefix_append (c :: tail) rest
    rw [List.cons_append, replaceAll, replaceFrom, if_pos found, replaceFrom_eq_drop]
    simp

/-- Replacing keeps a part in which no occurrence starts and into which none reaches. -/
theorem infix_replaceAll {part : List Char} (nonempty : pattern ≠ [])
    (clear : ∀ after, Apart pattern part after)
    (unreached : ∀ left right, pattern = left ++ right → left ≠ [] → right ≠ [] →
      ∀ after, ¬ right <+: part ++ after)
    (found : part <:+: text) : part <:+: replaceAll pattern replacement text := by
  obtain ⟨before, after, rfl⟩ := found
  rw [List.append_assoc]
  induction size : before.length using Nat.strongRecOn generalizing before with
  | ind bound ih =>
    cases before with
    | nil =>
      rw [List.nil_append, replaceAll_append_of_apart (clear after)]
      exact List.infix_append_left
    | cons c before =>
      rw [List.length_cons] at size
      by_cases here : pattern <+: c :: (before ++ (part ++ after))
      · obtain ⟨tail, split⟩ := here
        rw [← List.cons_append] at split
        rcases List.append_eq_append_iff.mp split with ⟨more, inside, -⟩ | ⟨more, reaching, rest⟩
        · have patternLength := List.length_pos_iff.mpr nonempty
          have sameLength := congrArg List.length inside
          rw [List.length_cons, List.length_append] at sameLength
          rw [inside, List.append_assoc, replaceAll_occurrence nonempty]
          exact (ih more.length (by omega) more rfl).trans List.infix_append_right
        · -- The occurrence starts before the part, so it may not go on in it.
          cases more with
          | nil =>
            rw [List.append_nil] at reaching
            rw [← reaching, replaceAll_occurrence nonempty, ← List.nil_append (part ++ after)]
            exact (ih 0 (by omega) [] rfl).trans List.infix_append_right
          | cons d more =>
            exact absurd (rest ▸ List.prefix_append (d :: more) tail)
              (unreached _ _ reaching (List.cons_ne_nil _ _) (List.cons_ne_nil _ _) after)
      · rw [List.cons_append, replaceAll_cons here]
        exact (ih before.length (by omega) before rfl).trans (List.suffix_cons _ _).isInfix

/-- The first occurrence lies behind a part in which none starts. -/
theorem cutFirst?_append_of_apart (apart : Apart pattern before after) :
    cutFirst? pattern (before ++ after) =
      (cutFirst? pattern after).map fun cut => (before ++ cut.1, cut.2) := by
  induction before with
  | nil => simp
  | cons c before ih =>
    rw [apart_cons_iff, ← List.isPrefixOf_iff_prefix] at apart
    rw [List.cons_append, cutFirst?, if_neg apart.1, ih apart.2, Option.map_map]
    rfl

/-- An occurrence at the start of a text is its first. -/
theorem cutFirst?_occurrence (nonempty : pattern ≠ []) (rest : List Char) :
    cutFirst? pattern (pattern ++ rest) = some ([], rest) := by
  cases pattern with
  | nil => exact absurd rfl nonempty
  | cons c tail =>
    have found : (c :: tail).isPrefixOf (c :: (tail ++ rest)) = true := by
      rw [List.isPrefixOf_iff_prefix]
      exact List.prefix_append (c :: tail) rest
    rw [List.cons_append, cutFirst?, if_pos found]
    simp

theorem append_dropLast_isPrefix (before pattern after : List Char) :
    before ++ pattern.dropLast <+: before ++ (pattern ++ after) := by
  rw [List.prefix_append_right_inj]
  exact (List.dropLast_prefix pattern).trans (List.prefix_append pattern after)

/-- No occurrence starts in front of another if none ends in front of its last character. -/
theorem apart_of_not_infix_dropLast (free : ¬ pattern <:+: before ++ pattern.dropLast)
    (after : List Char) : Apart pattern before (pattern ++ after) := by
  intro left right split nonempty found
  have short : pattern.length ≤ (right ++ pattern.dropLast).length := by
    have positive := List.length_pos_iff.mpr nonempty
    rw [List.length_append, List.length_dropLast]
    omega
  have inside := List.prefix_of_prefix_length_le found
    (append_dropLast_isPrefix right pattern after) short
  rw [split, List.append_assoc] at free
  exact free (inside.isInfix.trans List.infix_append_right)

/-- A text is cut at an occurrence in front of whose last character none ends. -/
theorem eq_of_cutFirst? (nonempty : pattern ≠ [])
    (cut : cutFirst? pattern text = some (before, after)) :
    text = before ++ (pattern ++ after) ∧ ¬ pattern <:+: before ++ pattern.dropLast := by
  induction text generalizing before with
  | nil => simp [cutFirst?] at cut
  | cons c rest ih =>
    rw [cutFirst?] at cut
    split at cut
    next here =>
      obtain ⟨behind, split⟩ := List.isPrefixOf_iff_prefix.mp here
      rw [← split, List.drop_left, Option.some.injEq, Prod.mk.injEq] at cut
      obtain ⟨rfl, rfl⟩ := cut
      refine ⟨split.symm, fun inside => ?_⟩
      have shorter := inside.length_le
      have positive := List.length_pos_iff.mpr nonempty
      rw [List.nil_append, List.length_dropLast] at shorter
      omega
    next absent =>
      rw [List.isPrefixOf_iff_prefix] at absent
      simp only [Option.map_eq_some_iff, Prod.exists, Prod.mk.injEq] at cut
      obtain ⟨inner, tail, found, rfl, rfl⟩ := cut
      obtain ⟨rfl, free⟩ := ih found
      refine ⟨rfl, fun inside => ?_⟩
      rw [List.cons_append, List.infix_cons_iff] at inside
      rcases inside with starts | inside
      · exact absent (starts.trans (append_dropLast_isPrefix (c :: inner) pattern tail))
      · exact free inside

/-- A text is cut at the occurrence that ends first. -/
theorem cutFirst?_eq_some_iff (nonempty : pattern ≠ []) :
    cutFirst? pattern text = some (before, after) ↔
      text = before ++ (pattern ++ after) ∧ ¬ pattern <:+: before ++ pattern.dropLast := by
  refine ⟨eq_of_cutFirst? nonempty, ?_⟩
  rintro ⟨rfl, free⟩
  rw [cutFirst?_append_of_apart (apart_of_not_infix_dropLast free after),
    cutFirst?_occurrence nonempty, Option.map_some, List.append_nil]

/-- A text is not cut exactly if the pattern does not occur. -/
theorem cutFirst?_eq_none_iff (nonempty : pattern ≠ []) :
    cutFirst? pattern text = none ↔ ¬ pattern <:+: text := by
  induction text with
  | nil => simp [cutFirst?, nonempty]
  | cons c rest ih =>
    rw [cutFirst?, List.infix_cons_iff, not_or, ← List.isPrefixOf_iff_prefix, ← ih]
    split
    next here => simp [here]
    next absent => simp [absent]

end Typescribe.Text
