import Typescribe.Proofs.Placeholder.Template

/-!
# Texts with tokens

A text is cut at its tokens. If each token stands directly behind a space, and nothing else in the
text starts like one, then patching fills the places of tokens and keeps what stands between them,
and a patch that was made is not made again. Every text in which all openings start tokens behind
spaces can be cut so.
-/

namespace Typescribe

open Text Placeholder

/-- A text that is cut at its tokens: what stands before each token, with the type of the token,
and what stands behind the last one. -/
structure TokenText where
  parts : List (List Char × TypeName)
  last : List Char

namespace TokenText

/-- The text with something in the place of each token. -/
def fill (value : TypeName → List Char) (text : TokenText) : List Char :=
  text.parts.flatMap (fun part => part.1 ++ value part.2) ++ text.last

/-- The text with its tokens. -/
def written (text : TokenText) : String :=
  String.ofList (text.fill fun type => tokenChars type.text.toList)

/-- Nothing but the tokens holds an opening, each token stands directly behind a space, and the
types of the tokens have no braces. -/
structure Sound (text : TokenText) : Prop where
  parts : ∀ part ∈ text.parts,
    ¬ opening <:+: part.1 ∧ part.1.getLast? = some ' ' ∧ Braceless part.2.text.toList
  last : ¬ opening <:+: text.last

/-- The template of a text with tokens, up to what stands behind the last one. -/
def template (text : TokenText) : Template :=
  text.parts.flatMap fun part => [.text part.1, .slot part.2]

variable {text : TokenText} {value : TypeName → List Char}

theorem fill_eq : text.fill value = Template.fill value text.template ++ text.last := by
  rw [fill, template, Template.fill, List.flatMap_assoc]
  simp [Piece.fill]

theorem slots_template : Template.slots text.template = text.parts.map Prod.snd := by
  rw [template]
  induction text.parts with
  | nil => rfl
  | cons part rest ih =>
    rw [List.flatMap_cons, Template.slots_append, ih]
    rfl

namespace Sound

variable (sound : text.Sound)
include sound

theorem legible : Template.Legible text.template := by
  intro piece member
  obtain ⟨part, listed, inside⟩ := List.mem_flatMap.mp member
  obtain ⟨free, last, braceless⟩ := sound.parts part listed
  rcases List.mem_cons.mp inside with rfl | inside
  · exact Inert.of_not_isInfix free last (by decide)
  · rw [List.mem_singleton.mp inside]
    exact braceless

theorem ended : Apart opening text.last [] := by
  intro before after split _ found
  rw [List.append_nil] at found
  exact sound.last (split ▸ found.isInfix.trans List.infix_append_right)

/-- The tokens of a filled text are those that were filled in, in order. -/
theorem residual_fill (clear : Template.Clear value) :
    residual (String.ofList (text.fill value)) =
      (text.parts.map Prod.snd).filter fun type => value type = tokenChars type.text.toList := by
  rw [fill_eq, Template.residual_fill_append sound.ended sound.legible clear, slots_template]

variable {new : TypeName → List Char} {patch earlier : Patch}
  (entries : ∀ entry ∈ patch.replacements,
    Braceless entry.1.text.toList ∧ entry.2.toList = new entry.1 ∧ Inert (new entry.1))
include entries

/-- A patch fills the places of the tokens that it replaces. -/
theorem apply_written :
    patch.apply text.written = String.ofList (text.fill fun type =>
      if type ∈ patch.replacements.map Prod.fst then new type
      else tokenChars type.text.toList) := by
  rw [written, fill_eq, fill_eq, Template.apply_fill_append sound.ended sound.legible
    (fun _ => .inl rfl) patch entries]
  simp only [true_and]

/-- Replacing tokens first that a patch replaces anyway makes no difference. -/
theorem apply_absorb (subset : earlier.replacements ⊆ patch.replacements) :
    patch.apply (earlier.apply text.written) = patch.apply text.written := by
  have earlierEntries := fun entry listed => entries entry (subset listed)
  have clear : Template.Clear fun type =>
      if type ∈ earlier.replacements.map Prod.fst then new type
      else tokenChars type.text.toList := by
    intro type
    dsimp only
    split
    next replaced =>
      obtain ⟨entry, listed, rfl⟩ := List.mem_map.mp replaced
      exact .inr (earlierEntries entry listed).2.2
    next => exact .inl rfl
  rw [sound.apply_written entries, sound.apply_written earlierEntries, fill_eq, fill_eq,
    Template.apply_fill_append sound.ended sound.legible clear patch entries]
  congr 2
  apply Template.fill_congr
  intro type _
  have replacedTypes : type ∈ earlier.replacements.map Prod.fst →
      type ∈ patch.replacements.map Prod.fst := by
    intro replaced
    obtain ⟨entry, listed, rfl⟩ := List.mem_map.mp replaced
    exact List.mem_map_of_mem (subset listed)
  by_cases replaced : type ∈ earlier.replacements.map Prod.fst
  · simp only [if_pos replaced, if_pos (replacedTypes replaced), ite_self]
  · simp only [if_neg replaced, true_and]

end Sound

end TokenText

/-- A text in which every opening starts the token of a type without braces, directly behind a
space. -/
def Tidy (text : List Char) : Prop :=
  ∀ before after, text = before ++ (opening ++ after) →
    before.getLast? = some ' ' ∧ ∃ type rest, after = type ++ (closing ++ rest) ∧ Braceless type

namespace Tidy

/-- What stands behind a token of a tidy text is tidy. -/
theorem behind {before type rest : List Char}
    (tidy : Tidy (before ++ (opening ++ (type ++ (closing ++ rest))))) : Tidy rest := by
  intro between after split
  have whole : before ++ (opening ++ (type ++ (closing ++ rest))) =
      (before ++ (opening ++ (type ++ (closing ++ between)))) ++ (opening ++ after) := by
    rw [split]
    simp only [List.append_assoc]
  obtain ⟨last, token⟩ := tidy _ _ whole
  refine ⟨?_, token⟩
  rcases List.eq_nil_or_concat between with rfl | ⟨init, c, rfl⟩
  · -- A token ends in a brace and not in a space.
    simp [closing] at last
  · simpa using last

/-- A tidy text can be cut at its tokens. -/
theorem exists_fill {text : List Char} (tidy : Tidy text) :
    ∃ cut : TokenText, cut.Sound ∧ cut.fill (fun type => tokenChars type.text.toList) = text := by
  induction size : text.length using Nat.strongRecOn generalizing text with
  | ind bound ih =>
    by_cases found : opening <:+: text
    · obtain ⟨before, after, rfl, free⟩ := exists_first_occurrence (by decide) found
      obtain ⟨last, type, rest, rfl, braceless⟩ := tidy before after rfl
      have shorter : rest.length < bound := by
        have someOpening : 0 < opening.length := by decide
        simp only [List.length_append] at size
        omega
      obtain ⟨cut, sound, same⟩ := ih rest.length shorter tidy.behind rfl
      refine ⟨⟨(before, ⟨String.ofList type⟩) :: cut.parts, cut.last⟩, ⟨?_, sound.last⟩, ?_⟩
      · refine List.forall_mem_cons.mpr ⟨⟨free, last, ?_⟩, sound.parts⟩
        rwa [String.toList_ofList]
      · rw [TokenText.fill] at same ⊢
        rw [List.flatMap_cons, List.append_assoc, same, String.toList_ofList, tokenChars]
        simp only [List.append_assoc]
    · exact ⟨⟨[], text⟩, ⟨fun _ member => absurd member List.not_mem_nil, found⟩, rfl⟩

theorem exists_tokenText {text : String} (tidy : Tidy text.toList) :
    ∃ cut : TokenText, cut.Sound ∧ cut.written = text := by
  obtain ⟨cut, sound, same⟩ := tidy.exists_fill
  exact ⟨cut, sound, by rw [TokenText.written, same, String.ofList_toList]⟩

theorem of_not_isInfix {text : List Char} (free : ¬ opening <:+: text) : Tidy text := by
  rintro before after rfl
  exact absurd ⟨before, after, List.append_assoc _ _ _⟩ free

/-- A token behind a space may stand before a tidy text. -/
theorem token_append {part type rest : List Char} (inert : Inert part)
    (last : part.getLast? = some ' ') (braceless : Braceless type) (tidy : Tidy rest) :
    Tidy (part ++ (tokenChars type ++ rest)) := by
  intro before after split
  obtain ⟨more, rfl, behind⟩ := (inert _).exists_eq_append split
  cases more with
  | nil =>
    rw [List.nil_append, tokenChars, List.append_assoc, List.append_assoc] at behind
    rw [List.append_nil]
    exact ⟨last, type, rest, (List.append_cancel_left behind).symm, braceless⟩
  | cons c more =>
    rw [tokenChars_eq] at behind
    obtain ⟨between, rfl, later⟩ :=
      (apart_token_tail braceless.1 rest).exists_eq_append (List.cons.inj behind).2
    obtain ⟨lastBetween, token⟩ := tidy between after later
    refine ⟨?_, token⟩
    rw [List.getLast?_append, ← List.cons_append, List.getLast?_append, lastBetween]
    rfl

end Tidy

/-- A text that is cut at its tokens is tidy. -/
theorem TokenText.Sound.tidy {text : TokenText} (sound : text.Sound) :
    Tidy text.written.toList := by
  obtain ⟨parts, last⟩ := text
  rw [written, String.toList_ofList, fill]
  have free := sound.last
  have each := sound.parts
  dsimp only at free each ⊢
  induction parts with
  | nil => exact .of_not_isInfix free
  | cons part rest ih =>
    obtain ⟨⟨noOpening, space, braceless⟩, later⟩ := List.forall_mem_cons.mp each
    rw [List.flatMap_cons, List.append_assoc, List.append_assoc]
    exact .token_append (.of_not_isInfix noOpening space (by decide)) space braceless
      (ih ⟨later, free⟩ later)

end Typescribe
