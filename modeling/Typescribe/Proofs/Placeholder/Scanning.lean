import Typescribe.Proofs.Placeholder.TokenText

/-!
# Searching for tokens and writing them

The search cuts every text at tokens, and a text that is cut so is searched by taking the types of
its tokens. Nothing is asked of what stands between tokens but that it holds no opening: it may
end in the beginning of one, or start with braces. A type must not hold the closing of its token
before it ends.
-/

namespace Typescribe

open Text Placeholder

/-- The search for tokens ends in the text: there is no opening, or nothing closes the first
one. -/
def Placeholder.Exhausted (text : List Char) : Prop :=
  ¬ opening <:+: text ∨
    ∃ before after, text = before ++ (opening ++ after) ∧
      ¬ opening <:+: before ∧ ¬ closing <:+: after

theorem Placeholder.Exhausted.residualChars_eq_nil {text : List Char}
    (exhausted : Exhausted text) : residualChars text = [] := by
  rw [residualChars_eq]
  rcases exhausted with free | ⟨before, after, split, free, unclosed⟩
  · rw [(cutFirst?_eq_none_iff (by decide)).mpr free]
  · rw [cutFirst?_opening_iff.mpr ⟨split, free⟩]
    dsimp only
    rw [(cutFirst?_eq_none_iff (by decide)).mpr unclosed]

namespace TokenText

/-- The text is cut where the search for tokens cuts it: at the first opening, at the first
closing behind it, and so on until the search ends. -/
structure Scanned (text : TokenText) : Prop where
  parts : ∀ part ∈ text.parts,
    ¬ opening <:+: part.1 ∧ ¬ closing <:+: part.2.text.toList ++ ['}']
  last : Exhausted text.last

theorem fill_cons (value : TypeName → List Char) (part : List Char × TypeName)
    (rest : List (List Char × TypeName)) (last : List Char) :
    fill value ⟨part :: rest, last⟩ = part.1 ++ (value part.2 ++ fill value ⟨rest, last⟩) := by
  simp only [fill, List.flatMap_cons, List.append_assoc]

theorem ofList_fill_token (text : TokenText) :
    String.ofList (text.fill fun type => (token type).toList) = text.written := by
  simp only [written, token, String.toList_ofList]

/-- The search takes the tokens of a text one after the other. -/
theorem Scanned.residualChars_fill {text : TokenText} (scanned : text.Scanned) :
    residualChars (text.fill fun type => tokenChars type.text.toList) =
      text.parts.map fun part => part.2.text.toList := by
  obtain ⟨parts, last⟩ := text
  induction parts with
  | nil => exact scanned.last.residualChars_eq_nil
  | cons part rest ih =>
    obtain ⟨⟨free, closes⟩, later⟩ := List.forall_mem_cons.mp scanned.parts
    rw [fill_cons, residualChars_token free closes, ih ⟨later, scanned.last⟩, List.map_cons]

theorem Scanned.residual_written {text : TokenText} (scanned : text.Scanned) :
    residual text.written = text.parts.map Prod.snd := by
  rw [Placeholder.residual, written, String.toList_ofList, scanned.residualChars_fill,
    List.map_map]
  simp only [Function.comp_def, String.ofList_toList]

/-- The search cuts every text. -/
theorem exists_scanned_fill (text : List Char) :
    ∃ cut : TokenText,
      cut.Scanned ∧ cut.fill (fun type => tokenChars type.text.toList) = text := by
  -- One case for each way the search can go on from a text.
  induction text using residualChars.induct with
  | case1 text absent =>
    rw [cutFirst?_eq_none_iff (by decide)] at absent
    exact ⟨⟨[], text⟩, ⟨fun _ member => absurd member List.not_mem_nil, .inl absent⟩, rfl⟩
  | case2 text before after opened unclosed =>
    obtain ⟨split, free⟩ := cutFirst?_opening_iff.mp opened
    rw [cutFirst?_eq_none_iff (by decide)] at unclosed
    have exhausted : Exhausted text := .inr ⟨before, after, split, free, unclosed⟩
    exact ⟨⟨[], text⟩, ⟨fun _ member => absurd member List.not_mem_nil, exhausted⟩, rfl⟩
  | case3 text before after opened type rest closed _ _ ih =>
    obtain ⟨rfl, free⟩ := cutFirst?_opening_iff.mp opened
    obtain ⟨rfl, closes⟩ := cutFirst?_closing_iff.mp closed
    obtain ⟨cut, scanned, rfl⟩ := ih
    refine ⟨⟨(before, ⟨String.ofList type⟩) :: cut.parts, cut.last⟩, ⟨?_, scanned.last⟩, ?_⟩
    · refine List.forall_mem_cons.mpr ⟨⟨free, ?_⟩, scanned.parts⟩
      rwa [String.toList_ofList]
    · rw [fill_cons, String.toList_ofList, tokenChars]
      simp only [List.append_assoc]

theorem exists_scanned (text : String) : ∃ cut : TokenText, cut.Scanned ∧ cut.written = text := by
  obtain ⟨cut, scanned, same⟩ := exists_scanned_fill text.toList
  exact ⟨cut, scanned, by rw [written, same, String.ofList_toList]⟩

end TokenText

/-- Searching for tokens undoes writing them. Tokens of types without closing braces are found
again in any texts without openings, and every text is made of such texts, the tokens that are
found in it and a rest without a further token. -/
theorem Placeholder.residual_inverts_tokens :
    (∀ text : TokenText,
      (∀ part ∈ text.parts, ¬ opening <:+: part.1 ∧ '}' ∉ part.2.text.toList) →
      ¬ opening <:+: text.last →
      residual (String.ofList (text.fill fun type => (token type).toList)) =
        text.parts.map Prod.snd) ∧
    ∀ text : String, ∃ cut : TokenText,
      String.ofList (cut.fill fun type => (token type).toList) = text ∧
      cut.parts.map Prod.snd = residual text ∧
      (∀ part ∈ cut.parts, ¬ opening <:+: part.1 ∧ ¬ closing <:+: part.2.text.toList) ∧
      (¬ opening <:+: cut.last ∨
        ∃ before after, cut.last = before ++ (opening ++ after) ∧
          ¬ opening <:+: before ∧ ¬ closing <:+: after) := by
  constructor
  · intro text parts last
    have scanned : text.Scanned := by
      refine ⟨fun part listed => ?_, .inl last⟩
      obtain ⟨free, plain⟩ := parts part listed
      exact ⟨free, not_closing_infix_of_not_mem plain⟩
    rw [TokenText.ofList_fill_token, scanned.residual_written]
  · intro text
    obtain ⟨cut, scanned, rfl⟩ := TokenText.exists_scanned text
    refine ⟨cut, cut.ofList_fill_token, scanned.residual_written.symm, ?_, scanned.last⟩
    intro part listed
    obtain ⟨free, closes⟩ := scanned.parts part listed
    exact ⟨free, fun inside => closes (inside.trans List.infix_append_left)⟩

/-- Two tokens in a thicket of braces: the text in front of each ends in the beginning of an
opening, and the first type holds an opening of its own. -/
def TokenText.thicket : TokenText where
  parts := [("\x7b\x7b".toList, ⟨"a.\x7b\x7bfieldDecorator:B"⟩),
    ("\x7d\x7d\x7b\x7bfieldDecorator".toList, ⟨""⟩)]
  last := "\x7d \x7b".toList

theorem TokenText.thicket_searched :
    (∀ part ∈ thicket.parts, ¬ opening <:+: part.1 ∧ '}' ∉ part.2.text.toList) ∧
      ¬ opening <:+: thicket.last ∧
      residual (String.ofList (thicket.fill fun type => (token type).toList)) =
        [⟨"a.\x7b\x7bfieldDecorator:B"⟩, ⟨""⟩] := by
  have plain : ∀ part ∈ thicket.parts, ':' ∉ part.1 ∧ '}' ∉ part.2.text.toList := by decide
  have parts : ∀ part ∈ thicket.parts, ¬ opening <:+: part.1 ∧ '}' ∉ part.2.text.toList :=
    fun part listed =>
      ⟨not_infix_of_not_mem (by decide) (plain part listed).1, (plain part listed).2⟩
  have last : ¬ opening <:+: thicket.last := by decide
  exact ⟨parts, last, residual_inverts_tokens.1 thicket parts last⟩

end Typescribe
