import Typescribe.Generation.References
import Typescribe.Proofs.Placeholder.Marks

/-!
# Templates

A template is a generated text with a slot wherever a token may stand. Filling the slots gives the
text; which slots hold tokens is decided by the filling alone. Replacing tokens in a filled
template fills it differently, and searching it for tokens finds the slots that hold them, in
order.
-/

namespace Typescribe

open Text Placeholder

/-- A piece of a template. -/
inductive Piece where
  | text (chars : List Char)
  | slot (type : TypeName)

namespace Piece

/-- A piece with its slot filled. -/
def fill (value : TypeName → List Char) : Piece → List Char
  | text chars => chars
  | slot type => value type

/-- The type whose slot a piece is. -/
def slot? : Piece → Option TypeName
  | text _ => none
  | slot type => some type

/-- A piece that cannot be taken for a token, and a slot whose token can be told from others. -/
def Sound : Piece → Prop
  | text chars => Settled chars
  | slot type => Braceless type.text.toList

/-- A piece in which no opening starts, and a slot whose token can be told from others. -/
def Legible : Piece → Prop
  | text chars => Inert chars
  | slot type => Braceless type.text.toList

theorem Sound.legible {piece : Piece} (sound : piece.Sound) : piece.Legible := by
  cases piece with
  | text chars => exact Settled.inert sound
  | slot type => exact sound

end Piece

/-- The pieces of a text. -/
abbrev Template := List Piece

namespace Template

/-- The text of a template with its slots filled. -/
def fill (value : TypeName → List Char) (template : Template) : List Char :=
  template.flatMap (Piece.fill value)

/-- The types of the slots, from left to right. -/
def slots (template : Template) : List TypeName :=
  template.filterMap Piece.slot?

/-- Every piece is sound. -/
def Sound (template : Template) : Prop :=
  ∀ piece ∈ template, piece.Sound

/-- Every piece is legible. -/
def Legible (template : Template) : Prop :=
  ∀ piece ∈ template, piece.Legible

/-- A filling that puts the type's own token or a settled text into each slot. -/
def Steady (value : TypeName → List Char) : Prop :=
  ∀ type, value type = tokenChars type.text.toList ∨ Settled (value type)

/-- A filling that puts the type's own token or an inert text into each slot. -/
def Clear (value : TypeName → List Char) : Prop :=
  ∀ type, value type = tokenChars type.text.toList ∨ Inert (value type)

/-- The filling that has a text in place of the token of a type. -/
def supply (value : TypeName → List Char) (type : TypeName) (chars : List Char) :
    TypeName → List Char :=
  fun other =>
    if other = type ∧ value other = tokenChars other.text.toList then chars else value other

variable {value : TypeName → List Char} {template first second : Template}

@[simp] theorem fill_nil : fill value [] = [] := rfl

@[simp] theorem fill_cons (piece : Piece) :
    fill value (piece :: template) = piece.fill value ++ fill value template := rfl

@[simp] theorem fill_append :
    fill value (first ++ second) = fill value first ++ fill value second :=
  List.flatMap_append

@[simp] theorem slots_nil : slots [] = [] := rfl

@[simp] theorem slots_text (chars : List Char) :
    slots (.text chars :: template) = slots template := rfl

@[simp] theorem slots_slot (type : TypeName) :
    slots (.slot type :: template) = type :: slots template := rfl

@[simp] theorem slots_append : slots (first ++ second) = slots first ++ slots second :=
  List.filterMap_append

theorem Sound.nil : Sound [] := fun _ member => absurd member List.not_mem_nil

theorem Sound.text {chars : List Char} (settled : Settled chars) (tail : Sound template) :
    Sound (.text chars :: template) :=
  List.forall_mem_cons.mpr ⟨settled, tail⟩

theorem Sound.slot {type : TypeName} (braceless : Braceless type.text.toList)
    (tail : Sound template) : Sound (.slot type :: template) :=
  List.forall_mem_cons.mpr ⟨braceless, tail⟩

theorem Sound.append (left : Sound first) (right : Sound second) : Sound (first ++ second) :=
  List.forall_mem_append.mpr ⟨left, right⟩

theorem Sound.legible (sound : Sound template) : Legible template :=
  fun piece member => (sound piece member).legible

theorem not_settled_tokenChars (type : List Char) : ¬ Settled (tokenChars type) :=
  fun settled => not_inert_tokenChars type settled.inert

theorem Steady.supply (steady : Steady value) (type : TypeName) {chars : List Char}
    (settled : Settled chars) : Steady (supply value type chars) := by
  intro other
  rw [Template.supply]
  split
  · exact .inr settled
  · exact steady other

theorem Steady.clear (steady : Steady value) : Clear value :=
  fun type => (steady type).imp_right Settled.inert

theorem Clear.supply (clear : Clear value) (type : TypeName) {chars : List Char}
    (inert : Inert chars) : Clear (supply value type chars) := by
  intro other
  rw [Template.supply]
  split
  · exact .inr inert
  · exact clear other

/-- Fillings that agree on the slots give the same text. -/
theorem fill_congr {other : TypeName → List Char}
    (agree : ∀ type ∈ slots template, value type = other type) :
    fill value template = fill other template := by
  induction template with
  | nil => rfl
  | cons piece rest ih =>
    cases piece with
    | text chars => rw [fill_cons, fill_cons, ih agree, Piece.fill, Piece.fill]
    | slot type =>
      rw [slots_slot, List.forall_mem_cons] at agree
      rw [fill_cons, fill_cons, ih agree.2, Piece.fill, Piece.fill, agree.1]

section

-- What ends a text may end in a part of an opening, since nothing follows it.
variable {tail : List Char} (ended : Apart opening tail [])
include ended

/-- Replacing the token of a type fills its slots, also in front of a last text. -/
theorem replaceAll_fill_append (legible : Legible template) (clear : Clear value) {type : TypeName}
    (plain : Braceless type.text.toList) (chars : List Char) :
    replaceAll (tokenChars type.text.toList) chars (fill value template ++ tail) =
      fill (supply value type chars) template ++ tail := by
  induction template with
  | nil => exact replaceAll_of_apart ended _ _
  | cons piece rest ih =>
    obtain ⟨legiblePiece, legibleRest⟩ := List.forall_mem_cons.mp legible
    rw [fill_cons, fill_cons, List.append_assoc, List.append_assoc]
    cases piece with
    | text part =>
      rw [Piece.fill, Piece.fill, Inert.replaceAll_append legiblePiece, ih legibleRest]
    | slot other =>
      simp only [Piece.fill, supply]
      rcases clear other with isToken | inert
      · by_cases same : other = type
        · subst same
          rw [if_pos ⟨rfl, isToken⟩, isToken, replaceAll_occurrence (tokenChars_ne_nil _),
            ih legibleRest]
        · have different : type.text.toList ≠ other.text.toList := by
            intro equal
            apply same
            cases other
            cases type
            rw [String.toList_inj] at equal
            exact congrArg TypeName.mk equal.symm
          rw [if_neg (fun both => same both.1), isToken,
            replaceAll_append_of_apart (tokenChars_apart plain legiblePiece different _),
            ih legibleRest]
      · have noToken : ¬ (other = type ∧ value other = tokenChars other.text.toList) := by
          rintro ⟨-, isToken⟩
          exact not_inert_tokenChars _ (isToken ▸ inert)
        rw [if_neg noToken, inert.replaceAll_append, ih legibleRest]

/-- The tokens in a filled template are those that were filled in, in order. -/
theorem residualChars_fill_append (legible : Legible template) (clear : Clear value) :
    residualChars (fill value template ++ tail) =
      ((slots template).filter fun type => value type = tokenChars type.text.toList).map
        fun type => type.text.toList := by
  induction template with
  | nil => exact residualChars_of_apart ended
  | cons piece rest ih =>
    obtain ⟨legiblePiece, legibleRest⟩ := List.forall_mem_cons.mp legible
    rw [fill_cons, List.append_assoc]
    cases piece with
    | text part =>
      rw [Piece.fill, Inert.residualChars_append legiblePiece, ih legibleRest, slots_text]
    | slot type =>
      rw [Piece.fill, slots_slot]
      rcases clear type with isToken | inert
      · rw [isToken, residualChars_tokenChars_append legiblePiece.2, ih legibleRest,
          List.filter_cons_of_pos (by rw [isToken]; exact decide_eq_true rfl), List.map_cons]
      · have noToken : value type ≠ tokenChars type.text.toList := by
          intro isToken
          exact not_inert_tokenChars _ (isToken ▸ inert)
        rw [inert.residualChars_append, ih legibleRest,
          List.filter_cons_of_neg (by simpa using noToken)]

/-- The types whose tokens are in a filled template are those that were filled in, in order. -/
theorem residual_fill_append (legible : Legible template) (clear : Clear value) :
    Placeholder.residual (String.ofList (fill value template ++ tail)) =
      (slots template).filter fun type => value type = tokenChars type.text.toList := by
  rw [Placeholder.residual, String.toList_ofList, residualChars_fill_append ended legible clear,
    List.map_map]
  simp only [Function.comp_def, String.ofList_toList]
  exact List.map_id _

/-- Replacing the tokens of several types fills the slots of all of them. What takes the place of
a token depends on its type alone, so that a second replacement for a type finds nothing. -/
theorem apply_fill_append (legible : Legible template) (clear : Clear value) (patch : Patch)
    {new : TypeName → List Char}
    (entries : ∀ entry ∈ patch.replacements,
      Braceless entry.1.text.toList ∧ entry.2.toList = new entry.1 ∧ Inert (new entry.1)) :
    patch.apply (String.ofList (fill value template ++ tail)) =
      String.ofList (fill (fun type =>
        if value type = tokenChars type.text.toList ∧ type ∈ patch.replacements.map Prod.fst then
          new type
        else value type) template ++ tail) := by
  obtain ⟨path, replacements⟩ := patch
  rw [Patch.apply, String.toList_ofList]
  congr 1
  induction replacements generalizing value with
  | nil => simp
  | cons entry rest ih =>
    obtain ⟨⟨plain, isNew, inert⟩, entriesRest⟩ := List.forall_mem_cons.mp entries
    rw [List.foldl_cons, replaceAll_fill_append ended legible clear plain, isNew,
      ih (clear.supply entry.1 inert) entriesRest]
    congr 1
    apply fill_congr
    intro type _
    by_cases same : type = entry.1
    · subst same
      by_cases isToken : value entry.1 = tokenChars entry.1.text.toList
      · have replaced : new entry.1 ≠ tokenChars entry.1.text.toList := by
          intro equal
          exact not_inert_tokenChars _ (equal ▸ inert)
        simp [supply, isToken, replaced]
      · simp [supply, isToken]
    · have kept : supply value entry.1 (new entry.1) type = value type :=
        if_neg fun both => same both.1
      have member : type ∈ (entry :: rest).map Prod.fst ↔ type ∈ rest.map Prod.fst := by
        rw [List.map_cons, List.mem_cons]
        exact or_iff_right same
      simp only [kept, member]

end

/-- Replacing the token of a type fills its slots. -/
theorem replaceAll_fill (sound : Sound template) (steady : Steady value) {type : TypeName}
    (plain : Braceless type.text.toList) (chars : List Char) :
    replaceAll (tokenChars type.text.toList) chars (fill value template) =
      fill (supply value type chars) template := by
  simpa using replaceAll_fill_append (apart_nil opening []) sound.legible steady.clear plain chars

/-- The types whose tokens are in a filled template are those that were filled in, in order. -/
theorem residual_fill (sound : Sound template) (steady : Steady value) :
    Placeholder.residual (String.ofList (fill value template)) =
      (slots template).filter fun type => value type = tokenChars type.text.toList := by
  simpa using residual_fill_append (apart_nil opening []) sound.legible steady.clear

/-- Replacing the tokens of several types fills the slots of all of them. -/
theorem apply_fill (sound : Sound template) (steady : Steady value) (patch : Patch)
    {new : TypeName → List Char}
    (entries : ∀ entry ∈ patch.replacements,
      Braceless entry.1.text.toList ∧ entry.2.toList = new entry.1 ∧ Settled (new entry.1)) :
    patch.apply (String.ofList (fill value template)) =
      String.ofList (fill (fun type =>
        if value type = tokenChars type.text.toList ∧ type ∈ patch.replacements.map Prod.fst then
          new type
        else value type) template) := by
  simpa using apply_fill_append (apart_nil opening []) sound.legible steady.clear patch
    fun entry listed => ((entries entry listed).imp_right (And.imp_right Settled.inert))

end Template

end Typescribe
