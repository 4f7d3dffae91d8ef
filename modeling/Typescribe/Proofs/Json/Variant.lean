import Mathlib.Data.List.Nodup
import Typescribe.Json.Tree

/-!
# Other ways to write a value

A value is written in another way by leaving out members of its objects whose values are the
defaults and by changing the order of the members that are left, in any of its objects. The way in
which an object is written is told by the members themselves: no key is repeated, each is a member
of the object in some way, and only defaults are missing.
-/

namespace Typescribe

namespace Json

/-- The members that may be left out of an object. -/
def defaults : List (String × Json) :=
  [("documentation", .string ""), ("json_name", .null), ("default", .null),
    ("cardinality", .string "required"), ("declarations", .array []), ("fields", .array []),
    ("one_ofs", .array []), ("nested", .array []), ("constants", .array []), ("rpcs", .array [])]

mutual

/-- The second value is the first one, written in the same or in another way. -/
inductive Variant : Json → Json → Prop
  | null : Variant .null .null
  | bool (value : Bool) : Variant (.bool value) (.bool value)
  | number (value : JsonNumber) : Variant (.number value) (.number value)
  | string (value : String) : Variant (.string value) (.string value)
  | array {items others : List Json} (each : VariantItems items others) :
    Variant (.array items) (.array others)
  /-- The members of an object are kept, in any order, or left out. -/
  | object {members kept omitted others : List (String × Json)}
    (parts : members.Perm (kept ++ omitted)) (default : ∀ member ∈ omitted, member ∈ defaults)
    (each : VariantMembers kept others) : Variant (.object members) (.object others)

/-- The items of two arrays are the same, each written in some way. -/
inductive VariantItems : List Json → List Json → Prop
  | nil : VariantItems [] []
  | cons {item other : Json} {items others : List Json} (first : Variant item other)
    (rest : VariantItems items others) : VariantItems (item :: items) (other :: others)

/-- The members of two objects are the same in the same order, their values each written in some
way. -/
inductive VariantMembers : List (String × Json) → List (String × Json) → Prop
  | nil : VariantMembers [] []
  | cons {key : String} {value other : Json} {members others : List (String × Json)}
    (first : Variant value other) (rest : VariantMembers members others) :
    VariantMembers ((key, value) :: members) ((key, other) :: others)

end

mutual

/-- A value is one way to write it. -/
theorem Variant.refl (value : Json) : Variant value value := by
  cases value with
  | null => exact .null
  | bool value => exact .bool value
  | number value => exact .number value
  | string value => exact .string value
  | array items => exact .array (VariantItems.refl items)
  | object members =>
    have whole : members.Perm (members ++ []) := by rw [List.append_nil]
    exact .object whole (fun _ member => absurd member List.not_mem_nil)
      (VariantMembers.refl members)

theorem VariantItems.refl (items : List Json) : VariantItems items items := by
  cases items with
  | nil => exact .nil
  | cons item rest => exact .cons (Variant.refl item) (VariantItems.refl rest)

theorem VariantMembers.refl (members : List (String × Json)) : VariantMembers members members := by
  cases members with
  | nil => exact .nil
  | cons member rest =>
    obtain ⟨key, value⟩ := member
    exact .cons (Variant.refl value) (VariantMembers.refl rest)

end

/-- The members of an object, written in some way: no key is repeated, each member is one of the
object, and what is missing is a default. -/
structure Spells (members others : List (String × Json)) : Prop where
  distinct : (others.map Prod.fst).Nodup
  each : ∀ other ∈ others, ∃ value, (other.1, value) ∈ members ∧ Variant value other.2
  complete : ∀ member ∈ members, member.1 ∈ others.map Prod.fst ∨ member ∈ defaults

namespace VariantMembers

variable {members others : List (String × Json)}

theorem keys_eq (variant : VariantMembers members others) :
    others.map Prod.fst = members.map Prod.fst := by
  induction others generalizing members with
  | nil => cases variant with | nil => rfl
  | cons other rest ih =>
    cases variant with
    | cons first later => rw [List.map_cons, List.map_cons, ih later]

theorem exists_of_mem (variant : VariantMembers members others) {other : String × Json}
    (member : other ∈ others) : ∃ value, (other.1, value) ∈ members ∧ Variant value other.2 := by
  induction others generalizing members with
  | nil => exact absurd member List.not_mem_nil
  | cons head rest ih =>
    cases variant with
    | cons first later =>
      rcases List.mem_cons.mp member with rfl | member
      · exact ⟨_, List.mem_cons_self, first⟩
      · obtain ⟨value, listed, variant⟩ := ih later member
        exact ⟨value, List.mem_cons_of_mem _ listed, variant⟩

end VariantMembers

/-- Objects without repeated keys are written as objects. -/
theorem Variant.spells {members : List (String × Json)} {value : Json}
    (variant : Variant (.object members) value) (distinct : (members.map Prod.fst).Nodup) :
    ∃ others, value = .object others ∧ Spells members others := by
  cases variant with
  | @object _ kept omitted others parts default each =>
    have keptIn : ∀ member ∈ kept, member ∈ members := fun member listed =>
      parts.mem_iff.mpr (List.mem_append_left omitted listed)
    have keys := (parts.map Prod.fst).nodup_iff.mp distinct
    rw [List.map_append] at keys
    refine ⟨others, rfl, ?_, fun other listed => ?_, fun member listed => ?_⟩
    · rw [each.keys_eq]
      exact (List.nodup_append.mp keys).1
    · obtain ⟨value, member, variant⟩ := each.exists_of_mem listed
      exact ⟨value, keptIn _ member, variant⟩
    · rcases List.mem_append.mp (parts.mem_iff.mp listed) with isKept | isOmitted
      · rw [each.keys_eq]
        exact .inl (List.mem_map_of_mem isKept)
      · exact .inr (default member isOmitted)

/-! ## Depth -/

theorem depth_le_membersDepth {entry : String × Json} {members : List (String × Json)}
    (member : entry ∈ members) : entry.2.depth ≤ membersDepth members := by
  induction members with
  | nil => exact absurd member List.not_mem_nil
  | cons first rest ih =>
    rw [membersDepth]
    rcases List.mem_cons.mp member with rfl | member
    · exact Nat.le_max_left _ _
    · exact Nat.le_trans (ih member) (Nat.le_max_right _ _)

end Json

namespace JsonTree

theorem ofItems_eq_map (items : List Json) : ofItems items = items.map ofJson := by
  induction items with
  | nil => rfl
  | cons item rest ih => rw [ofItems, ih, List.map_cons]

theorem ofMembers_eq_map (members : List (String × Json)) :
    ofMembers members = members.map fun member => (member.1, ofJson member.2) := by
  induction members with
  | nil => rfl
  | cons member rest ih => rw [ofMembers, ih, List.map_cons]

mutual

/-- The tree of a value has it back. -/
theorem value_ofJson (value : Json) : (ofJson value).value = .ok value := by
  cases value with
  | null => rfl
  | bool value => rfl
  | number value => rfl
  | string value => rfl
  | array items =>
    rw [ofJson, JsonTree.value, itemValues_ofItems]
    rfl
  | object members =>
    rw [ofJson, JsonTree.value, memberValues_ofMembers]
    rfl

theorem itemValues_ofItems (items : List Json) : itemValues (ofItems items) = .ok items := by
  cases items with
  | nil => rfl
  | cons item rest =>
    rw [ofItems, itemValues, value_ofJson, itemValues_ofItems]
    rfl

theorem memberValues_ofMembers (members : List (String × Json)) :
    memberValues (ofMembers members) = .ok members := by
  cases members with
  | nil => rfl
  | cons member rest =>
    obtain ⟨key, value⟩ := member
    rw [ofMembers, memberValues, value_ofJson, memberValues_ofMembers]
    rfl

end

end JsonTree

end Typescribe
