import Typescribe.Proofs.Generation.Location

/-!
# Roots

The root of a type keeps the package and the outermost name, so it is its own root and has the
module of the type. A type that is spelled as its package followed by its names has, with every
type nested in it, the root that its package and its outermost name spell.
-/

namespace Typescribe.TypeName

variable {type : TypeName} {outermost child : String} {later : List String} {first : Char}

/-- A type with at most one name is its own root. -/
theorem root_eq_self_of_length (few : type.names.length ≤ 1) : type.root = type := by
  rw [root]
  split
  next outermost second later names =>
    rw [names, List.length_cons, List.length_cons] at few
    omega
  next => rfl

theorem root_root (type : TypeName) : type.root.root = type.root := by
  apply root_eq_self_of_length
  rw [type.parts_root.2]
  exact List.length_take_le 1 type.names

/-- The segments of a package are found between and behind names, too. -/
example : (⟨".Era.geology..Period.dates."⟩ : TypeName).root = ⟨"geology.dates.Era"⟩ := by
  decide

/-- The root of a spelled type is spelled by its package and its outermost name. -/
theorem root_eq_of_spelled (spelled : type.IsSpelled) (names : type.names = outermost :: later) :
    type.root = ⟨String.intercalate "." (type.package ++ [outermost])⟩ := by
  cases later with
  | nil =>
    rw [root_eq_self names]
    rw [IsSpelled, names] at spelled
    exact congrArg TypeName.mk spelled
  | cons second later => rw [root, names]

section Nested

variable (spelled : type.IsSpelled) (named : type.names ≠ [])
include spelled named

theorem nested_eq (child : String) :
    type.nested child =
      ⟨String.intercalate "." (type.package ++ (type.names ++ [child]))⟩ := by
  have nonempty : type.package ++ type.names ≠ [] :=
    List.append_ne_nil_of_right_ne_nil type.package named
  rw [nested, ← List.append_assoc,
    String.intercalate_append_of_ne_nil nonempty (List.cons_ne_nil _ _),
    String.intercalate_singleton, ← spelled]

variable (starts : child.toList.head? = some first) (notLower : Text.isLowercase first = false)
  (dotless : '.' ∉ child.toList)
include starts notLower dotless

/-- A nested type is in the same package and has one name more. -/
theorem parts_nested :
    (type.nested child).package = type.package ∧
      (type.nested child).names = type.names ++ [child] := by
  obtain ⟨rest, chars⟩ := List.head?_eq_some_iff.mp starts
  have isSegment : child ≠ "" := by
    rintro rfl
    exact absurd chars (by simp)
  have isName : startsLowercase child = false := by
    rw [startsLowercase, chars]
    exact notLower
  rw [nested_eq spelled named]
  apply parts_intercalate (by simp)
  · intro part member
    rw [← List.append_assoc, List.mem_append, List.mem_singleton] at member
    rcases member with member | rfl
    · exact isSegment_of_mem member
    · exact ⟨isSegment, dotless⟩
  · exact fun part => startsLowercase_of_mem_package
  · exact List.forall_mem_append.mpr
      ⟨fun part => startsLowercase_of_mem_names, List.forall_mem_singleton.mpr isName⟩

theorem nested_isSpelled : (type.nested child).IsSpelled := by
  obtain ⟨package, names⟩ := parts_nested spelled named starts notLower dotless
  rw [IsSpelled, package, names, nested_eq spelled named]

theorem root_nested : (type.nested child).root = type.root := by
  obtain ⟨package, names⟩ := parts_nested spelled named starts notLower dotless
  obtain ⟨outermost, later, single⟩ := List.exists_cons_of_ne_nil named
  have nestedSpelled := nested_isSpelled spelled named starts notLower dotless
  rw [single, List.cons_append] at names
  rw [root_eq_of_spelled nestedSpelled names, root_eq_of_spelled spelled single, package]

theorem isRoot_nested : (type.nested child).isRoot = false := by
  have positive := List.length_pos_iff.mpr named
  rw [isRoot, (parts_nested spelled named starts notLower dotless).2, List.length_append,
    List.length_singleton, beq_eq_false_iff_ne]
  omega

end Nested

/-- Taking the root keeps the package and the outermost name, is done once and for all and does
not change the module. In a spelled type that names something, each further name leads one level
inwards and keeps the root. -/
theorem root_decomposes (type : TypeName) :
    type.root.root = type.root ∧
    type.root.package = type.package ∧
    type.root.names = type.names.take 1 ∧
    type.moduleFile = type.root.moduleFile ∧
    (type.IsSpelled → type.names ≠ [] →
      ∀ (child : String) (first : Char), child.toList.head? = some first →
        Text.isLowercase first = false → '.' ∉ child.toList →
        (type.nested child).root = type.root ∧
        (type.nested child).isRoot = false ∧
        (type.nested child).names = type.names ++ [child]) := by
  refine ⟨root_root type, type.parts_root.1, type.parts_root.2, ?_, ?_⟩
  · rw [moduleFile, moduleFile, root_root]
  · intro spelled named child first starts notLower dotless
    exact ⟨root_nested spelled named starts notLower dotless,
      isRoot_nested spelled named starts notLower dotless,
      (parts_nested spelled named starts notLower dotless).2⟩

/-- An age inside a period inside an era. -/
theorem nested_age_decomposes :
    (⟨"geology.Era.Period"⟩ : TypeName).IsSpelled ∧
      ((⟨"geology.Era.Period"⟩ : TypeName).nested "Age").root = ⟨"geology.Era"⟩ ∧
      ((⟨"geology.Era.Period"⟩ : TypeName).nested "Age").isRoot = false ∧
      ((⟨"geology.Era.Period"⟩ : TypeName).nested "Age").names = ["Era", "Period", "Age"] := by
  have spelled : (⟨"geology.Era.Period"⟩ : TypeName).IsSpelled := by decide
  have root : (⟨"geology.Era.Period"⟩ : TypeName).root = ⟨"geology.Era"⟩ := by decide
  obtain ⟨-, -, -, -, nested⟩ := root_decomposes ⟨"geology.Era.Period"⟩
  obtain ⟨sameRoot, inner, names⟩ :=
    nested spelled (by decide) "Age" 'A' (by decide) (by decide) (by decide)
  exact ⟨spelled, sameRoot.trans root, inner, names⟩

end Typescribe.TypeName
