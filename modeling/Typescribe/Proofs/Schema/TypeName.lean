import Typescribe.Generation.Naming
import Typescribe.Proofs.Placeholder.Marks

/-!
# Qualified type names and their parts

A spelled name is its package followed by its names, with single dots in between. A name encloses
another that goes on where it ends. The class name of a type exists exactly for known scalars and
for names that name something.
-/

namespace Typescribe

open Placeholder

theorem mem_splitOn {separator : Char} {text part : List Char}
    (member : part ∈ text.splitOn separator) : separator ∉ part ∧ part ⊆ text := by
  induction text generalizing part with
  | nil =>
    rw [List.splitOn_nil, List.mem_singleton] at member
    subst member
    exact ⟨List.not_mem_nil, List.nil_subset _⟩
  | cons c rest ih =>
    rw [List.splitOn_cons_eq_if_modifyHead] at member
    split at member
    · rcases List.mem_cons.mp member with rfl | member
      · exact ⟨List.not_mem_nil, List.nil_subset _⟩
      · exact ⟨(ih member).1, List.subset_cons_of_subset c (ih member).2⟩
    next different =>
      rw [beq_iff_eq] at different
      cases parts : rest.splitOn separator with
      | nil => exact absurd parts (List.splitOn_ne_nil separator rest)
      | cons first later =>
        rw [parts, List.modifyHead_cons, List.mem_cons] at member
        rcases member with rfl | member
        · obtain ⟨absent, subset⟩ := ih (parts ▸ List.mem_cons_self)
          refine ⟨?_, List.cons_subset_cons c subset⟩
          rw [List.mem_cons, not_or]
          exact ⟨fun same => different same.symm, absent⟩
        · obtain ⟨absent, subset⟩ := ih (parts ▸ List.mem_cons_of_mem first member)
          exact ⟨absent, List.subset_cons_of_subset c subset⟩

/-- A text denotes a scalar exactly if it is the name of one. -/
theorem Scalar.isSome_ofName?_iff {text : String} :
    (Scalar.ofName? text).isSome = true ↔ ∃ scalar : Scalar, scalar.name = text := by
  rw [Scalar.ofName?, List.find?_isSome]
  constructor
  · rintro ⟨scalar, -, same⟩
    exact ⟨scalar, beq_iff_eq.mp same⟩
  · rintro ⟨scalar, same⟩
    have listed : scalar ∈ Scalar.all := by cases scalar <;> decide
    exact ⟨scalar, listed, beq_iff_eq.mpr same⟩

instance (text : String) : Decidable (∃ scalar : Scalar, scalar.name = text) :=
  decidable_of_iff _ Scalar.isSome_ofName?_iff

namespace TypeName

/-- The package followed by the names, with single dots between all segments, is the text. -/
def IsSpelled (type : TypeName) : Prop :=
  type.text = String.intercalate "." (type.package ++ type.names)

/-- The second type goes on with further names where the first one ends. -/
def Encloses (outer inner : TypeName) : Prop :=
  inner.package = outer.package ∧ outer.names <+: inner.names ∧ outer.names ≠ inner.names

/-- The name holds no slash and no brace. -/
def IsPlain (type : TypeName) : Prop :=
  ∀ c ∈ type.text.toList, c ≠ '/' ∧ c ≠ '{' ∧ c ≠ '}'

/-- The name holds no slash. -/
def Slashless (type : TypeName) : Prop :=
  '/' ∉ type.text.toList

instance (type : TypeName) : Decidable type.IsSpelled :=
  inferInstanceAs (Decidable (_ = _))

instance (outer inner : TypeName) : Decidable (outer.Encloses inner) :=
  inferInstanceAs (Decidable (_ ∧ _))

instance (type : TypeName) : Decidable type.IsPlain :=
  List.decidableBAll (fun c => c ≠ '/' ∧ c ≠ '{' ∧ c ≠ '}') type.text.toList

instance (type : TypeName) : Decidable type.Slashless :=
  inferInstanceAs (Decidable (¬ _))

theorem Encloses.trans {outer middle inner : TypeName} (first : outer.Encloses middle)
    (second : middle.Encloses inner) : outer.Encloses inner := by
  refine ⟨second.1.trans first.1, first.2.1.trans second.2.1, ?_⟩
  intro same
  have longer := second.2.1.length_le
  rw [← same] at longer
  exact first.2.2 (first.2.1.eq_of_length_le longer)

/-- Segments are not empty and hold no dot and nothing foreign. -/
theorem mem_segments {type : TypeName} {segment : String} (member : segment ∈ type.segments) :
    segment ≠ "" ∧ '.' ∉ segment.toList ∧ segment.toList ⊆ type.text.toList := by
  rw [segments, List.mem_map] at member
  obtain ⟨chars, member, rfl⟩ := member
  rw [List.mem_filter] at member
  obtain ⟨absent, subset⟩ := mem_splitOn member.1
  rw [String.toList_ofList]
  refine ⟨?_, absent, subset⟩
  intro empty
  have empty := congrArg String.toList empty
  rw [String.toList_ofList] at empty
  rw [empty] at member
  exact absurd member.2 (by decide)

theorem mem_segments_of_mem_package {type : TypeName} {segment : String}
    (member : segment ∈ type.package) : segment ∈ type.segments :=
  (List.mem_filter.mp member).1

theorem mem_segments_of_mem_names {type : TypeName} {segment : String}
    (member : segment ∈ type.names) : segment ∈ type.segments :=
  (List.mem_filter.mp member).1

theorem isSegment_of_mem {type : TypeName} {part : String}
    (member : part ∈ type.package ++ type.names) : part ≠ "" ∧ '.' ∉ part.toList := by
  have isSegment : part ∈ type.segments :=
    (List.mem_append.mp member).elim mem_segments_of_mem_package mem_segments_of_mem_names
  exact ⟨(mem_segments isSegment).1, (mem_segments isSegment).2.1⟩

theorem startsLowercase_of_mem_package {type : TypeName} {segment : String}
    (member : segment ∈ type.package) : startsLowercase segment = true :=
  (List.mem_filter.mp member).2

theorem startsLowercase_of_mem_names {type : TypeName} {segment : String}
    (member : segment ∈ type.names) : startsLowercase segment = false := by
  simpa using (List.mem_filter.mp member).2

/-- A scalar names nothing. -/
theorem names_eq_nil_of_isScalar {type : TypeName} (scalar : type.isScalar = true) :
    type.names = [] := by
  rw [isScalar, Bool.and_eq_true, Bool.not_eq_true', List.contains_eq_mem,
    decide_eq_false_iff_not] at scalar
  rw [names, segments, List.splitOn_eq_singleton scalar.1, List.filter_eq_nil_iff]
  intro segment member
  rw [List.mem_map] at member
  obtain ⟨chars, member, rfl⟩ := member
  rw [List.mem_filter, List.mem_singleton] at member
  rw [member.1, String.ofList_toList, scalar.2]
  decide

theorem isScalar_eq_false {type : TypeName} (named : type.names ≠ []) : type.isScalar = false := by
  rw [← Bool.not_eq_true]
  intro scalar
  exact named (names_eq_nil_of_isScalar scalar)

theorem timestamp_names : timestamp.names = ["Timestamp"] := by decide

theorem timestamp_braceless : Placeholder.Braceless timestamp.text.toList := by decide

/-- A type has a class name exactly if it is a scalar or names something. -/
theorem className_isOk_iff (type : TypeName) :
    (∃ name, type.className = .ok name) ↔
      (type.isScalar = true → ∃ scalar : Scalar, scalar.name = type.text) ∧
        (type.isScalar = false → type.names ≠ []) := by
  rw [className]
  split
  next scalar =>
    rw [Scalar.ofTypeName?, if_pos scalar, ← Scalar.isSome_ofName?_iff]
    cases Scalar.ofName? type.text <;> simp [scalar]
  next noScalar =>
    rw [Bool.not_eq_true] at noScalar
    rw [wellKnownType?]
    split
    next native found =>
      split at found
      next isTimestamp =>
        rw [noScalar, isTimestamp, timestamp_names]
        simp
      next => exact absurd found (by simp)
    next =>
      rw [noScalar]
      cases type.names <;> simp

/-- A type that is no native one is called by its names. -/
theorem className_eq {type : TypeName} (named : type.names ≠ []) (other : type ≠ timestamp) :
    type.className = .ok (String.intercalate "_" type.names) := by
  rw [className, isScalar_eq_false named, wellKnownType?, if_neg other]
  simp [named]

/-- A spelled name is determined by its package and its names. -/
theorem eq_of_spelled {left right : TypeName} (spelled : left.IsSpelled)
    (otherSpelled : right.IsSpelled) (package : left.package = right.package)
    (names : left.names = right.names) : left = right := by
  rw [IsSpelled, package, names] at spelled
  exact TypeName.mk.injEq .. ▸ spelled.trans otherSpelled.symm

theorem simpleName_eq {type : TypeName} {name : String} (single : type.names = [name]) :
    type.simpleName = name := by
  rw [simpleName, single]
  rfl

/-- A top-level type is its own root. -/
theorem root_eq_self {type : TypeName} {name : String} (single : type.names = [name]) :
    type.root = type := by
  rw [root, single]

/-- The root of an enclosed type is the top-level type around it. -/
theorem root_eq_of_encloses {outer inner : TypeName} {name : String}
    (single : outer.names = [name]) (spelled : outer.IsSpelled)
    (encloses : outer.Encloses inner) : inner.root = outer := by
  obtain ⟨samePackage, ⟨more, names⟩, different⟩ := encloses
  rw [single] at names different
  cases more with
  | nil => exact absurd (by rw [← names, List.append_nil]) different
  | cons next later =>
    rw [root, ← names, List.singleton_append, samePackage]
    rw [IsSpelled, single] at spelled
    exact congrArg TypeName.mk spelled.symm

theorem IsPlain.slashless {type : TypeName} (plain : type.IsPlain) : type.Slashless :=
  fun slash => (plain _ slash).1 rfl

theorem IsPlain.braceless {type : TypeName} (plain : type.IsPlain) :
    Braceless type.text.toList :=
  ⟨fun member => (plain _ member).2.1 rfl, fun member => (plain _ member).2.2 rfl⟩

/-- A class name is made of the characters of the schema name, of letters, digits and
underscores. -/
theorem mem_className {type : TypeName} {name : String} (named : type.className = .ok name)
    {c : Char} (member : c ∈ name.toList) :
    c ∈ type.text.toList ∨ c.isAlphanum = true ∨ c = '_' := by
  rw [className] at named
  split at named
  · split at named
    next scalar found =>
      rw [Except.ok.injEq] at named
      subst named
      have native : scalar.nativeType.toList.all Char.isAlphanum = true := by
        cases scalar <;> decide
      exact .inr (.inl (List.all_eq_true.mp native c member))
    next => exact absurd named (by simp)
  · rw [wellKnownType?] at named
    split at named
    next native found =>
      split at found
      · rw [Option.some.injEq] at found
        rw [Except.ok.injEq] at named
        subst found named
        have date : "Date".toList.all Char.isAlphanum = true := by decide
        exact .inr (.inl (List.all_eq_true.mp date c member))
      · exact absurd found (by simp)
    next =>
      split at named
      · exact absurd named (by simp)
      · rw [Except.ok.injEq] at named
        subst named
        refine Classical.byContradiction fun foreign => ?_
        rw [not_or, not_or] at foreign
        rw [String.toList_intercalate] at member
        refine Text.not_mem_intercalate ?_ (fun part listed inside => ?_) member
        · simpa using foreign.2.2
        · obtain ⟨segment, isName, rfl⟩ := List.mem_map.mp listed
          exact foreign.1 ((mem_segments (mem_segments_of_mem_names isName)).2.2 inside)

/-- A class name has no braces unless the schema name has. -/
theorem className_braceless {type : TypeName} (braceless : Braceless type.text.toList)
    {name : String} (named : type.className = .ok name) : Braceless name.toList :=
  ⟨fun member => (mem_className named member).elim braceless.1 (by decide),
    fun member => (mem_className named member).elim braceless.2 (by decide)⟩

end TypeName

end Typescribe
