import Mathlib.Data.List.Nodup
import Typescribe.Generation.ServiceModule
import Typescribe.Proofs.Schema.TypeName

/-!
# Well-formed schemas

The conditions under which a list of schema files is generated without surprises, and what they
say about the declarations of one file and about everything nested in them. All conditions are on
the list of top-level declarations, so they survive any regrouping into files.
-/

namespace Typescribe

open Placeholder

namespace Declaration

theorem flattenAll_eq_flatMap (declarations : List Declaration) :
    flattenAll declarations = declarations.flatMap flatten := by
  induction declarations with
  | nil => rw [flattenAll, List.flatMap_nil]
  | cons first rest ih => rw [flattenAll, ih, List.flatMap_cons]

theorem mem_flattenAll {declaration : Declaration} {declarations : List Declaration} :
    declaration ∈ flattenAll declarations ↔ ∃ root ∈ declarations, declaration ∈ root.flatten := by
  rw [flattenAll_eq_flatMap, List.mem_flatMap]

theorem flattenAll_append (first second : List Declaration) :
    flattenAll (first ++ second) = flattenAll first ++ flattenAll second := by
  simp only [flattenAll_eq_flatMap, List.flatMap_append]

theorem isService_iff {declaration : Declaration} :
    declaration.isService = true ↔ ∃ body, declaration = .service body := by
  cases declaration <;> simp [isService]

/-- A declaration comes before everything nested in it. -/
theorem exists_flatten_eq (declaration : Declaration) :
    ∃ inner, declaration.flatten = declaration :: inner := by
  cases declaration <;> simp [flatten]

theorem self_mem_flatten (declaration : Declaration) : declaration ∈ declaration.flatten := by
  obtain ⟨inner, parts⟩ := declaration.exists_flatten_eq
  rw [parts]
  exact List.mem_cons_self

theorem mem_flattenAll_of_mem {root : Declaration} {declarations : List Declaration}
    (member : root ∈ declarations) : root ∈ flattenAll declarations :=
  mem_flattenAll.mpr ⟨root, member, root.self_mem_flatten⟩

mutual

/-- What holds of a declaration and passes on to the types directly inside holds of everything
that is nested in it. -/
theorem flatten_induction (holds : Declaration → Prop) (root : Declaration) (start : holds root)
    (inward : ∀ outer ∈ root.flatten, holds outer → ∀ inner ∈ outer.nestedTypes, holds inner) :
    ∀ declaration ∈ root.flatten, holds declaration := by
  cases root with
  | record head nested =>
    rw [flatten] at inward ⊢
    obtain ⟨first, later⟩ := List.forall_mem_cons.mp inward
    exact List.forall_mem_cons.mpr
      ⟨start, flattenAll_induction holds nested (fun inner => first start inner) later⟩
  | enumeration body =>
    rw [flatten, List.forall_mem_singleton]
    exact start
  | service body =>
    rw [flatten, List.forall_mem_singleton]
    exact start

theorem flattenAll_induction (holds : Declaration → Prop) (roots : List Declaration)
    (start : ∀ root ∈ roots, holds root)
    (inward : ∀ outer ∈ flattenAll roots, holds outer → ∀ inner ∈ outer.nestedTypes, holds inner) :
    ∀ declaration ∈ flattenAll roots, holds declaration := by
  cases roots with
  | nil =>
    rw [flattenAll]
    exact fun _ member => absurd member List.not_mem_nil
  | cons root rest =>
    rw [flattenAll] at inward ⊢
    obtain ⟨startRoot, startRest⟩ := List.forall_mem_cons.mp start
    obtain ⟨inwardRoot, inwardRest⟩ := List.forall_mem_append.mp inward
    exact List.forall_mem_append.mpr
      ⟨flatten_induction holds root startRoot inwardRoot,
        flattenAll_induction holds rest startRest inwardRest⟩

end

/-- The fields that a declaration itself has. -/
def ownFields : Declaration → List Field
  | record head _ => head.allFields
  | enumeration _ => []
  | service _ => []

/-- The types that the fields of a declaration itself refer to, scalars apart. -/
def ownReferences (declaration : Declaration) : List TypeName :=
  (declaration.ownFields.map Field.type).filter fun type => !type.isScalar

theorem isService_eq_false_of_mem_ownFields {declaration : Declaration} {field : Field}
    (listed : field ∈ declaration.ownFields) : declaration.isService = false := by
  cases declaration with
  | record head nested => rfl
  | enumeration body => rfl
  | service body => exact absurd listed List.not_mem_nil

/-- A record or an enumeration lies in the module of a top-level one. -/
theorem exists_home {part : Declaration} {roots : List Declaration}
    (declared : part ∈ flattenAll roots) (data : part.isService = false) :
    ∃ home ∈ roots, home.isService = false ∧ part ∈ home.flatten := by
  obtain ⟨home, member, inside⟩ := mem_flattenAll.mp declared
  refine ⟨home, member, ?_, inside⟩
  cases home with
  | record head nested => rfl
  | enumeration body => rfl
  | service body =>
    rw [flatten, List.mem_singleton] at inside
    rwa [inside] at data

theorem mem_ownReferences {declaration : Declaration} {type : TypeName} :
    type ∈ declaration.ownReferences ↔
      type.isScalar = false ∧ ∃ field ∈ declaration.ownFields, field.type = type := by
  rw [ownReferences, List.mem_filter, List.mem_map, Bool.not_eq_true', and_comm]

mutual

/-- The types that fields refer to are collected type by type. -/
theorem referencedTypes_eq (declaration : Declaration) :
    declaration.referencedTypes = declaration.flatten.flatMap ownReferences := by
  cases declaration with
  | record head nested =>
    rw [referencedTypes, flatten, List.flatMap_cons, referencedTypesAll_eq]
    rfl
  | enumeration body => rfl
  | service body => rfl

theorem referencedTypesAll_eq (declarations : List Declaration) :
    referencedTypesAll declarations = (flattenAll declarations).flatMap ownReferences := by
  cases declarations with
  | nil => rfl
  | cons first rest =>
    rw [referencedTypesAll, flattenAll, List.flatMap_append, referencedTypes_eq,
      referencedTypesAll_eq]

end

/-- Every type that a declaration itself names: its own, those of its fields and those of its
procedures. -/
def mentionedTypes : Declaration → List TypeName
  | record head _ => head.type :: head.allFields.map Field.type
  | enumeration body => [body.type]
  | service body => body.type :: body.rpcTypes

theorem type_mem_mentionedTypes (declaration : Declaration) :
    declaration.type ∈ declaration.mentionedTypes := by
  cases declaration <;> exact List.mem_cons_self

end Declaration

/-- The names, the default and the documentation of a field. -/
def Field.texts (field : Field) : List String :=
  field.name :: field.documentation :: (field.jsonName.toList ++ field.defaultValue.toList)

/-- The name and the documentation of a group, and the texts of its fields. -/
def OneOf.texts (group : OneOf) : List String :=
  group.name :: group.documentation :: group.fields.flatMap Field.texts

/-- Every text that a declaration itself holds beside type names. -/
def Declaration.texts : Declaration → List String
  | .record head _ =>
    head.documentation :: (head.fields.flatMap Field.texts ++ head.oneOfs.flatMap OneOf.texts)
  | .enumeration body =>
    body.documentation ::
      body.constants.flatMap fun constant => [constant.name, constant.documentation]
  | .service body =>
    body.documentation :: body.rpcs.flatMap fun rpc => [rpc.name, rpc.documentation]

/-- The top-level declarations of schema files, in order. -/
def rootsOf (files : List SchemaFile) : List Declaration :=
  files.flatMap SchemaFile.declarations

theorem rootsOf_append (first second : List SchemaFile) :
    rootsOf (first ++ second) = rootsOf first ++ rootsOf second :=
  List.flatMap_append

theorem rootsOf_concat (files : List SchemaFile) (last : SchemaFile) :
    rootsOf (files ++ [last]) = rootsOf files ++ last.declarations := by
  rw [rootsOf_append]
  exact congrArg _ (List.append_nil _)

/-- The names of declarations say how the declarations are nested. A type may be declared more than
once. -/
structure WellSpelled (roots : List Declaration) : Prop where
  /-- Every declared name is package segments, then name segments, with single dots between. -/
  spelled : ∀ declaration ∈ Declaration.flattenAll roots, declaration.type.IsSpelled
  /-- A top-level type has exactly one name segment. -/
  topLevel : ∀ root ∈ roots, root.type.isRoot = true
  /-- A nested type goes on where the type around it ends, and is no service. -/
  nested : ∀ outer ∈ Declaration.flattenAll roots, ∀ inner ∈ outer.nestedTypes,
    outer.type.Encloses inner.type ∧ inner.isService = false

/-- What the top-level declarations of a list of schema files have to fulfil. -/
structure WellFormed (roots : List Declaration) : Prop where
  /-- No type is declared twice. -/
  distinct : ((Declaration.flattenAll roots).map Declaration.type).Nodup
  /-- The timestamp is not declared. -/
  notTimestamp : ∀ declaration ∈ Declaration.flattenAll roots, declaration.type ≠ timestamp
  /-- Every declared name is package segments, then name segments, with single dots between. -/
  spelled : ∀ declaration ∈ Declaration.flattenAll roots, declaration.type.IsSpelled
  /-- A top-level type has exactly one name segment. -/
  topLevel : ∀ root ∈ roots, root.type.isRoot = true
  /-- A nested type goes on where the type around it ends, and is no service. -/
  nested : ∀ outer ∈ Declaration.flattenAll roots, ∀ inner ∈ outer.nestedTypes,
    outer.type.Encloses inner.type ∧ inner.isService = false
  /-- No type name holds a slash or a brace. -/
  plain : ∀ declaration ∈ Declaration.flattenAll roots, ∀ type ∈ declaration.mentionedTypes,
    type.IsPlain

/-- No top-level type is called like the network client. -/
def ClientNameFree (roots : List Declaration) : Prop :=
  ∀ root ∈ roots, root.type.names ≠ [Service.clientType]

/-- Every field is of a scalar, of the timestamp or of a declared type. -/
def Closed (roots : List Declaration) : Prop :=
  ∀ part ∈ Declaration.flattenAll roots, ∀ field ∈ part.ownFields, field.type.isScalar = false →
    field.type = timestamp ∨
      ∃ declaration ∈ Declaration.flattenAll roots, declaration.type = field.type

/-- No type name holds a brace. -/
def BracelessTypes (roots : List Declaration) : Prop :=
  ∀ declaration ∈ Declaration.flattenAll roots, ∀ type ∈ declaration.mentionedTypes,
    Braceless type.text.toList

/-- No name, default or documentation holds the mark of a placeholder. -/
def UnmarkedTexts (roots : List Declaration) : Prop :=
  ∀ declaration ∈ Declaration.flattenAll roots, ∀ text ∈ declaration.texts, Unmarked text.toList

instance (roots : List Declaration) : Decidable (WellSpelled roots) :=
  decidable_of_iff
    ((∀ declaration ∈ Declaration.flattenAll roots, declaration.type.IsSpelled) ∧
      (∀ root ∈ roots, root.type.isRoot = true) ∧
      ∀ outer ∈ Declaration.flattenAll roots, ∀ inner ∈ outer.nestedTypes,
        outer.type.Encloses inner.type ∧ inner.isService = false)
    ⟨fun ⟨spelled, topLevel, nested⟩ => ⟨spelled, topLevel, nested⟩,
      fun ⟨spelled, topLevel, nested⟩ => ⟨spelled, topLevel, nested⟩⟩

instance (roots : List Declaration) : Decidable (WellFormed roots) :=
  decidable_of_iff
    (((Declaration.flattenAll roots).map Declaration.type).Nodup ∧
      (∀ declaration ∈ Declaration.flattenAll roots, declaration.type ≠ timestamp) ∧
      (∀ declaration ∈ Declaration.flattenAll roots, declaration.type.IsSpelled) ∧
      (∀ root ∈ roots, root.type.isRoot = true) ∧
      (∀ outer ∈ Declaration.flattenAll roots, ∀ inner ∈ outer.nestedTypes,
        outer.type.Encloses inner.type ∧ inner.isService = false) ∧
      ∀ declaration ∈ Declaration.flattenAll roots, ∀ type ∈ declaration.mentionedTypes,
        type.IsPlain)
    ⟨fun ⟨distinct, notTimestamp, spelled, topLevel, nested, plain⟩ =>
        ⟨distinct, notTimestamp, spelled, topLevel, nested, plain⟩,
      fun ⟨distinct, notTimestamp, spelled, topLevel, nested, plain⟩ =>
        ⟨distinct, notTimestamp, spelled, topLevel, nested, plain⟩⟩

instance (roots : List Declaration) : Decidable (ClientNameFree roots) :=
  inferInstanceAs (Decidable (∀ _ ∈ _, _))

instance (roots : List Declaration) : Decidable (Closed roots) :=
  inferInstanceAs (Decidable (∀ _ ∈ _, ∀ _ ∈ _, _))

instance (roots : List Declaration) : Decidable (BracelessTypes roots) :=
  inferInstanceAs (Decidable (∀ _ ∈ _, ∀ _ ∈ _, _))

instance (roots : List Declaration) : Decidable (UnmarkedTexts roots) :=
  inferInstanceAs (Decidable (∀ _ ∈ _, ∀ _ ∈ _, _))

/-- Two schema files that refer to each other's types, to a nested one among them. -/
def surveyTypes : List SchemaFile :=
  [{ name := "era"
     declarations := [.record
      { type := ⟨"geo.Era"⟩
        documentation := "A span of time."
        fields := [{ name := "name", type := ⟨"string"⟩, defaultValue := some "first" },
          { name := "start", type := ⟨"google.protobuf.Timestamp"⟩ },
          { name := "period", type := ⟨"geo.time.Period"⟩, cardinality := .optional },
          { name := "kind", type := ⟨"geo.Kind"⟩ }]
        oneOfs := [{ name := "mark", fields := [{ name := "note", type := ⟨"string"⟩ },
          { name := "spot", type := ⟨"geo.Era.Spot"⟩ }] }] }
      [.record
        { type := ⟨"geo.Era.Spot"⟩
          fields := [{ name := "depth", type := ⟨"double"⟩ },
            { name := "period", type := ⟨"geo.time.Period"⟩ }] } []]] },
   { name := "period"
     declarations := [.record
        { type := ⟨"geo.time.Period"⟩
          fields := [{ name := "eras", type := ⟨"geo.Era"⟩, cardinality := .repeated }] } [],
      .enumeration { type := ⟨"geo.Kind"⟩, constants := [{ name := "EON" }] }] }]

/-- The two files and a third one with a service that uses their types. -/
def surveyFiles : List SchemaFile :=
  surveyTypes ++ [{
    name := "service"
    declarations := [.service
      { type := ⟨"geo.EraService"⟩
        rpcs := [{ name := "FindPeriod"
                   requestType := ⟨"geo.Era.Spot"⟩
                   responseType := ⟨"geo.time.Period"⟩ }] }] }]

theorem survey_wellFormed : WellFormed (rootsOf surveyFiles) := by decide

theorem survey_clientNameFree : ClientNameFree (rootsOf surveyFiles) := by decide

theorem survey_unmarkedTexts : UnmarkedTexts (rootsOf surveyFiles) := by decide +kernel

theorem survey_closed : Closed (rootsOf surveyFiles) := by decide

namespace WellSpelled

variable {roots : List Declaration}

theorem single_name (wellSpelled : WellSpelled roots) {root : Declaration} (member : root ∈ roots) :
    ∃ name, root.type.names = [name] := by
  have isRoot := wellSpelled.topLevel root member
  rw [TypeName.isRoot, beq_iff_eq] at isRoot
  exact List.length_eq_one_iff.mp isRoot

/-- What is nested in a top-level declaration is the declaration itself, or enclosed by it and no
service. -/
theorem eq_or_encloses (wellSpelled : WellSpelled roots) {root declaration : Declaration}
    (member : root ∈ roots) (inside : declaration ∈ root.flatten) :
    declaration = root ∨ root.type.Encloses declaration.type ∧ declaration.isService = false := by
  refine Declaration.flatten_induction (fun declaration =>
    declaration = root ∨ root.type.Encloses declaration.type ∧ declaration.isService = false)
    root (.inl rfl) ?_ declaration inside
  intro outer outerInside placed inner innerInside
  have outerDeclared := Declaration.mem_flattenAll.mpr ⟨root, member, outerInside⟩
  have step := wellSpelled.nested outer outerDeclared inner innerInside
  rcases placed with rfl | ⟨encloses, -⟩
  · exact .inr step
  · exact .inr ⟨encloses.trans step.1, step.2⟩

/-- The root of a nested type is the top-level type around it. -/
theorem root_eq (wellSpelled : WellSpelled roots) {root declaration : Declaration}
    (member : root ∈ roots) (inside : declaration ∈ root.flatten) :
    declaration.type.root = root.type := by
  obtain ⟨name, single⟩ := wellSpelled.single_name member
  rcases wellSpelled.eq_or_encloses member inside with rfl | ⟨encloses, -⟩
  · exact TypeName.root_eq_self single
  · have spelled := wellSpelled.spelled root (Declaration.mem_flattenAll_of_mem member)
    exact TypeName.root_eq_of_encloses single spelled encloses

/-- Of what a top-level declaration holds, only the declaration itself is a root. -/
theorem isRoot_iff (wellSpelled : WellSpelled roots) {root declaration : Declaration}
    (member : root ∈ roots) (inside : declaration ∈ root.flatten) :
    declaration.type.isRoot = true ↔ declaration = root := by
  constructor
  · intro isRoot
    rcases wellSpelled.eq_or_encloses member inside with same | ⟨encloses, -⟩
    · exact same
    · obtain ⟨name, single⟩ := wellSpelled.single_name member
      rw [TypeName.isRoot, beq_iff_eq] at isRoot
      have sameLength : root.type.names.length = declaration.type.names.length := by
        rw [single, isRoot, List.length_singleton]
      exact absurd (encloses.2.1.eq_of_length sameLength) encloses.2.2
  · rintro rfl
    exact wellSpelled.topLevel declaration member

end WellSpelled

namespace WellFormed

variable {roots first second : List Declaration}

/-- The order of the top-level declarations plays no part. -/
theorem perm (wellFormed : WellFormed first) (perm : first.Perm second) : WellFormed second := by
  have flatPerm : (Declaration.flattenAll first).Perm (Declaration.flattenAll second) := by
    simp only [Declaration.flattenAll_eq_flatMap]
    exact perm.flatMap_right Declaration.flatten
  exact {
    distinct := (flatPerm.map Declaration.type).nodup wellFormed.distinct
    notTimestamp := fun declaration member =>
      wellFormed.notTimestamp declaration (flatPerm.mem_iff.mpr member)
    spelled := fun declaration member =>
      wellFormed.spelled declaration (flatPerm.mem_iff.mpr member)
    topLevel := fun root member => wellFormed.topLevel root (perm.mem_iff.mpr member)
    nested := fun outer member => wellFormed.nested outer (flatPerm.mem_iff.mpr member)
    plain := fun declaration member => wellFormed.plain declaration (flatPerm.mem_iff.mpr member) }

/-- Part of a well-formed list is well-formed. -/
theorem of_append_left (wellFormed : WellFormed (first ++ second)) : WellFormed first := by
  have inside : ∀ declaration ∈ Declaration.flattenAll first,
      declaration ∈ Declaration.flattenAll (first ++ second) := by
    intro declaration member
    rw [Declaration.flattenAll_append]
    exact List.mem_append_left _ member
  have distinct := wellFormed.distinct
  rw [Declaration.flattenAll_append, List.map_append] at distinct
  exact {
    distinct := (List.nodup_append.mp distinct).1
    notTimestamp := fun declaration member =>
      wellFormed.notTimestamp declaration (inside declaration member)
    spelled := fun declaration member => wellFormed.spelled declaration (inside declaration member)
    topLevel := fun root member => wellFormed.topLevel root (List.mem_append_left _ member)
    nested := fun outer member => wellFormed.nested outer (inside outer member)
    plain := fun declaration member => wellFormed.plain declaration (inside declaration member) }

theorem wellSpelled (wellFormed : WellFormed roots) : WellSpelled roots :=
  ⟨wellFormed.spelled, wellFormed.topLevel, wellFormed.nested⟩

theorem single_name (wellFormed : WellFormed roots) {root : Declaration} (member : root ∈ roots) :
    ∃ name, root.type.names = [name] :=
  wellFormed.wellSpelled.single_name member

theorem eq_or_encloses (wellFormed : WellFormed roots) {root declaration : Declaration}
    (member : root ∈ roots) (inside : declaration ∈ root.flatten) :
    declaration = root ∨ root.type.Encloses declaration.type ∧ declaration.isService = false :=
  wellFormed.wellSpelled.eq_or_encloses member inside

/-- A service stands at the top level. -/
theorem eq_of_service_mem (wellFormed : WellFormed roots) {root : Declaration} {service : Service}
    (member : root ∈ roots) (inside : .service service ∈ root.flatten) :
    root = .service service := by
  rcases wellFormed.eq_or_encloses member inside with same | ⟨-, impossible⟩
  · exact same.symm
  · exact absurd impossible (by simp [Declaration.isService])

theorem root_eq (wellFormed : WellFormed roots) {root declaration : Declaration}
    (member : root ∈ roots) (inside : declaration ∈ root.flatten) :
    declaration.type.root = root.type :=
  wellFormed.wellSpelled.root_eq member inside

theorem isRoot_iff (wellFormed : WellFormed roots) {root declaration : Declaration}
    (member : root ∈ roots) (inside : declaration ∈ root.flatten) :
    declaration.type.isRoot = true ↔ declaration = root :=
  wellFormed.wellSpelled.isRoot_iff member inside

/-- Every declared type names something. -/
theorem names_ne_nil (wellFormed : WellFormed roots) {declaration : Declaration}
    (declared : declaration ∈ Declaration.flattenAll roots) : declaration.type.names ≠ [] := by
  obtain ⟨root, member, inside⟩ := Declaration.mem_flattenAll.mp declared
  obtain ⟨name, single⟩ := wellFormed.single_name member
  rcases wellFormed.eq_or_encloses member inside with rfl | ⟨encloses, -⟩
  · rw [single]
    exact List.cons_ne_nil _ _
  · intro empty
    have isPrefix := encloses.2.1
    rw [single, empty, List.prefix_nil] at isPrefix
    exact absurd isPrefix (List.cons_ne_nil _ _)

/-- Every declared type is called by its names. -/
theorem className_eq (wellFormed : WellFormed roots) {declaration : Declaration}
    (declared : declaration ∈ Declaration.flattenAll roots) :
    declaration.type.className = .ok (String.intercalate "_" declaration.type.names) :=
  TypeName.className_eq (wellFormed.names_ne_nil declared)
    (wellFormed.notTimestamp declaration declared)

theorem type_isPlain (wellFormed : WellFormed roots) {declaration : Declaration}
    (declared : declaration ∈ Declaration.flattenAll roots) : declaration.type.IsPlain :=
  wellFormed.plain declaration declared _ declaration.type_mem_mentionedTypes

/-- A type is declared once. -/
theorem eq_of_type_eq (wellFormed : WellFormed roots) {left right : Declaration}
    (leftDeclared : left ∈ Declaration.flattenAll roots)
    (rightDeclared : right ∈ Declaration.flattenAll roots) (same : left.type = right.type) :
    left = right :=
  List.inj_on_of_nodup_map wellFormed.distinct leftDeclared rightDeclared same

end WellFormed

end Typescribe
