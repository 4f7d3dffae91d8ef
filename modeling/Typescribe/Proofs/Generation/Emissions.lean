import Typescribe.Proofs.Generation.Run

/-!
# What registering schema files calls for

A module is generated for each top-level declaration whose type is new when its file is registered.
These emissions follow from the declarations alone: they are of pairwise different types, and each
is of the declaration that counts for its type from then on.
-/

namespace Typescribe

open TypeScript (Module)

/-- A top-level declaration whose module is generated, and the types that are known then. -/
structure Emission where
  known : KnownTypes
  root : Declaration

namespace Emission

/-- The module that is generated. -/
def module? (emission : Emission) : Except GenerationError Module :=
  match emission.root with
  | .service service => emission.known.serviceModule service
  | root => emission.known.typeModule root

theorem module?_of_data {emission : Emission} (data : emission.root.isService = false) :
    emission.module? = emission.known.typeModule emission.root := by
  obtain ⟨known, root⟩ := emission
  cases root with
  | record head nested => rfl
  | enumeration body => rfl
  | service body => cases data

end Emission

/-- The types known after schema files were registered in order. -/
def KnownTypes.registerFiles (known : KnownTypes) (files : List SchemaFile) : KnownTypes :=
  files.foldl (fun known file => (known.register file.declarations).known) known

/-- What registering schema files in order calls for: the modules of the new types of each file and
then those of its new services. -/
def emissions (known : KnownTypes) : List SchemaFile → List Emission
  | [] => []
  | file :: rest =>
    let registration := known.register file.declarations
    let roots : SchemaFile := { file with declarations := registration.newRoots }
    (roots.dataTypes ++ roots.services.map Declaration.service).map (.mk registration.known) ++
      emissions registration.known rest

namespace KnownTypes

/-- Registering files only adds declarations. -/
theorem exists_grown_registerFiles (known : KnownTypes) (files : List SchemaFile) :
    ∃ more, (known.registerFiles files).declarations = known.declarations ++ more := by
  induction files generalizing known with
  | nil => exact ⟨[], (List.append_nil _).symm⟩
  | cons file rest ih =>
    obtain ⟨more, grown⟩ := ih (known.register file.declarations).known
    rw [declarations_register, List.append_assoc] at grown
    exact ⟨_, grown⟩

/-- Every declared top-level type is known, whichever declaration of it counts. -/
theorem exists_find?_registerFiles {known : KnownTypes} {files : List SchemaFile}
    {root : Declaration} (declared : root ∈ rootsOf files) :
    ∃ counting, (known.registerFiles files).find? root.type = some counting := by
  induction files generalizing known with
  | nil => exact absurd declared List.not_mem_nil
  | cons file rest ih =>
    rcases List.mem_append.mp declared with here | later
    · obtain ⟨counting, found⟩ :
          ∃ counting, (known.register file.declarations).known.find? root.type = some counting :=
        exists_find?_register here
      obtain ⟨more, grown⟩ :=
        exists_grown_registerFiles (known.register file.declarations).known rest
      exact ⟨counting, find?_of_grown grown found⟩
    · exact ih later

end KnownTypes

section

variable {known : KnownTypes} {files : List SchemaFile} {emission : Emission}
  {declaration : Declaration}

theorem mem_emissions_cons {file : SchemaFile} {rest : List SchemaFile} :
    emission ∈ emissions known (file :: rest) ↔
      (emission.known = (known.register file.declarations).known ∧
        emission.root ∈ (known.register file.declarations).newRoots) ∨
      emission ∈ emissions (known.register file.declarations).known rest := by
  rw [emissions, List.mem_append, List.mem_map]
  refine or_congr_left ?_
  simp only [Session.mem_dataTypes_append_services]
  constructor
  · rintro ⟨root, isNew, rfl⟩
    exact ⟨rfl, isNew⟩
  · rintro ⟨same, isNew⟩
    exact ⟨emission.root, isNew, same ▸ rfl⟩

/-- What is emitted is declared at the top level, and counts for its type from then on. -/
theorem of_mem_emissions (member : emission ∈ emissions known files) :
    emission.root ∈ rootsOf files ∧
      (known.registerFiles files).find? emission.root.type = some emission.root := by
  induction files generalizing known with
  | nil => exact absurd member List.not_mem_nil
  | cons file rest ih =>
    rcases mem_emissions_cons.mp member with ⟨-, isNew⟩ | later
    · obtain ⟨declared, found⟩ := KnownTypes.of_mem_newRoots isNew
      obtain ⟨more, grown⟩ := KnownTypes.exists_grown_registerFiles
        (known.register file.declarations).known rest
      exact ⟨List.mem_append_left _ declared, KnownTypes.find?_of_grown grown found⟩
    · obtain ⟨declared, found⟩ := ih later
      exact ⟨List.mem_append_right _ declared, found⟩

theorem unknown_of_mem_emissions (member : emission ∈ emissions known files) :
    known.contains emission.root.type = false := by
  induction files generalizing known with
  | nil => exact absurd member List.not_mem_nil
  | cons file rest ih =>
    rcases mem_emissions_cons.mp member with ⟨-, isNew⟩ | later
    · exact KnownTypes.unknown_of_mem_newRoots isNew
    · have unknown := ih later
      rw [← Bool.not_eq_true] at unknown ⊢
      exact mt (KnownTypes.contains_of_grown
        (KnownTypes.declarations_register known file.declarations)) unknown

/-- No two emissions are of the same type. -/
theorem pairwise_emissions (known : KnownTypes) (files : List SchemaFile) :
    (emissions known files).Pairwise fun first second => first.root.type ≠ second.root.type := by
  induction files generalizing known with
  | nil => exact List.Pairwise.nil
  | cons file rest ih =>
    have here := (Session.dataTypes_append_services_perm
      { file with declarations := (known.register file.declarations).newRoots }).pairwise_iff
        (fun different => Ne.symm different) |>.mpr (KnownTypes.pairwise_newRoots known _)
    rw [emissions]
    refine List.pairwise_append.mpr ⟨List.pairwise_map.mpr here, ih _, ?_⟩
    intro emission listed other member same
    obtain ⟨root, isRoot, rfl⟩ := List.mem_map.mp listed
    rw [Session.mem_dataTypes_append_services] at isRoot
    have isKnown := KnownTypes.contains_of_find?_eq_some (KnownTypes.of_mem_newRoots isRoot).2
    have unknown := unknown_of_mem_emissions member
    rw [← same, ← Bool.not_eq_true] at unknown
    exact unknown isKnown

/-- What is known after registering files was known before or is declared by them. -/
theorem of_mem_registerFiles (listed : declaration ∈ (known.registerFiles files).declarations) :
    declaration ∈ known.declarations ∨
      ∃ root ∈ rootsOf files, declaration ∈ root.flatten ∧
        (declaration = root → ∃ emission ∈ emissions known files, emission.root = declaration) := by
  induction files generalizing known with
  | nil => exact .inl listed
  | cons file rest ih =>
    rcases ih listed with earlier | ⟨root, declared, inside, emitted⟩
    · rw [KnownTypes.declarations_register, List.mem_append] at earlier
      refine earlier.imp_right fun isNew => ?_
      obtain ⟨root, declared, inside, isRoot⟩ := KnownTypes.of_mem_newTypes isNew
      refine ⟨root, List.mem_append_left _ declared, inside, fun same => ?_⟩
      exact ⟨⟨_, declaration⟩, mem_emissions_cons.mpr (.inl ⟨rfl, isRoot same⟩), rfl⟩
    · refine .inr ⟨root, List.mem_append_right _ declared, inside, fun same => ?_⟩
      obtain ⟨emission, member, isRoot⟩ := emitted same
      exact ⟨emission, mem_emissions_cons.mpr (.inr member), isRoot⟩

end

end Typescribe
