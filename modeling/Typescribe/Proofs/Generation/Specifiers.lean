import Typescribe.Proofs.Generation.Location

/-!
# Specifiers lead to modules

The specifier by which one module imports another leaves the directory of the importing module as
far as needed and then enters others, so that walking it ends at the imported module without its
extension. Two types are imported by the same specifier exactly if they are in the same module.
-/

namespace Typescribe.TypeName

variable {type source destination other : TypeName} {outermost : String} {inner : List String}

theorem moduleStem_eq (names : type.names = outermost :: inner) : type.moduleStem = outermost := by
  rw [moduleStem, names, List.head?_cons, Option.getD_some]

theorem Slashless.moduleStem_noSlash (slashless : type.Slashless) :
    '/' ∉ type.moduleStem.toList := by
  rw [← type.package_root.2]
  exact slashless.root.simpleName_noSlash

/-- The module of a type lies in the directory of its package, also if the type is nested. -/
theorem moduleFile_eq_stem (slashless : type.Slashless) :
    type.moduleFile = Path.through (type.moduleSteps type.moduleStem) := by
  rw [moduleFile_eq_root slashless, moduleSteps, moduleSteps, type.package_root.1,
    type.package_root.2]

/-- Directories are left before any is entered. -/
theorem exists_ups_relativeSteps (source : List String) {destination : List String}
    (areSteps : ∀ name ∈ destination, IsStep name) :
    ∃ count inward,
      relativeSteps source destination = List.replicate count ".." ++ inward ∧ ".." ∉ inward := by
  have notUp : ".." ∉ destination.drop (commonLength source destination) := fun member =>
    (areSteps ".." (List.mem_of_mem_drop member)).notUp rfl
  rw [relativeSteps]
  split
  · exact ⟨0, "." :: destination.drop (commonLength source destination), rfl, by simp [notUp]⟩
  · exact ⟨_, _, rfl, notUp⟩

/-- A relative path starts with its first step and a slash if there is another step. -/
theorem isPrefix_intercalate {first : String} {steps : List String}
    (starts : steps.head? = some first) (last : String) :
    (first ++ "/").toList <+: (String.intercalate "/" (steps ++ [last])).toList := by
  obtain ⟨rest, rfl⟩ := List.head?_eq_some_iff.mp starts
  have nonempty : rest ++ [last] ≠ [] := by simp
  obtain ⟨second, later, parts⟩ := List.exists_cons_of_ne_nil nonempty
  rw [List.cons_append, parts, String.intercalate_cons_cons]
  exact ⟨_, String.toList_append.symm⟩

/-- The directory of a type's module is its package. -/
theorem directory_moduleFile (slashless : type.Slashless) :
    type.moduleFile.directory = type.package := by
  rw [moduleFile_eq_stem slashless, moduleSteps]
  exact Path.directory_through (moduleSteps_isStep slashless slashless.moduleStem_noSlash)

/-- Two types are in one module exactly if their packages and their outermost names agree. -/
theorem same_moduleFile_iff_stem (slashless : type.Slashless) (otherSlashless : other.Slashless) :
    type.moduleFile.same other.moduleFile = true ↔
      type.package = other.package ∧ type.moduleStem = other.moduleStem := by
  rw [same_moduleFile_iff slashless otherSlashless, type.package_root.1, type.package_root.2,
    other.package_root.1, other.package_root.2]

/-- A specifier is told apart from others by where it leads. -/
theorem moduleSpecifier_eq_iff (slashless : destination.Slashless)
    (otherSlashless : other.Slashless) (named : destination.names ≠ [])
    (otherNamed : other.names ≠ []) :
    moduleSpecifier source other = moduleSpecifier source destination ↔
      other.package = destination.package ∧ other.moduleStem = destination.moduleStem := by
  obtain ⟨outermost, inner, names⟩ := List.exists_cons_of_ne_nil named
  obtain ⟨otherOutermost, otherInner, otherNames⟩ := List.exists_cons_of_ne_nil otherNamed
  have isStep : IsStep outermost :=
    slashless.isStep (mem_segments_of_mem_names (names ▸ List.mem_cons_self))
  have otherIsStep : IsStep otherOutermost :=
    otherSlashless.isStep (mem_segments_of_mem_names (otherNames ▸ List.mem_cons_self))
  rw [moduleSpecifier_eq names, moduleSpecifier_eq otherNames, moduleStem_eq names,
    moduleStem_eq otherNames, Except.ok.injEq]
  constructor
  · intro same
    have sameSteps := splitOn_specifier source otherSlashless otherIsStep.noSlash
    rw [same, splitOn_specifier source slashless isStep.noSlash] at sameSteps
    have landed := walk?_specifier source otherSlashless otherIsStep
    rw [← sameSteps, walk?_specifier source slashless isStep, Option.some.injEq] at landed
    obtain ⟨package, last⟩ := List.append_inj' landed rfl
    exact ⟨package.symm, (List.singleton_inj.mp last).symm⟩
  · rintro ⟨package, rfl⟩
    rw [package]

/-- The specifier of an import starts with `./` or `../`, leaves directories before it enters any,
and leads from the directory of the importing module to the imported one. Two types are imported by
the same specifier exactly if they are in the same module. -/
theorem moduleSpecifier_leads (source destination : TypeName)
    (sourceSlashless : source.Slashless) (slashless : destination.Slashless)
    (named : destination.names ≠ []) :
    (∃ specifier steps landed, moduleSpecifier source destination = .ok specifier ∧
      ("./".toList <+: specifier.toList ∨ "../".toList <+: specifier.toList) ∧
      (specifier.toList.splitOn '/').map String.ofList = steps ∧
      (∃ count inward, steps = List.replicate count ".." ++ inward ∧ ".." ∉ inward) ∧
      walk? source.moduleFile.directory steps = some landed ∧
      destination.moduleFile = ⟨String.intercalate "/" landed ++ ".ts"⟩) ∧
    ∀ other : TypeName, other.Slashless → other.names ≠ [] →
      (moduleSpecifier source other = moduleSpecifier source destination ↔
        other.moduleFile.same destination.moduleFile = true) := by
  constructor
  · obtain ⟨outermost, inner, names⟩ := List.exists_cons_of_ne_nil named
    have isStep : IsStep outermost :=
      slashless.isStep (mem_segments_of_mem_names (names ▸ List.mem_cons_self))
    obtain ⟨count, inward, leaving, entering⟩ :=
      exists_ups_relativeSteps source.package slashless.package_isStep
    have walked : walk? source.moduleFile.directory
        (relativeSteps source.package destination.package ++ [outermost]) =
          some (destination.package ++ [outermost]) := by
      rw [directory_moduleFile sourceSlashless]
      exact walk?_specifier source slashless isStep
    refine ⟨_, _, _, moduleSpecifier_eq names, ?_,
      splitOn_specifier source slashless isStep.noSlash, ⟨count, inward ++ [outermost], ?_, ?_⟩,
      walked, ?_⟩
    · have here : "./" = "." ++ "/" := by decide
      have up : "../" = ".." ++ "/" := by decide
      rw [here, up]
      exact (head?_relativeSteps source.package destination.package).imp
        (fun starts => isPrefix_intercalate starts outermost)
        (fun starts => isPrefix_intercalate starts outermost)
    · rw [leaving, List.append_assoc]
    · rw [List.mem_append, List.mem_singleton, not_or]
      exact ⟨entering, isStep.notUp.symm⟩
    · rw [moduleFile_eq_stem slashless, moduleStem_eq names, intercalate_concat_append]
      rfl
  · intro other otherSlashless otherNamed
    rw [moduleSpecifier_eq_iff slashless otherSlashless named otherNamed,
      same_moduleFile_iff_stem otherSlashless slashless]

/-- A nested type is imported from another package like the type around it. -/
theorem spot_specifier_leads :
    ∃ specifier landed, moduleSpecifier ⟨"geo.time.Period"⟩ ⟨"geo.Era.Spot"⟩ = .ok specifier ∧
      moduleSpecifier ⟨"geo.time.Period"⟩ ⟨"geo.Era"⟩ = .ok specifier ∧
      walk? (moduleFile ⟨"geo.time.Period"⟩).directory
        ((specifier.toList.splitOn '/').map String.ofList) = some landed ∧
      moduleFile ⟨"geo.Era.Spot"⟩ = ⟨String.intercalate "/" landed ++ ".ts"⟩ := by
  obtain ⟨⟨specifier, steps, landed, specified, -, rfl, -, walked, file⟩, tells⟩ :=
    moduleSpecifier_leads ⟨"geo.time.Period"⟩ ⟨"geo.Era.Spot"⟩ (by decide) (by decide) (by decide)
  have together : (moduleFile ⟨"geo.Era"⟩).same (moduleFile ⟨"geo.Era.Spot"⟩) = true :=
    (same_moduleFile_iff_stem (by decide) (by decide)).mpr (by decide)
  exact ⟨specifier, landed, specified,
    ((tells ⟨"geo.Era"⟩ (by decide) (by decide)).mpr together).trans specified, walked, file⟩

end Typescribe.TypeName
