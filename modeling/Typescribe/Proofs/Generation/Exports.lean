import Typescribe.Proofs.Generation.Run
import Typescribe.Proofs.Generation.SettledService
import Typescribe.Proofs.TypeScript.Exports

/-!
# What generated modules export

The file of a top-level type exports the type by default and the types nested in it by name, and
patching takes no export away, whatever the texts of the schema hold. The network client's file
exports its interface by default.
-/

namespace Typescribe

open Text TypeScript Placeholder

open KnownTypes (knowing)

/-- The class of a record has the name of the type, and it is the default export of its module
exactly for a top-level type. -/
theorem KnownTypes.recordClass_eq_ok {known : KnownTypes} {record : Record}
    {item : TypeScript.Class} (done : known.recordClass record = .ok item) :
    record.type.className = .ok item.name ∧ (item.exported == .asDefault) = record.type.isRoot := by
  obtain ⟨name, named, built⟩ := bind_eq_ok.mp done
  obtain ⟨members, -, built⟩ := bind_eq_ok.mp built
  obtain ⟨method, -, built⟩ := bind_eq_ok.mp built
  obtain rfl := pure_eq_ok.mp built
  refine ⟨named, ?_⟩
  cases isRoot : record.type.isRoot with
  | true => rfl
  | false => rfl

theorem Enumeration.declaration_eq_ok {body : Enumeration} {item : Enum}
    (done : body.declaration = .ok item) :
    body.type.className = .ok item.name ∧ item.isDefaultExport = body.type.isRoot := by
  obtain ⟨name, named, built⟩ := bind_eq_ok.mp done
  obtain rfl := pure_eq_ok.mp built
  exact ⟨named, rfl⟩

/-- The layout of a declaration holds the line that exports the type. Patching keeps this line,
except perhaps for top-level enumerations, but these have no references. -/
theorem KnownTypes.exists_exportLine {known : KnownTypes} {part : Declaration}
    {layout : List Fragment} {name : String} (done : known.declarationFragments part = .ok layout)
    (named : part.type.className = .ok name) (plain : Braceless name.toList) :
    ∃ fragment ∈ layout, ∃ line ∈ exportLines part.type.isRoot name,
      fragment.firstLine? = some line ∧
        (Landmark ('\n' :: (line.toList ++ ['\n'])) ∨
          part.type.isRoot = true ∧ part.referencedTypes = []) := by
  cases part with
  | record head nested =>
    obtain ⟨item, built, rest⟩ := bind_eq_ok.mp done
    obtain rfl := pure_eq_ok.mp rest
    obtain ⟨isCalled, exported⟩ := recordClass_eq_ok built
    obtain rfl : item.name = name := Except.ok.inj (isCalled.symm.trans named)
    obtain ⟨fragment, member, line, exports, starts, landmark⟩ := Class.exists_exportLine plain
    rw [exported] at exports
    exact ⟨fragment, member, line, exports, starts, .inl landmark⟩
  | enumeration body =>
    obtain ⟨item, built, rest⟩ := bind_eq_ok.mp done
    obtain rfl := pure_eq_ok.mp rest
    obtain ⟨isCalled, exported⟩ := Enumeration.declaration_eq_ok built
    obtain rfl : item.name = name := Except.ok.inj (isCalled.symm.trans named)
    rw [Declaration.type]
    cases isRoot : body.type.isRoot with
    | true =>
      obtain ⟨member, exports⟩ := Enum.defaultExport_mem (exported.trans isRoot)
      exact ⟨_, member, _, exports, rfl, .inr ⟨rfl, rfl⟩⟩
    | false =>
      obtain ⟨fragment, member, line, exports, starts, landmark⟩ :=
        Enum.exists_exportLine (exported.trans isRoot) plain
      exact ⟨fragment, member, line, exports, starts, .inl landmark⟩
  | service body => cases done

namespace Session

variable {roots : List Declaration} {store : MemoryStore} {root part : Declaration}

/-- An up-to-date file exports every type declared in it. -/
theorem UpToDate.exports (upToDate : UpToDate roots store root) (wellFormed : WellFormed roots)
    (member : root ∈ roots) (inside : part ∈ root.flatten) {name : String}
    (named : part.type.className = .ok name) :
    ∃ text, store.get? root.type.moduleFile = some text ∧ Exports text part.type.isRoot name := by
  obtain ⟨earlier, item, replacements, isPrefix, written, content, entries, caughtUp⟩ := upToDate
  have declared := Declaration.mem_flattenAll.mpr ⟨root, member, inside⟩
  have plain := TypeName.className_braceless (wellFormed.type_isPlain declared).braceless named
  obtain ⟨declarations, laidOut, rest⟩ := bind_eq_ok.mp written
  obtain ⟨imports, -, rest⟩ := bind_eq_ok.mp rest
  obtain rfl := pure_eq_ok.mp rest
  obtain ⟨layout, listed, done⟩ := exists_mem_of_mapM laidOut inside
  obtain ⟨fragment, leads, line, exported, starts, kept⟩ :=
    KnownTypes.exists_exportLine done named plain
  refine ⟨_, content, line, exported, ?_⟩
  have first : HasLine (Module.render { imports, declarations }).toList line.toList :=
    Module.hasLine_render listed leads starts
  rcases kept with landmark | ⟨isRoot, noReferences⟩
  · apply HasLine.apply landmark _ _ first
    intro entry replaced
    obtain ⟨referenced, -⟩ := entries entry replaced
    exact wellFormed.bracelessTypes.of_mem_referencedTypes member referenced
  · -- Nothing is ever replaced in the module of an enumeration.
    obtain rfl := (wellFormed.isRoot_iff member inside).mp isRoot
    have unpatched : replacements = [] := by
      rw [List.eq_nil_iff_forall_not_mem]
      intro entry replaced
      have referenced := (entries entry replaced).1
      rw [noReferences] at referenced
      exact List.not_mem_nil referenced
    rw [unpatched, Patch.apply_nil]
    exact first

end Session

/-- The network client's file exports its interface by default. -/
theorem Service.exports_clientModule : Exports clientModule.render true clientType := by
  have listed : "export default interface ServiceNetworkClient \x7b" ∈ clientSource := by
    simp [clientSource]
  have written : .line "export default interface ServiceNetworkClient \x7b" ∈
      verbatim (String.intercalate "\n" clientSource) := by
    rw [verbatim, lines_clientSource]
    exact List.mem_map.mpr ⟨_, listed, rfl⟩
  have has : HasLine clientModule.render.toList
      "export default interface ServiceNetworkClient \x7b".toList :=
    Module.hasLine_render List.mem_cons_self written rfl
  exact ⟨_, by simp [exportLines, blockLines, clientType], has⟩

end Typescribe
