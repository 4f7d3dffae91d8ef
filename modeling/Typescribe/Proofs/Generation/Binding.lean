import Typescribe.Proofs.Generation.History
import Typescribe.Proofs.Generation.Imports

/-!
# When modules bind each name once

A type is called by its names alone, in its own module and wherever it is imported. So types of
different packages can be called alike, as can a nested type and one with an underscore in its
name, and types that are called like something from the runtime. A module binds each of its names
once exactly if nothing of this kind meets in it.
-/

namespace Typescribe

open TypeScript

namespace TypeName

variable {type source : TypeName} {entry : Import}

/-- An import of a type binds what the type is called. -/
theorem localNames_importInto (done : source.importInto type = .ok entry) :
    entry.localNames = [type.called] := by
  obtain ⟨name, named, -, binding⟩ := importInto_eq_ok done
  rw [Import.localNames, called_eq named]
  split at binding
  · rw [binding.1, binding.2]
    rfl
  · rw [binding.1, binding.2]
    rfl

/-- No type is imported from the runtime's package. -/
theorem source_importInto (done : source.importInto type = .ok entry) :
    entry.source ≠ "class-transformer" := by
  obtain ⟨-, -, specified, -⟩ := importInto_eq_ok done
  rw [moduleSpecifier] at specified
  split at specified
  · cases specified
  · rw [← Except.ok.inj specified]
    intro same
    have slash : '/' ∈ "class-transformer".toList := by
      rw [← same]
      simp
    exact absurd slash (by decide)

/-- Names that are joined start like the first of them. -/
theorem startsLowercase_intercalate {first : String} (nonempty : first ≠ "") (rest : List String) :
    startsLowercase (String.intercalate "_" (first :: rest)) = startsLowercase first := by
  obtain ⟨c, chars, spelled⟩ : ∃ c chars, first.toList = c :: chars :=
    List.exists_cons_of_ne_nil fun empty => nonempty (String.toList_inj.mp empty)
  rw [startsLowercase, startsLowercase, String.toList_intercalate, List.map_cons, spelled]
  cases rest with
  | nil => rw [List.map_nil, List.intercalate_singleton]
  | cons second later => rw [List.map_cons, List.intercalate_cons_cons, List.append_assoc]; rfl

/-- What an imported type is called is not lowercase at the start. -/
theorem startsLowercase_called (needed : type.needsImport = true)
    (imported : source.importInto type = .ok entry) : startsLowercase type.called = false := by
  obtain ⟨name, named, -⟩ := importInto_eq_ok imported
  have native := (needsImport_iff.mp needed).2
  rw [isNative, Bool.or_eq_false_iff] at native
  have names := ((className_isOk_iff type).mp ⟨name, named⟩).2 native.1
  have other : type ≠ timestamp := by
    rintro rfl
    exact absurd native.2 (by decide)
  obtain ⟨first, rest, parts⟩ := List.exists_cons_of_ne_nil names
  have isName : first ∈ type.names := parts ▸ List.mem_cons_self
  have nonempty := (mem_segments (mem_segments_of_mem_names isName)).1
  rw [called_eq (className_eq names other), parts, startsLowercase_intercalate nonempty,
    startsLowercase_of_mem_names isName]

end TypeName

/-- What the module of a service with procedures imports from the runtime. -/
def runtimeImport (hasPayload : Bool) : Import where
  source := "class-transformer"
  named := "plainToClass" :: if hasPayload then ["serialize"] else []

theorem nodup_localNames_runtimeImport (hasPayload : Bool) :
    (runtimeImport hasPayload).localNames.Nodup := by
  cases hasPayload <;> decide

theorem startsLowercase_of_mem_runtimeImport {hasPayload : Bool} {name : String}
    (bound : name ∈ (runtimeImport hasPayload).localNames) :
    TypeName.startsLowercase name = true := by
  cases hasPayload <;> revert name <;> decide

/-- What the module of a service imports beside types: the network client, and something from the
runtime if there are procedures. -/
def Service.Helps (rpcs : List ResolvedRpc) (entry : Import) : Prop :=
  entry = { source := "./" ++ clientType, defaultName := some clientType } ∨
    rpcs ≠ [] ∧ entry = runtimeImport (rpcs.any ResolvedRpc.hasPayload)

namespace Service.Helps

variable {rpcs : List ResolvedRpc} {helper other : Import} {name : String}

theorem nodup_localNames (helps : Helps rpcs helper) : helper.localNames.Nodup := by
  rcases helps with rfl | ⟨-, rfl⟩
  · exact List.nodup_singleton _
  · exact nodup_localNames_runtimeImport _

/-- A helper binds the name of the network client, or names that are lowercase at the start. -/
theorem client_or_lowercase (helps : Helps rpcs helper) (bound : name ∈ helper.localNames) :
    helper = { source := "./" ++ clientType, defaultName := some clientType } ∧
        name = clientType ∨
      helper = runtimeImport (rpcs.any ResolvedRpc.hasPayload) ∧
        TypeName.startsLowercase name = true := by
  rcases helps with rfl | ⟨-, rfl⟩
  · exact .inl ⟨rfl, List.mem_singleton.mp bound⟩
  · exact .inr ⟨rfl, startsLowercase_of_mem_runtimeImport bound⟩

/-- No two helpers bind one name. -/
theorem eq_of_bound (helps : Helps rpcs helper) (otherHelps : Helps rpcs other)
    (bound : name ∈ helper.localNames) (otherBound : name ∈ other.localNames) :
    helper = other := by
  have notLower : ¬ TypeName.startsLowercase clientType = true := by decide
  rcases helps.client_or_lowercase bound with ⟨rfl, rfl⟩ | ⟨rfl, lower⟩
  · rcases otherHelps.client_or_lowercase otherBound with ⟨rfl, -⟩ | ⟨-, lower⟩
    · rfl
    · exact absurd lower notLower
  · rcases otherHelps.client_or_lowercase otherBound with ⟨-, rfl⟩ | ⟨rfl, -⟩
    · exact absurd lower notLower
    · rfl

end Service.Helps

/-- The module of a service imports its helpers, and each type that its methods mention and that
needs an import. -/
theorem Service.mem_imports_iff_helps {service : Service} {rpcs : List ResolvedRpc}
    {imports : List Import} (done : service.imports rpcs = .ok imports) {entry : Import} :
    entry ∈ imports ↔
      Helps rpcs entry ∨
        ∃ type ∈ (rpcs.flatMap ResolvedRpc.mentioned).filter TypeName.needsImport,
          service.type.importInto type = .ok entry := by
  rw [mem_imports_iff done, Helps, or_assoc]
  refine or_congr_right (or_congr_right ?_)
  simp only [List.mem_filter, List.mem_flatMap]
  constructor
  · rintro ⟨result, member, type, mentioned, needed, made⟩
    exact ⟨type, ⟨⟨result, member, mentioned⟩, needed⟩, made⟩
  · rintro ⟨type, ⟨⟨result, member, mentioned⟩, needed⟩, made⟩
    exact ⟨result, member, type, mentioned, needed, made⟩

/-- Imports of helpers and of types bind each name once, together with the declarations of a module,
if declarations, types and helpers that are called alike are the same. -/
theorem nodup_topLevelNames_iff_of_imports {item : Module} {source : TypeName}
    {helps : Import → Prop} {imported : List TypeName}
    (imports : ∀ entry, entry ∈ item.imports ↔
      helps entry ∨ ∃ type ∈ imported, source.importInto type = .ok entry)
    (taken : ∀ type ∈ imported, ∃ entry, source.importInto type = .ok entry)
    (once : ∀ helper, helps helper → helper.localNames.Nodup)
    (apart : ∀ first second, helps first → helps second → ∀ name ∈ first.localNames,
      name ∈ second.localNames → first = second) :
    item.topLevelNames.Nodup ↔
      item.declaredNames.Nodup ∧
      (∀ type ∈ imported, type.called ∉ item.declaredNames) ∧
      (∀ first ∈ imported, ∀ second ∈ imported, first.called = second.called →
        source.importInto first = source.importInto second) ∧
      ∀ helper, helps helper → ∀ name ∈ helper.localNames, name ∉ item.declaredNames ∧
        ∀ type ∈ imported, type.called = name → source.importInto type = .ok helper := by
  have binds : ∀ type ∈ imported, ∃ entry ∈ item.imports, source.importInto type = .ok entry ∧
      type.called ∈ entry.localNames := by
    intro type member
    obtain ⟨entry, done⟩ := taken type member
    refine ⟨entry, (imports entry).mpr (.inr ⟨type, member, done⟩), done, ?_⟩
    rw [TypeName.localNames_importInto done]
    exact List.mem_singleton_self _
  rw [Module.nodup_topLevelNames_iff]
  constructor
  · rintro ⟨-, equal, declared, free⟩
    refine ⟨declared, fun type member => ?_, fun first member second otherMember alike => ?_,
      fun helper listed name bound => ⟨?_, fun type member alike => ?_⟩⟩
    · obtain ⟨entry, listed, -, bound⟩ := binds type member
      exact free entry listed _ bound
    · obtain ⟨entry, listed, done, bound⟩ := binds first member
      obtain ⟨other, otherListed, otherDone, otherBound⟩ := binds second otherMember
      rw [done, otherDone, equal entry listed other otherListed _ bound (alike ▸ otherBound)]
    · exact free helper ((imports helper).mpr (.inl listed)) name bound
    · obtain ⟨entry, entryListed, done, entryBound⟩ := binds type member
      rw [done, equal entry entryListed helper ((imports helper).mpr (.inl listed)) _ entryBound
        (alike ▸ bound)]
  · rintro ⟨declared, typesFree, typesApart, helpersFree⟩
    refine ⟨fun entry listed => ?_, fun first listed second otherListed name bound otherBound => ?_,
      declared, fun entry listed name bound => ?_⟩
    · rcases (imports entry).mp listed with isHelper | ⟨type, member, done⟩
      · exact once entry isHelper
      · rw [TypeName.localNames_importInto done]
        exact List.nodup_singleton _
    · rcases (imports first).mp listed with isHelper | ⟨type, member, done⟩
      · rcases (imports second).mp otherListed with otherIsHelper | ⟨other, otherMember, otherDone⟩
        · exact apart first second isHelper otherIsHelper name bound otherBound
        · rw [TypeName.localNames_importInto otherDone, List.mem_singleton] at otherBound
          have same := (helpersFree first isHelper name bound).2 other otherMember otherBound.symm
          exact Except.ok.inj (same.symm.trans otherDone)
      · rw [TypeName.localNames_importInto done, List.mem_singleton] at bound
        rcases (imports second).mp otherListed with otherIsHelper | ⟨other, otherMember, otherDone⟩
        · have same := (helpersFree second otherIsHelper name otherBound).2 type member bound.symm
          exact Except.ok.inj (done.symm.trans same)
        · rw [TypeName.localNames_importInto otherDone, List.mem_singleton] at otherBound
          have same := typesApart type member other otherMember (bound.symm.trans otherBound)
          exact Except.ok.inj (done.symm.trans (same.trans otherDone))
    · rcases (imports entry).mp listed with isHelper | ⟨type, member, done⟩
      · exact (helpersFree entry isHelper name bound).1
      · rw [TypeName.localNames_importInto done, List.mem_singleton] at bound
        exact bound ▸ typesFree type member

/-- The types that a procedure brings into its service's module: its response, and its request if
that has anything to send. -/
def KnownTypes.exchanged (known : KnownTypes) (rpc : Rpc) : List TypeName :=
  (match known.find? rpc.requestType with
    | some (.record head _) => if 0 < head.fieldCount then [rpc.requestType] else []
    | _ => []) ++ [rpc.responseType]

theorem KnownTypes.mentioned_eq {known : KnownTypes} {service : Service} {rpc : Rpc}
    {resolved : ResolvedRpc} (done : known.resolveRpc service rpc = .ok resolved) :
    resolved.mentioned = known.exchanged rpc := by
  obtain ⟨-, ⟨nested, found⟩, -⟩ := resolveRpc_eq_ok.mp done
  obtain ⟨request, response⟩ := types_of_resolveRpc done
  rw [exchanged, found, ResolvedRpc.mentioned, ResolvedRpc.hasPayload, request, response]
  simp

namespace Emission

/-- The names of the classes and enumerations in the module of an emission. -/
def declaredNames (emission : Emission) : List String :=
  match emission.root with
  | .service body => [body.name]
  | root => root.flatten.map fun part => part.type.called

/-- The types that the module of an emission imports. -/
def importedTypes (emission : Emission) : List TypeName :=
  match emission.root with
  | .service body => (body.rpcs.flatMap emission.known.exchanged).filter TypeName.needsImport
  | root => root.referencedTypes.filter fun type =>
      type.needsImport && type.root != root.type.root

/-- No two things in the module of an emission are called alike. -/
structure BindsOnce (emission : Emission) : Prop where
  /-- The types that the module declares are called differently. -/
  declared : emission.declaredNames.Nodup
  /-- No imported type is called like a declared one. -/
  imported : ∀ type ∈ emission.importedTypes, type.called ∉ emission.declaredNames
  /-- Imported types that are called alike are imported by the same statement. -/
  apart : ∀ first ∈ emission.importedTypes, ∀ second ∈ emission.importedTypes,
    first.called = second.called →
      emission.root.type.importInto first = emission.root.type.importInto second
  /-- Where there are references, nothing is called like the decorator. -/
  decorator : emission.root.referencedTypes ≠ [] → "Type" ∉ emission.declaredNames ∧
    ∀ type ∈ emission.importedTypes, type.called ≠ "Type"
  /-- Nothing in the module of a service is called like the network client, unless it is imported
  from the client's place. -/
  client : emission.root.isService = true → Service.clientType ∉ emission.declaredNames ∧
    ∀ type ∈ emission.importedTypes, type.called = Service.clientType →
      emission.root.type.importInto type =
        .ok { source := "./" ++ Service.clientType, defaultName := some Service.clientType }

instance (emission : Emission) : Decidable emission.BindsOnce :=
  decidable_of_iff
    (emission.declaredNames.Nodup ∧
      (∀ type ∈ emission.importedTypes, type.called ∉ emission.declaredNames) ∧
      (∀ first ∈ emission.importedTypes, ∀ second ∈ emission.importedTypes,
        first.called = second.called →
          emission.root.type.importInto first = emission.root.type.importInto second) ∧
      (emission.root.referencedTypes ≠ [] → "Type" ∉ emission.declaredNames ∧
        ∀ type ∈ emission.importedTypes, type.called ≠ "Type") ∧
      (emission.root.isService = true → Service.clientType ∉ emission.declaredNames ∧
        ∀ type ∈ emission.importedTypes, type.called = Service.clientType →
          emission.root.type.importInto type =
            .ok { source := "./" ++ Service.clientType, defaultName := some Service.clientType }))
    ⟨fun ⟨declared, imported, apart, decorator, client⟩ =>
        ⟨declared, imported, apart, decorator, client⟩,
      fun ⟨declared, imported, apart, decorator, client⟩ =>
        ⟨declared, imported, apart, decorator, client⟩⟩

end Emission

/-- The layout of a declaration declares what the declaration is called. -/
theorem KnownTypes.declaredNames_fragments {known : KnownTypes} {declaration : Declaration}
    {layout : List Fragment} (done : known.declarationFragments declaration = .ok layout) :
    layout.filterMap Fragment.declaredName? = [declaration.type.called] := by
  cases declaration with
  | record head nested =>
    obtain ⟨item, written, rest⟩ := bind_eq_ok.mp done
    obtain rfl := pure_eq_ok.mp rest
    obtain ⟨name, named, rest⟩ := bind_eq_ok.mp written
    obtain ⟨members, -, rest⟩ := bind_eq_ok.mp rest
    obtain ⟨method, -, rest⟩ := bind_eq_ok.mp rest
    obtain rfl := pure_eq_ok.mp rest
    rw [Class.declaredNames_eq, Declaration.type, TypeName.called_eq named]
  | enumeration body =>
    obtain ⟨item, written, rest⟩ := bind_eq_ok.mp done
    obtain rfl := pure_eq_ok.mp rest
    obtain ⟨name, named, rest⟩ := bind_eq_ok.mp written
    obtain rfl := pure_eq_ok.mp rest
    rw [Enum.declaredNames_eq, Declaration.type, TypeName.called_eq named]
  | service body => cases done

/-- The module of a type declares everything nested in it. -/
theorem KnownTypes.declaredNames_typeModule {known : KnownTypes} {root : Declaration}
    {item : Module} (done : known.typeModule root = .ok item) :
    item.declaredNames = root.flatten.map fun part => part.type.called := by
  obtain ⟨layouts, written, rest⟩ := bind_eq_ok.mp done
  obtain ⟨imports, -, rest⟩ := bind_eq_ok.mp rest
  obtain rfl := pure_eq_ok.mp rest
  have names := map_eq_of_mapM written fun part _ layout done => declaredNames_fragments done
  rw [Module.declaredNames, List.flatMap_def, names, ← List.flatMap_def, ← List.map_eq_flatMap]

/-- Where the imports of a type's module can be written, each of the types can be imported. -/
theorem Declaration.exists_importInto {declaration : Declaration} {imports : List Import}
    (done : declaration.imports = .ok imports) :
    ∀ type ∈ declaration.referencedTypes.filter fun type =>
        type.needsImport && type.root != declaration.type.root,
      ∃ entry, declaration.type.importInto type = .ok entry := by
  rw [Declaration.imports] at done
  split at done
  next empty => simp [empty]
  next =>
    obtain ⟨elsewhere, imported, -⟩ := bind_eq_ok.mp done
    exact exists_mapM_eq_ok.mp ⟨elsewhere, imported⟩

/-- Where the imports of a service's module can be written, each of the types can be imported. -/
theorem Service.exists_importInto {service : Service} {rpcs : List ResolvedRpc}
    {imports : List Import} (done : service.imports rpcs = .ok imports) :
    ∀ type ∈ (rpcs.flatMap ResolvedRpc.mentioned).filter TypeName.needsImport,
      ∃ entry, service.type.importInto type = .ok entry := by
  rw [Service.imports] at done
  split at done
  next empty => simp [List.isEmpty_iff.mp empty]
  next =>
    obtain ⟨messages, imported, -⟩ := bind_eq_ok.mp done
    exact exists_mapM_eq_ok.mp ⟨messages, imported⟩

namespace Emission

variable {emission : Emission} {item : Module}

theorem declaredNames_of_data (data : emission.root.isService = false) :
    emission.declaredNames = emission.root.flatten.map fun part => part.type.called := by
  obtain ⟨known, root⟩ := emission
  cases root with
  | record head nested => rfl
  | enumeration body => rfl
  | service body => cases data

theorem importedTypes_of_data (data : emission.root.isService = false) :
    emission.importedTypes = emission.root.referencedTypes.filter fun type =>
      type.needsImport && type.root != emission.root.type.root := by
  obtain ⟨known, root⟩ := emission
  cases root with
  | record head nested => rfl
  | enumeration body => rfl
  | service body => cases data

/-- The module of a type binds each name once exactly if nothing in it is called alike. -/
theorem nodup_topLevelNames_iff_of_data (data : emission.root.isService = false)
    (made : emission.module? = .ok item) : item.topLevelNames.Nodup ↔ emission.BindsOnce := by
  have written := (module?_of_data data).symm.trans made
  have declared := (KnownTypes.declaredNames_typeModule written).trans
    (declaredNames_of_data data).symm
  have types := importedTypes_of_data data
  obtain ⟨layouts, -, rest⟩ := bind_eq_ok.mp written
  obtain ⟨imports, imported, rest⟩ := bind_eq_ok.mp rest
  have fromRoot : item.imports = imports := by rw [← pure_eq_ok.mp rest]
  have listed : ∀ entry, entry ∈ item.imports ↔
      (emission.root.referencedTypes ≠ [] ∧
        entry = { source := "class-transformer", named := ["Type"] }) ∨
      ∃ type ∈ emission.importedTypes, emission.root.type.importInto type = .ok entry := by
    intro entry
    rw [fromRoot, Declaration.mem_imports_iff imported, types]
    simp only [List.mem_filter, Bool.and_eq_true, bne_iff_ne, and_assoc]
  have taken : ∀ type ∈ emission.importedTypes,
      ∃ entry, emission.root.type.importInto type = .ok entry := by
    rw [types]
    exact Declaration.exists_importInto imported
  have names : Import.localNames { source := "class-transformer", named := ["Type"] } =
    ["Type"] := rfl
  rw [nodup_topLevelNames_iff_of_imports listed taken, declared]
  · constructor
    · rintro ⟨once, free, apart, helpersFree⟩
      refine ⟨once, free, apart, fun refers => ?_, fun isService => ?_⟩
      · have decorator := helpersFree _ ⟨refers, rfl⟩ "Type" (names ▸ List.mem_singleton_self _)
        refine ⟨decorator.1, fun type member alike => ?_⟩
        exact TypeName.source_importInto (decorator.2 type member alike) rfl
      · rw [data] at isService
        cases isService
    · intro bindsOnce
      refine ⟨bindsOnce.declared, bindsOnce.imported, bindsOnce.apart, ?_⟩
      rintro _ ⟨refers, rfl⟩ name bound
      rw [names, List.mem_singleton] at bound
      obtain ⟨undeclared, others⟩ := bindsOnce.decorator refers
      rw [bound]
      exact ⟨undeclared, fun type member alike => absurd alike (others type member)⟩
  · rintro _ ⟨-, rfl⟩
    exact List.nodup_singleton _
  · rintro _ _ ⟨-, rfl⟩ ⟨-, rfl⟩ _ _ _
    rfl

/-- The types that the module of a service imports are those that its methods mention. -/
theorem importedTypes_of_service {known : KnownTypes} {service : Service}
    {rpcs : List ResolvedRpc} (resolved : service.rpcs.mapM (known.resolveRpc service) = .ok rpcs) :
    importedTypes ⟨known, .service service⟩ =
      (rpcs.flatMap ResolvedRpc.mentioned).filter TypeName.needsImport := by
  have mentioned := map_eq_of_mapM resolved fun rpc _ result done =>
    KnownTypes.mentioned_eq done
  dsimp only [importedTypes]
  rw [List.flatMap_def, ← mentioned, ← List.flatMap_def]

/-- The module of a service binds each name once exactly if nothing in it is called alike. What it
takes from the runtime is lowercase at the start, unlike types and services. -/
theorem nodup_topLevelNames_iff_of_service {known : KnownTypes} {service : Service}
    {name : String} (single : service.type.names = [name])
    (made : known.serviceModule service = .ok item) :
    item.topLevelNames.Nodup ↔ BindsOnce ⟨known, .service service⟩ := by
  obtain ⟨rpcs, resolved, rest⟩ := bind_eq_ok.mp made
  obtain ⟨imports, imported, rest⟩ := bind_eq_ok.mp rest
  have declared : item.declaredNames = [service.name] := by
    rw [← pure_eq_ok.mp rest]
    exact (List.flatMap_singleton _ _).trans (Class.declaredNames_eq _)
  have fromService : item.imports = imports := by rw [← pure_eq_ok.mp rest]
  have types := importedTypes_of_service resolved
  have listed : ∀ entry, entry ∈ item.imports ↔ Service.Helps rpcs entry ∨
      ∃ type ∈ importedTypes ⟨known, .service service⟩,
        service.type.importInto type = .ok entry := by
    intro entry
    rw [fromService, types]
    exact Service.mem_imports_iff_helps imported
  have taken : ∀ type ∈ importedTypes ⟨known, .service service⟩,
      ∃ entry, service.type.importInto type = .ok entry := by
    rw [types]
    exact Service.exists_importInto imported
  rw [nodup_topLevelNames_iff_of_imports listed taken (fun _ helps => helps.nodup_localNames)
    fun _ _ helps otherHelps _ => helps.eq_of_bound otherHelps, declared]
  constructor
  · rintro ⟨once, free, apart, helpersFree⟩
    refine ⟨once, free, apart, fun refers => absurd rfl refers, fun _ => ?_⟩
    exact helpersFree _ (.inl rfl) _ (List.mem_singleton_self _)
  · intro bindsOnce
    refine ⟨bindsOnce.declared, bindsOnce.imported, bindsOnce.apart, ?_⟩
    intro helper helps bound member
    rcases helps.client_or_lowercase member with ⟨rfl, rfl⟩ | ⟨-, lower⟩
    · exact bindsOnce.client rfl
    · constructor
      · intro same
        rw [List.mem_singleton.mp same, Service.name, TypeName.simpleName_eq single,
          TypeName.startsLowercase_of_mem_names (single ▸ List.mem_singleton_self _)] at lower
        cases lower
      · rintro type isImported rfl
        obtain ⟨entry, done⟩ := taken type isImported
        rw [types, List.mem_filter] at isImported
        rw [TypeName.startsLowercase_called isImported.2 done] at lower
        cases lower

/-- The module of a well-spelled declaration binds each name once exactly if nothing in it is called
alike. -/
theorem nodup_topLevelNames_iff {roots : List Declaration} (wellSpelled : WellSpelled roots)
    (member : emission.root ∈ roots) (made : emission.module? = .ok item) :
    item.topLevelNames.Nodup ↔ emission.BindsOnce := by
  cases data : emission.root.isService with
  | false => exact nodup_topLevelNames_iff_of_data data made
  | true =>
    obtain ⟨known, root⟩ := emission
    obtain ⟨service, rfl⟩ := Declaration.isService_iff.mp data
    obtain ⟨name, single⟩ := wellSpelled.single_name member
    exact nodup_topLevelNames_iff_of_service single made

end Emission

/-- In the end, every file holds the module of its declaration for everything that is known. -/
theorem Session.exists_module_held {files : List SchemaFile} {session : Session MemoryStore}
    (wellFormed : WellFormed (rootsOf files)) (clientNameFree : ClientNameFree (rootsOf files))
    (unmarkedTexts : UnmarkedTexts (rootsOf files))
    (ran : processFiles { store := ({} : MemoryStore) } files = (.ok (), session))
    {root : Declaration} (member : root ∈ rootsOf files) :
    ∃ item, Emission.module? ⟨session.known, root⟩ = .ok item ∧
      session.store.get? root.type.moduleFile = some item.render := by
  have known : session.known = KnownTypes.knowing (rootsOf files) := by
    have tracks := ((processFiles_meets wellFormed).of_ok ran).2.1
    exact tracks.known
  rw [known]
  cases data : root.isService with
  | false =>
    obtain ⟨item, written⟩ := exists_typeModule wellFormed ran member data
    refine ⟨item, (Emission.module?_of_data data).trans written, ?_⟩
    rw [get?_type_eq wellFormed clientNameFree unmarkedTexts ran member data,
      render_eq_fill written]
  | true =>
    obtain ⟨service, rfl⟩ := Declaration.isService_iff.mp data
    exact get?_service_eq wellFormed clientNameFree ran member

/-- Every module is written with the names that it binds, each of them once exactly if nothing in it
is called alike. The same holds of what the files are left with, if no file is written for two
declarations and no text is taken for a placeholder. -/
theorem names_bound_once_iff {files : List SchemaFile} {session : Session MemoryStore}
    (wellSpelled : WellSpelled (rootsOf files))
    (ran : Session.processFiles { store := ({} : MemoryStore) } files = (.ok (), session)) :
    (∀ emission ∈ emissions .initial files, ∃ item, emission.module? = .ok item ∧
      item.render ∈ (journalOf files).writesAt emission.root.type.moduleFile ∧
      (item.topLevelNames.Nodup ↔ emission.BindsOnce)) ∧
    (WellFormed (rootsOf files) → ClientNameFree (rootsOf files) →
      UnmarkedTexts (rootsOf files) → ∀ root ∈ rootsOf files,
        ∃ item, Emission.module? ⟨session.known, root⟩ = .ok item ∧
          session.store.get? root.type.moduleFile = some item.render ∧
          (item.topLevelNames.Nodup ↔ Emission.BindsOnce ⟨session.known, root⟩)) := by
  constructor
  · intro emission emitted
    obtain ⟨logged, reached, isJournal, -⟩ := Session.exists_history ran
    obtain ⟨item, made, written⟩ := reached.written emission emitted
    rw [isJournal] at written
    have declared := (of_mem_emissions emitted).1
    exact ⟨item, made, written, Emission.nodup_topLevelNames_iff wellSpelled declared made⟩
  · intro wellFormed clientNameFree unmarkedTexts root member
    obtain ⟨item, made, held⟩ :=
      Session.exists_module_held wellFormed clientNameFree unmarkedTexts ran member
    have bindsOnce := @Emission.nodup_topLevelNames_iff ⟨session.known, root⟩ item _ wellSpelled
      member made
    exact ⟨item, made, held, bindsOnce⟩

/-- Nothing in the modules of the survey is called alike. -/
theorem survey_names_bound_once : ∃ session,
    Session.processFiles { store := ({} : MemoryStore) } surveyFiles = (.ok (), session) ∧
    (∀ emission ∈ emissions .initial surveyFiles, ∃ item, emission.module? = .ok item ∧
      item.render ∈ (journalOf surveyFiles).writesAt emission.root.type.moduleFile ∧
      item.topLevelNames.Nodup) ∧
    ∀ root ∈ rootsOf surveyFiles, ∃ item, Emission.module? ⟨session.known, root⟩ = .ok item ∧
      session.store.get? root.type.moduleFile = some item.render ∧ item.topLevelNames.Nodup := by
  obtain ⟨session, ran⟩ := (exists_processFiles_iff survey_wellFormed).mpr Generable.survey
  obtain ⟨written, held⟩ := names_bound_once_iff survey_wellFormed.wellSpelled ran
  obtain ⟨-, -, -, -, -, known⟩ := Session.exists_history ran
  have drafted : ∀ emission ∈ emissions .initial surveyFiles, emission.BindsOnce := by
    decide +kernel
  have final : ∀ root ∈ rootsOf surveyFiles,
      Emission.BindsOnce ⟨KnownTypes.initial.registerFiles surveyFiles, root⟩ := by
    decide +kernel
  rw [← known] at final
  refine ⟨session, ran, fun emission emitted => ?_, fun root member => ?_⟩
  · obtain ⟨item, made, listed, bindsOnce⟩ := written emission emitted
    exact ⟨item, made, listed, bindsOnce.mpr (drafted emission emitted)⟩
  · obtain ⟨item, made, content, bindsOnce⟩ :=
      held survey_wellFormed survey_clientNameFree survey_unmarkedTexts root member
    exact ⟨item, made, content, bindsOnce.mpr (final root member)⟩

/-- Two types with the same name in different packages, where one refers to the other. -/
def clutchFiles : List SchemaFile :=
  [{ name := "b", declarations := [.record { type := ⟨"b.Egg"⟩ } []] },
   { name := "a"
     declarations := [.record
      { type := ⟨"a.Egg"⟩, fields := [{ name := "shell", type := ⟨"b.Egg"⟩ }] } []] }]

theorem clutch_wellFormed : WellFormed (rootsOf clutchFiles) := by decide

theorem clutch_generable : Generable clutchFiles where
  fieldsNamed := by decide
  noServiceFields := by decide
  messagesDeclared _ _ _ split service member :=
    absurd member (Generable.not_mem_services (by decide) split service)

/-- The module of one type imports the other by the name that it declares. -/
theorem clutch_egg_bound_twice : WellFormed (rootsOf clutchFiles) ∧ ∃ session item,
    Session.processFiles { store := ({} : MemoryStore) } clutchFiles = (.ok (), session) ∧
    session.store.get? ⟨"a/Egg.ts"⟩ = some (Module.render item) ∧
    item.topLevelNames = ["Type", "Egg", "Egg"] := by
  obtain ⟨session, ran⟩ := (exists_processFiles_iff clutch_wellFormed).mpr clutch_generable
  obtain ⟨-, -, -, -, -, known⟩ := Session.exists_history ran
  obtain ⟨item, made, held⟩ := Session.exists_module_held clutch_wellFormed (by decide)
    (by decide) ran (List.mem_cons_of_mem _ List.mem_cons_self)
  have names : (Emission.module? ⟨KnownTypes.initial.registerFiles clutchFiles,
      .record { type := ⟨"a.Egg"⟩, fields := [{ name := "shell", type := ⟨"b.Egg"⟩ }] } []⟩).map
        Module.topLevelNames = .ok ["Type", "Egg", "Egg"] := by
    decide
  have file : TypeName.moduleFile ⟨"a.Egg"⟩ = ⟨"a/Egg.ts"⟩ := by decide +kernel
  rw [← known, made] at names
  rw [← file]
  exact ⟨clutch_wellFormed, session, item, ran, held, Except.ok.inj names⟩

end Typescribe
