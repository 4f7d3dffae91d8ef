import Typescribe.Proofs.Generation.Dangling
import Typescribe.Proofs.Generation.Exports
import Typescribe.Proofs.TypeScript.TopLevel

/-!
# Imports lead to exports

Every import of a generated module, those from the runtime's package apart, leads to another
generated file that exports what is imported. And every type that a module uses and does not
declare itself is brought in by exactly one import.
-/

namespace Typescribe

open TypeScript Placeholder

open KnownTypes (knowing)

/-- An import brings a type into a file: its specifier leads to the module of the type, and it
takes the default export for a top-level type and the export of the type's name for a nested one. -/
def Brings (file : Path) (type : TypeName) (entry : Import) : Prop :=
  specifiedFile? file entry.source = some type.moduleFile ∧
    ∃ name, type.className = .ok name ∧
      if type.isRoot then entry.defaultName = some name else name ∈ entry.named

/-- A procedure exchanges its response, and its request if that is a record with fields. -/
def Exchanges (roots : List Declaration) (rpc : Rpc) (type : TypeName) : Prop :=
  type = rpc.responseType ∨
    type = rpc.requestType ∧ ∃ head nested,
      .record head nested ∈ Declaration.flattenAll roots ∧ head.type = type ∧ 0 < head.fieldCount

/-- What the imports of a generated file have to fulfil. -/
structure SoundImports (store : MemoryStore) (file : Path) (item : Module) : Prop where
  /-- The file starts with the imports. -/
  written : ∃ text, store.get? file = some text ∧ item.importChars <+: text.toList
  /-- No import is repeated. -/
  distinct : item.imports.eraseDups.Nodup
  /-- All imports but those from the runtime's package lead to other files, which export what is
  imported. -/
  found : ∀ entry ∈ item.imports.eraseDups, entry.source ≠ "class-transformer" →
    ∃ path text, specifiedFile? file entry.source = some path ∧ path.same file = false ∧
      store.get? path = some text ∧ (∀ name ∈ entry.defaultName, Exports text true name) ∧
        ∀ name ∈ entry.named, Exports text false name

/-- What an import of a top-level declaration's module takes in. -/
inductive Origin (roots : List Declaration) (importer : Declaration) (entry : Import) : Prop where
  /-- Something from the runtime's package. -/
  | package (source : entry.source = "class-transformer")
  /-- The network client beside a service. -/
  | client (service : Service) (isImporter : importer = .service service)
      (isClient : entry =
        { source := "./" ++ Service.clientType, defaultName := some Service.clientType })
  /-- A type that another module declares. -/
  | type (home part : Declaration) (member : home ∈ roots) (data : home.isService = false)
      (different : home ≠ importer) (inside : part ∈ home.flatten)
      (imported : importer.type.importInto part.type = .ok entry)

/-- A package is no file. -/
theorem specifiedFile?_package (file : Path) : specifiedFile? file "class-transformer" = none := by
  rw [specifiedFile?, if_neg (by decide)]

/-- The network client is imported from beside the service. -/
theorem specifiedFile?_client {service : TypeName} {name : String} (plain : service.IsPlain)
    (single : service.names = [name]) :
    specifiedFile? service.moduleFile ("./" ++ Service.clientType) =
      some (Service.clientFile service) := by
  have pieces : (("./" ++ Service.clientType).toList.splitOn '/').map String.ofList =
      [".", Service.clientType] := by decide
  have slashless := plain.slashless
  rw [specifiedFile?, pieces, if_pos (.inl rfl), TypeName.moduleFile_eq slashless single,
    TypeName.moduleSteps, Path.directory_through
      (TypeName.moduleSteps_isStep slashless (slashless.name_noSlash single)), walk?, if_pos rfl,
    walk?, if_neg (by decide), if_neg (by decide), walk?, Option.map_some,
    TypeName.intercalate_concat_append, TypeName.clientFile_eq slashless]
  rfl

namespace WellFormed

variable {roots : List Declaration} (wellFormed : WellFormed roots)
  {importer home part other : Declaration} {entry : Import}

include wellFormed

/-- A nested type is imported from where the top-level type around it is. -/
theorem moduleSpecifier_eq (member : home ∈ roots) (inside : part ∈ home.flatten)
    (source : TypeName) :
    TypeName.moduleSpecifier source part.type = TypeName.moduleSpecifier source home.type := by
  obtain ⟨name, single⟩ := wellFormed.single_name member
  rcases wellFormed.eq_or_encloses member inside with rfl | ⟨⟨package, ⟨inner, names⟩, -⟩, -⟩
  · rfl
  · rw [single, List.singleton_append] at names
    rw [TypeName.moduleSpecifier_eq single, TypeName.moduleSpecifier_eq names.symm, package]

/-- The import of a type leads to the type's module. -/
theorem specifiedFile?_importInto (importing : importer ∈ roots) (member : home ∈ roots)
    (inside : part ∈ home.flatten) (imported : importer.type.importInto part.type = .ok entry) :
    specifiedFile? importer.type.moduleFile entry.source = some home.type.moduleFile := by
  obtain ⟨-, -, specified, -⟩ := TypeName.importInto_eq_ok imported
  have importerSlashless :=
    (wellFormed.type_isPlain (Declaration.mem_flattenAll_of_mem importing)).slashless
  have slashless := (wellFormed.type_isPlain (Declaration.mem_flattenAll_of_mem member)).slashless
  obtain ⟨importerName, importerSingle⟩ := wellFormed.single_name importing
  obtain ⟨name, single⟩ := wellFormed.single_name member
  rw [wellFormed.moduleSpecifier_eq member inside, TypeName.moduleSpecifier_eq single,
    Except.ok.injEq] at specified
  rw [← specified, TypeName.moduleFile_eq importerSlashless importerSingle,
    TypeName.moduleFile_eq slashless single]
  exact TypeName.specifiedFile?_eq importerSlashless
    (importerSlashless.name_noSlash importerSingle) slashless single

theorem brings_importInto (importing : importer ∈ roots) (member : home ∈ roots)
    (inside : part ∈ home.flatten) (imported : importer.type.importInto part.type = .ok entry) :
    Brings importer.type.moduleFile part.type entry := by
  obtain ⟨name, named, -, binding⟩ := TypeName.importInto_eq_ok imported
  refine ⟨?_, name, named, ?_⟩
  · rw [wellFormed.moduleFile_eq_root member inside]
    exact wellFormed.specifiedFile?_importInto importing member inside imported
  · split at binding
    next isRoot =>
      rw [if_pos isRoot]
      exact binding.1
    next isNested =>
      rw [if_neg isNested, binding.2]
      exact List.mem_singleton_self name

/-- Of the types in one module, an import takes in only those that are bound like its own. -/
theorem eq_of_importInto (member : home ∈ roots) (inside : part ∈ home.flatten)
    (otherInside : other ∈ home.flatten) {expected : Import} {source : TypeName}
    (imported : source.importInto part.type = .ok expected)
    (otherImported : source.importInto other.type = .ok entry) {name : String}
    (named : part.type.className = .ok name)
    (bound : if part.type.isRoot then entry.defaultName = some name else name ∈ entry.named) :
    entry = expected := by
  obtain ⟨called, isCalled, specified, binding⟩ := TypeName.importInto_eq_ok imported
  obtain ⟨otherName, -, otherSpecified, otherBinding⟩ := TypeName.importInto_eq_ok otherImported
  obtain rfl : called = name := Except.ok.inj (isCalled.symm.trans named)
  have sameSource : entry.source = expected.source := by
    rw [wellFormed.moduleSpecifier_eq member inside] at specified
    rw [wellFormed.moduleSpecifier_eq member otherInside, specified] at otherSpecified
    exact (Except.ok.inj otherSpecified).symm
  have sameBinding : entry.defaultName = expected.defaultName ∧ entry.named = expected.named := by
    by_cases isRoot : part.type.isRoot = true
    · rw [if_pos isRoot] at bound binding
      split at otherBinding
      · exact ⟨bound.trans binding.1.symm, otherBinding.2.trans binding.2.symm⟩
      · rw [otherBinding.1] at bound
        cases bound
    · rw [if_neg isRoot] at bound binding
      split at otherBinding
      · rw [otherBinding.2] at bound
        exact absurd bound List.not_mem_nil
      · rw [otherBinding.2, List.mem_singleton] at bound
        exact ⟨otherBinding.1.trans binding.1.symm, by rw [otherBinding.2, binding.2, bound]⟩
  cases entry
  cases expected
  simp_all only

/-- Only the import of a type brings the type in. -/
theorem eq_of_brings (clientNameFree : ClientNameFree roots) (importing : importer ∈ roots)
    (member : home ∈ roots) (inside : part ∈ home.flatten) {expected : Import}
    (imported : importer.type.importInto part.type = .ok expected)
    (origin : Origin roots importer entry)
    (brings : Brings importer.type.moduleFile part.type entry) : entry = expected := by
  obtain ⟨leads, name, named, bound⟩ := brings
  rw [wellFormed.moduleFile_eq_root member inside] at leads
  cases origin with
  | package source =>
    rw [source, specifiedFile?_package] at leads
    cases leads
  | client service isImporter isClient =>
    subst isImporter isClient
    have plain : service.type.IsPlain :=
      wellFormed.type_isPlain (Declaration.mem_flattenAll_of_mem importing)
    obtain ⟨serviceName, single⟩ := wellFormed.single_name importing
    have isModule : Service.clientFile service.type = home.type.moduleFile :=
      Option.some.inj ((specifiedFile?_client plain single).symm.trans leads)
    have apart := wellFormed.same_clientFile_eq_false clientNameFree importing member
    rw [isModule, Path.same_refl] at apart
    cases apart
  | type otherHome otherPart otherMember data different otherInside otherImported =>
    have otherLeads :=
      wellFormed.specifiedFile?_importInto importing otherMember otherInside otherImported
    have sameFile : otherHome.type.moduleFile = home.type.moduleFile :=
      Option.some.inj (otherLeads.symm.trans leads)
    obtain rfl : otherHome = home :=
      (wellFormed.same_moduleFile_iff otherMember member).mp (by rw [sameFile, Path.same_refl])
    exact wellFormed.eq_of_importInto member inside otherInside imported otherImported named bound

/-- Exactly one import brings a declared type in, provided that its import is there. -/
theorem existsUnique_brings (clientNameFree : ClientNameFree roots) (importing : importer ∈ roots)
    (member : home ∈ roots) (inside : part ∈ home.flatten) {entries : List Import}
    (origins : ∀ entry ∈ entries, Origin roots importer entry)
    (needed : part.type.needsImport = true)
    (listed : ∀ entry, importer.type.importInto part.type = .ok entry → entry ∈ entries) :
    ∃! entry, entry ∈ entries.eraseDups ∧ Brings importer.type.moduleFile part.type entry := by
  have named := wellFormed.className_eq (Declaration.mem_flattenAll.mpr ⟨home, member, inside⟩)
  obtain ⟨entry, imported⟩ : ∃ entry, importer.type.importInto part.type = .ok entry :=
    TypeName.exists_importInto needed ⟨_, named⟩
  refine ⟨entry, ⟨List.mem_eraseDups.mpr (listed entry imported),
    wellFormed.brings_importInto importing member inside imported⟩, ?_⟩
  rintro other ⟨otherListed, brings⟩
  exact wellFormed.eq_of_brings clientNameFree importing member inside imported
    (origins other (List.mem_eraseDups.mp otherListed)) brings

/-- In a closed schema every field that needs an import is of a type with a module. -/
theorem exists_home_of_field (closed : Closed roots)
    (noServiceFields : ∀ part ∈ Declaration.flattenAll roots, ∀ field ∈ part.ownFields,
      ∀ root ∈ roots, root.isService = true → field.type ≠ root.type)
    (declared : part ∈ Declaration.flattenAll roots) {field : Field}
    (listed : field ∈ part.ownFields) (notNative : field.type.isNative = false) :
    ∃ home ∈ roots, home.isService = false ∧ ∃ target ∈ home.flatten, target.type = field.type := by
  have notScalar : field.type.isScalar = false := (Bool.or_eq_false_iff.mp notNative).1
  rcases closed part declared field listed notScalar with isTimestamp | ⟨target, known, same⟩
  · rw [isTimestamp] at notNative
    exact absurd notNative (by decide)
  · have data : target.isService = false := by
      rw [← Bool.not_eq_true]
      intro isService
      obtain ⟨service, rfl⟩ := Declaration.isService_iff.mp isService
      obtain ⟨home, member, inside⟩ := Declaration.mem_flattenAll.mp known
      obtain rfl := wellFormed.eq_of_service_mem member inside
      exact noServiceFields part declared field listed _ member rfl same.symm
    obtain ⟨home, member, homeData, inside⟩ := Declaration.exists_home known data
    exact ⟨home, member, homeData, target, inside, same⟩

/-- What procedures exchange is the timestamp or a record with a module. -/
theorem exists_home_of_carries {type : TypeName} (carried : (knowing roots).Carries type)
    (notNative : type.isNative = false) :
    ∃ home ∈ roots, home.isService = false ∧ ∃ target ∈ home.flatten, target.type = type := by
  rcases (Generable.carries_iff wellFormed type).mp carried with
    rfl | ⟨target, known, isRecord, same⟩
  · exact absurd notNative (by decide)
  · have data : target.isService = false := by
      cases target with
      | record head nested => rfl
      | enumeration body => rfl
      | service body => cases isRecord
    obtain ⟨home, member, homeData, inside⟩ := Declaration.exists_home known data
    exact ⟨home, member, homeData, target, inside, same⟩

end WellFormed

namespace Declaration

variable {roots : List Declaration} {root : Declaration} {imports : List Import}
  (wellFormed : WellFormed roots) (closed : Closed roots)
  (noServiceFields : ∀ part ∈ flattenAll roots, ∀ field ∈ part.ownFields,
    ∀ root ∈ roots, root.isService = true → field.type ≠ root.type)
  (member : root ∈ roots) (done : root.imports = .ok imports)

include wellFormed closed noServiceFields member done

/-- A type's module imports from the runtime's package and from other modules. -/
theorem origin_of_mem_imports : ∀ entry ∈ imports, Origin roots root entry := by
  intro entry listed
  rcases (mem_imports_iff done).mp listed with
    ⟨-, rfl⟩ | ⟨type, referenced, ⟨needed, different⟩, made⟩
  · exact .package rfl
  · rw [referencedTypes_eq, List.mem_flatMap] at referenced
    obtain ⟨part, inside, referenced⟩ := referenced
    obtain ⟨-, field, listed, rfl⟩ := mem_ownReferences.mp referenced
    have declared := mem_flattenAll.mpr ⟨root, member, inside⟩
    obtain ⟨home, homeMember, data, target, targetInside, same⟩ :=
      wellFormed.exists_home_of_field closed noServiceFields declared listed
        (TypeName.needsImport_iff.mp needed).2
    refine .type home target homeMember data ?_ targetInside (same ▸ made)
    rintro rfl
    apply different
    rw [← same, wellFormed.root_eq member targetInside,
      wellFormed.root_eq member home.self_mem_flatten]

/-- The type of a field is imported if it needs to be and another module declares it. -/
theorem existsUnique_import_of_field (clientNameFree : ClientNameFree roots) {part : Declaration}
    {field : Field} (inside : part ∈ root.flatten) (listed : field ∈ part.ownFields)
    (notNative : field.type.isNative = false) (notWellKnown : field.type.isWellKnown = false)
    (elsewhere : field.type.moduleFile ≠ root.type.moduleFile) :
    ∃! entry, entry ∈ imports.eraseDups ∧ Brings root.type.moduleFile field.type entry := by
  have declared := mem_flattenAll.mpr ⟨root, member, inside⟩
  obtain ⟨home, homeMember, -, target, targetInside, same⟩ :=
    wellFormed.exists_home_of_field closed noServiceFields declared listed notNative
  have different : field.type.root ≠ root.type.root := by
    rw [← same, wellFormed.root_eq homeMember targetInside,
      wellFormed.root_eq member root.self_mem_flatten]
    intro sameRoot
    apply elsewhere
    rw [← same, wellFormed.moduleFile_eq_root homeMember targetInside, sameRoot]
  have referenced : field.type ∈ root.referencedTypes := by
    rw [referencedTypes_eq, List.mem_flatMap]
    have notScalar : field.type.isScalar = false := (Bool.or_eq_false_iff.mp notNative).1
    exact ⟨part, inside, mem_ownReferences.mpr ⟨notScalar, field, listed, rfl⟩⟩
  have needed := TypeName.needsImport_iff.mpr ⟨notWellKnown, notNative⟩
  rw [← same] at referenced different needed ⊢
  refine wellFormed.existsUnique_brings clientNameFree member homeMember targetInside
    (origin_of_mem_imports wellFormed closed noServiceFields member done) needed ?_
  intro entry made
  exact (mem_imports_iff done).mpr (.inr ⟨_, referenced, ⟨needed, different⟩, made⟩)

end Declaration

namespace Service

variable {roots : List Declaration} {service : Service} {item : Module}
  (wellFormed : WellFormed roots) (member : .service service ∈ roots)
  (done : (knowing roots).serviceModule service = .ok item)

include wellFormed done in
/-- A service's module imports the network client, from the runtime's package and from the modules
of types. -/
theorem origin_of_mem_imports : ∀ entry ∈ item.imports, Origin roots (.service service) entry := by
  obtain ⟨rpcs, resolves, rest⟩ := bind_eq_ok.mp done
  obtain ⟨imports, imported, rest⟩ := bind_eq_ok.mp rest
  obtain rfl := pure_eq_ok.mp rest
  intro entry listed
  rcases (mem_imports_iff imported).mp listed with
    isClient | ⟨-, rfl⟩ | ⟨resolved, given, type, mentioned, needed, made⟩
  · exact .client service rfl isClient
  · exact .package rfl
  · obtain ⟨rpc, -, resolution⟩ := exists_of_mem_mapM resolves given
    have carried := KnownTypes.carries_of_mem_mentioned resolution mentioned
    obtain ⟨home, homeMember, data, target, inside, same⟩ :=
      wellFormed.exists_home_of_carries carried (TypeName.needsImport_iff.mp needed).2
    refine .type home target homeMember data ?_ inside (same ▸ made)
    rintro rfl
    exact absurd data (by simp [Declaration.isService])

include wellFormed member done in
/-- What a procedure exchanges is imported if it needs to be. -/
theorem existsUnique_import_of_exchanges (clientNameFree : ClientNameFree roots) {rpc : Rpc}
    (listed : rpc ∈ service.rpcs) {type : TypeName} (exchanged : Exchanges roots rpc type)
    (notNative : type.isNative = false) (notWellKnown : type.isWellKnown = false) :
    ∃! entry, entry ∈ item.imports.eraseDups ∧ Brings service.type.moduleFile type entry := by
  have origins := origin_of_mem_imports wellFormed done
  obtain ⟨rpcs, resolves, rest⟩ := bind_eq_ok.mp done
  obtain ⟨imports, imported, rest⟩ := bind_eq_ok.mp rest
  obtain rfl := pure_eq_ok.mp rest
  obtain ⟨resolved, given, resolution⟩ := exists_mem_of_mapM resolves listed
  have mentioned : type ∈ resolved.mentioned := by
    obtain ⟨isRequest, isResponse⟩ := KnownTypes.types_of_resolveRpc resolution
    rw [ResolvedRpc.mem_mentioned, isRequest, isResponse]
    rcases exchanged with received | ⟨sent, head, nested, declared, isHead, filled⟩
    · exact .inr received
    · obtain ⟨-, ⟨others, found⟩, -⟩ := KnownTypes.resolveRpc_eq_ok.mp resolution
      have again := wellFormed.find?_knowing declared
      rw [Declaration.type, isHead, sent, found, Option.some.injEq, Declaration.record.injEq]
        at again
      exact .inl ⟨sent, again.1 ▸ filled⟩
  have carried := KnownTypes.carries_of_mem_mentioned resolution mentioned
  have needed := TypeName.needsImport_iff.mpr ⟨notWellKnown, notNative⟩
  obtain ⟨home, homeMember, -, target, inside, same⟩ :=
    wellFormed.exists_home_of_carries carried notNative
  rw [← same] at mentioned needed ⊢
  refine wellFormed.existsUnique_brings clientNameFree member homeMember inside origins needed ?_
  intro entry made
  exact (mem_imports_iff imported).mpr
    (.inr (.inr ⟨resolved, given, target.type, mentioned, needed, made⟩))

end Service

namespace Session

/-- A type's file starts with the imports of the type's module, whatever was patched since. -/
theorem UpToDate.starts {roots : List Declaration} {store : MemoryStore} {root : Declaration}
    {known : KnownTypes} {item : Module} (upToDate : UpToDate roots store root)
    (wellFormed : WellFormed roots) (member : root ∈ roots)
    (written : known.typeModule root = .ok item) :
    ∃ text, store.get? root.type.moduleFile = some text ∧ item.importChars <+: text.toList := by
  obtain ⟨earlier, first, replacements, -, firstWritten, content, -, -⟩ := upToDate
  obtain ⟨declarations, -, rest⟩ := bind_eq_ok.mp written
  obtain ⟨imports, imported, rest⟩ := bind_eq_ok.mp rest
  obtain rfl := pure_eq_ok.mp rest
  obtain ⟨firstDeclarations, -, rest⟩ := bind_eq_ok.mp firstWritten
  obtain ⟨firstImports, firstImported, rest⟩ := bind_eq_ok.mp rest
  obtain rfl := pure_eq_ok.mp rest
  -- What is imported does not depend on what is known.
  obtain rfl : firstImports = imports := Except.ok.inj (firstImported.symm.trans imported)
  have unmarked := Declaration.unmarked_imports imported fun type =>
    wellFormed.bracelessTypes.of_mem_referencedTypes member
  have leads := Module.importChars_isPrefix
    { imports := firstImports, declarations := firstDeclarations }
  have settled : Settled (Module.importChars { imports := firstImports, declarations }) :=
    .flatMap fun line listed => .line (Module.unmarked_importLines unmarked line listed)
  exact ⟨_, content, settled.isPrefix_apply _ leads⟩

section

variable {files : List SchemaFile} {session : Session MemoryStore}
  (wellFormed : WellFormed (rootsOf files)) (clientNameFree : ClientNameFree (rootsOf files))
  (ran : processFiles { store := ({} : MemoryStore) } files = (.ok (), session))

include wellFormed clientNameFree ran

/-- An import leads to another file, and that file exports what the import takes in. -/
theorem exists_exports {importer : Declaration} {entry : Import}
    (importing : importer ∈ rootsOf files) (origin : Origin (rootsOf files) importer entry)
    (notPackage : entry.source ≠ "class-transformer") :
    ∃ path text, specifiedFile? importer.type.moduleFile entry.source = some path ∧
      path.same importer.type.moduleFile = false ∧ session.store.get? path = some text ∧
        (∀ name ∈ entry.defaultName, Exports text true name) ∧
          ∀ name ∈ entry.named, Exports text false name := by
  have contents := ((processFiles_meets wellFormed).of_ok ran).2.2 clientNameFree
  cases origin with
  | package source => exact absurd source notPackage
  | client service isImporter isClient =>
    subst isImporter isClient
    have plain : service.type.IsPlain :=
      wellFormed.type_isPlain (Declaration.mem_flattenAll_of_mem importing)
    obtain ⟨name, single⟩ := wellFormed.single_name importing
    refine ⟨Service.clientFile service.type, _, specifiedFile?_client plain single,
      wellFormed.same_clientFile_eq_false clientNameFree importing importing,
      contents.clients service (List.mem_append_left _ importing), ?_, ?_⟩
    · rintro _ ⟨⟩
      exact Service.exports_clientModule
    · exact fun _ member => absurd member List.not_mem_nil
  | type home part member data different inside imported =>
    obtain ⟨name, named, -, binding⟩ := TypeName.importInto_eq_ok imported
    obtain ⟨text, content, exported⟩ :=
      (contents.oldTypes home member data).exports wellFormed member inside named
    have apart : home.type.moduleFile.same importer.type.moduleFile = false := by
      rw [← Bool.not_eq_true, wellFormed.same_moduleFile_iff member importing]
      exact different
    refine ⟨_, text, wellFormed.specifiedFile?_importInto importing member inside imported, apart,
      content, ?_⟩
    split at binding
    next isRoot =>
      rw [isRoot] at exported
      rw [binding.1, binding.2]
      exact ⟨by rintro _ ⟨⟩; exact exported, fun _ listed => absurd listed List.not_mem_nil⟩
    next isNested =>
      rw [Bool.not_eq_true] at isNested
      rw [isNested] at exported
      rw [binding.1, binding.2]
      exact ⟨by rintro _ ⟨⟩, List.forall_mem_singleton.mpr exported⟩

theorem soundImports {importer : Declaration} {item : Module} (importing : importer ∈ rootsOf files)
    (written : ∃ text, session.store.get? importer.type.moduleFile = some text ∧
      item.importChars <+: text.toList)
    (origins : ∀ entry ∈ item.imports, Origin (rootsOf files) importer entry) :
    SoundImports session.store importer.type.moduleFile item where
  written := written
  distinct := nodup_eraseDups _
  found entry listed notPackage := exists_exports wellFormed clientNameFree ran importing
    (origins entry (List.mem_eraseDups.mp listed)) notPackage

end

end Session

end Typescribe
