import Typescribe.Proofs.Generation.Location
import Typescribe.Proofs.Generation.Steps

/-!
# The progress of a run

What a run has come to is stated in two parts. `Tracks` is about its tables and its files: which
types are known, which modules were generated, and which references wait for their types.
`Contents` is about the texts of the generated files. Both hold while the declarations of a file
are generated, with the roots of earlier files kept apart from those of the present one, and each
step carries them on.
-/

namespace Typescribe.Session

open KnownTypes (knowing)

variable {old fresh all roots : List Declaration} {session after : Session MemoryStore}
  {store : MemoryStore} {outputs : List Path} {root : Declaration} {service : Service}
  {item : TypeScript.Module}

/-- The files of a store are the modules of the given declarations, with the network clients of
the services among them, and they are noted in the order in which they were written. -/
structure Files (roots : List Declaration) (outputs : List Path) (store : MemoryStore) : Prop where
  held : ∀ root ∈ roots, (store.get? root.type.moduleFile).isSome = true
  noted : outputs = store.paths
  origins : ∀ path ∈ store.paths, (∃ root ∈ roots, path = root.type.moduleFile) ∨
    ∃ service, .service service ∈ roots ∧ path = Service.clientFile service.type

namespace Files

theorem put_module (files : Files roots outputs store) (root : Declaration) (text : String) :
    Files (roots ++ [root]) (Path.enter root.type.moduleFile outputs)
      (store.put root.type.moduleFile text) where
  held other member := by
    rw [MemoryStore.get?_put]
    split
    · rfl
    next different =>
      rcases List.mem_append.mp member with member | isRoot
      · exact files.held other member
      · rw [List.mem_singleton.mp isRoot] at different
        exact absurd (Path.same_refl _) different
  noted := by rw [MemoryStore.paths_put, files.noted]
  origins path member := by
    rw [MemoryStore.paths_put] at member
    rcases Path.mem_of_mem_enter member with isNew | member
    · exact .inl ⟨root, List.mem_append_right _ (List.mem_singleton_self root), isNew⟩
    · rcases files.origins path member with ⟨other, listed, same⟩ | ⟨service, listed, same⟩
      · exact .inl ⟨other, List.mem_append_left _ listed, same⟩
      · exact .inr ⟨service, List.mem_append_left _ listed, same⟩

theorem put_client (files : Files roots outputs store) (listed : .service service ∈ roots)
    (text : String) :
    Files roots (Path.enter (Service.clientFile service.type) outputs)
      (store.put (Service.clientFile service.type) text) where
  held other member := MemoryStore.isSome_get?_put (files.held other member) _ _
  noted := by rw [MemoryStore.paths_put, files.noted]
  origins path member := by
    rw [MemoryStore.paths_put] at member
    rcases Path.mem_of_mem_enter member with isNew | member
    · exact .inr ⟨service, listed, isNew⟩
    · exact files.origins path member

end Files

/-- The state of a session that knows all the given declarations and has generated the modules of
the old and the fresh ones among them. -/
structure Tracks (old fresh all : List Declaration) (session : Session MemoryStore) : Prop where
  known : session.known = knowing all
  /-- The module of a generated type is known to the references. -/
  modules : ∀ root ∈ old ++ fresh, root.isService = false →
    session.references.modules.lookup root.type = some root.type.moduleFile
  /-- Recorded references are references of fields. -/
  recorded : ∀ declaring referenced, session.references.Records declaring referenced →
    ∃ root ∈ old ++ fresh, root.isService = false ∧
      ∃ part ∈ root.flatten, part.type = declaring ∧ referenced ∈ part.ownReferences
  /-- A reference that was unresolved when the earlier files were done is recorded. -/
  awaitedByOld : ∀ root ∈ old, ∀ part ∈ root.flatten, ∀ type ∈ part.ownReferences,
    (knowing old).contains type = false → session.references.Records part.type type
  /-- A reference of the present file that is unresolved is recorded. -/
  awaitedByFresh : ∀ root ∈ fresh, ∀ part ∈ root.flatten, ∀ type ∈ part.ownReferences,
    (knowing all).contains type = false → session.references.Records part.type type
  files : Files (old ++ fresh) (session.outputs.map Prod.fst) session.store

/-- A type's file holds its module as it was first written, with replacements made since for all
types that became known. -/
inductive UpToDate (roots : List Declaration) (store : MemoryStore) (root : Declaration) :
    Prop where
  | intro (earlier : List Declaration) (item : TypeScript.Module)
      (replacements : List (TypeName × String)) (isPrefix : earlier <+: roots)
      (written : (knowing earlier).typeModule root = .ok item)
      (content : store.get? root.type.moduleFile =
        some (Patch.apply ⟨root.type.moduleFile, replacements⟩ item.render))
      (entries : ∀ entry ∈ replacements, entry.1 ∈ root.referencedTypes ∧
        ∃ declaration ∈ Declaration.flattenAll roots,
          Placeholder.replacement declaration = .ok entry.2 ∧ declaration.type = entry.1)
      (caughtUp : ∀ type ∈ root.referencedTypes, (knowing roots).contains type = true →
        (knowing earlier).contains type = true ∨ type ∈ replacements.map Prod.fst)

/-- The texts of the generated files. -/
structure Contents (old fresh all : List Declaration) (store : MemoryStore) : Prop where
  oldTypes : ∀ root ∈ old, root.isService = false → UpToDate old store root
  freshTypes : ∀ root ∈ fresh, root.isService = false →
    ∃ item, (knowing all).typeModule root = .ok item ∧
      store.get? root.type.moduleFile = some item.render
  services : ∀ service, .service service ∈ old ++ fresh →
    ∃ item, (knowing all).serviceModule service = .ok item ∧
      store.get? service.type.moduleFile = some item.render
  clients : ∀ service, .service service ∈ old ++ fresh →
    store.get? (Service.clientFile service.type) = some Service.clientModule.render

theorem UpToDate.congr {other : MemoryStore} (upToDate : UpToDate roots store root)
    (same : other.get? root.type.moduleFile = store.get? root.type.moduleFile) :
    UpToDate roots other root := by
  obtain ⟨earlier, item, replacements, isPrefix, written, content, entries, caughtUp⟩ := upToDate
  exact ⟨earlier, item, replacements, isPrefix, written, same.trans content, entries, caughtUp⟩

/-- Generating a type's module records its references to unknown types. -/
theorem records_emitType {known : KnownTypes} (references : References)
    (written : known.typeModule root = .ok item) (path : Path) (declaring referenced : TypeName) :
    ((references.insertAll (known.placeholdersOf root.flatten)).setModule root.type path).Records
        declaring referenced ↔
      (∃ part ∈ root.flatten, part.type = declaring ∧ referenced ∈ part.ownReferences ∧
        known.contains referenced = false) ∨ references.Records declaring referenced := by
  have left := KnownTypes.placeholdersOf_eq fun part inside =>
    KnownTypes.exists_declarationFragments_iff.mpr
      (KnownTypes.exists_typeModule_iff.mp ⟨item, written⟩ part inside)
  change (references.insertAll (known.placeholdersOf root.flatten)).Records _ _ ↔ _
  rw [References.records_insertAll, left]
  simp only [List.mem_flatMap, List.mem_map, List.mem_filter, Bool.not_eq_true', Prod.mk.injEq]
  refine or_congr_left (exists_congr fun part => and_congr_right fun _ => ?_)
  constructor
  · rintro ⟨type, ⟨listed, unknown⟩, same, rfl⟩
    exact ⟨same, listed, unknown⟩
  · rintro ⟨same, listed, unknown⟩
    exact ⟨referenced, ⟨listed, unknown⟩, same, rfl⟩

/-- Generating a type's module keeps the state in order. -/
theorem Tracks.emitType (tracks : Tracks old fresh all session) (data : root.isService = false)
    (written : session.known.typeModule root = .ok item) (sameKnown : after.known = session.known)
    (references : after.references =
      (session.references.insertAll (session.known.placeholdersOf root.flatten)).setModule
        root.type root.type.moduleFile)
    (stored : after.store = session.store.put root.type.moduleFile item.render)
    (noted : after.outputs.map Prod.fst =
      Path.enter root.type.moduleFile (session.outputs.map Prod.fst)) :
    Tracks old (fresh ++ [root]) all after := by
  have records := records_emitType session.references written root.type.moduleFile
  rw [← references] at records
  have here : root ∈ (old ++ fresh) ++ [root] := by simp
  constructor
  case known => exact sameKnown.trans tracks.known
  case modules =>
    intro other member isData
    rw [references, References.setModule, References.modules_insertAll, List.lookup_cons]
    by_cases same : other.type = root.type
    · rw [same]
      simp
    · rw [beq_false_of_ne same]
      rw [← List.append_assoc, List.mem_append, List.mem_singleton] at member
      rcases member with member | rfl
      · exact tracks.modules other member isData
      · exact absurd rfl same
  case recorded =>
    intro declaring referenced recorded
    rw [← List.append_assoc]
    rcases (records _ _).mp recorded with ⟨part, inside, same, listed, -⟩ | earlier
    · exact ⟨root, here, data, part, inside, same, listed⟩
    · obtain ⟨other, member, rest⟩ := tracks.recorded declaring referenced earlier
      exact ⟨other, List.mem_append_left _ member, rest⟩
  case awaitedByOld =>
    intro other member part inside type listed unknown
    exact (records _ _).mpr
      (.inr (tracks.awaitedByOld other member part inside type listed unknown))
  case awaitedByFresh =>
    intro other member part inside type listed unknown
    rcases List.mem_append.mp member with member | isRoot
    · exact (records _ _).mpr
        (.inr (tracks.awaitedByFresh other member part inside type listed unknown))
    · rw [List.mem_singleton.mp isRoot] at inside
      rw [← tracks.known] at unknown
      exact (records _ _).mpr (.inl ⟨part, inside, rfl, listed, unknown⟩)
  case files =>
    rw [noted, stored, ← List.append_assoc]
    exact tracks.files.put_module root item.render

/-- Generating a service's module keeps the state in order. -/
theorem Tracks.emitService (tracks : Tracks old fresh all session)
    (sameKnown : after.known = session.known) (references : after.references = session.references)
    (stored : after.store = (session.store.put service.type.moduleFile item.render).put
      (Service.clientFile service.type) Service.clientModule.render)
    (noted : after.outputs.map Prod.fst =
      Path.enter (Service.clientFile service.type)
        (Path.enter service.type.moduleFile (session.outputs.map Prod.fst))) :
    Tracks old (fresh ++ [.service service]) all after := by
  constructor
  case known => exact sameKnown.trans tracks.known
  case modules =>
    intro other member isData
    rw [← List.append_assoc, List.mem_append, List.mem_singleton] at member
    rw [references]
    rcases member with member | rfl
    · exact tracks.modules other member isData
    · exact absurd isData (by simp [Declaration.isService])
  case recorded =>
    intro declaring referenced recorded
    rw [references] at recorded
    obtain ⟨other, member, rest⟩ := tracks.recorded declaring referenced recorded
    exact ⟨other, List.append_assoc .. ▸ List.mem_append_left _ member, rest⟩
  case awaitedByOld => exact references ▸ tracks.awaitedByOld
  case awaitedByFresh =>
    intro other member part inside type listed unknown
    rw [references]
    rcases List.mem_append.mp member with member | isService
    · exact tracks.awaitedByFresh other member part inside type listed unknown
    · -- A service has no fields.
      rw [List.mem_singleton.mp isService, Declaration.flatten, List.mem_singleton] at inside
      rw [inside] at listed
      exact absurd listed List.not_mem_nil
  case files =>
    rw [noted, stored, ← List.append_assoc]
    exact (tracks.files.put_module (.service service) item.render).put_client (by simp) _

section

variable (wellFormed : WellFormed all) (store : MemoryStore) (text : String)
include wellFormed

/-- Writing the module of one root leaves the modules of all others. -/
theorem get?_put_module {other : Declaration} (member : root ∈ all) (otherMember : other ∈ all)
    (different : root ≠ other) :
    (store.put root.type.moduleFile text).get? other.type.moduleFile =
      store.get? other.type.moduleFile := by
  rw [MemoryStore.get?_put, if_neg]
  rwa [wellFormed.same_moduleFile_iff member otherMember]

/-- Writing the module of a root leaves every network client. -/
theorem get?_client_put_module (clientNameFree : ClientNameFree all) (member : root ∈ all)
    (listed : .service service ∈ all) :
    (store.put root.type.moduleFile text).get? (Service.clientFile service.type) =
      store.get? (Service.clientFile service.type) := by
  rw [MemoryStore.get?_put, Path.same_comm,
    wellFormed.same_clientFile_eq_false clientNameFree listed member]
  rfl

/-- Writing a network client leaves the modules of all roots. -/
theorem get?_put_client (clientNameFree : ClientNameFree all) (member : root ∈ all)
    (listed : .service service ∈ all) :
    (store.put (Service.clientFile service.type) text).get? root.type.moduleFile =
      store.get? root.type.moduleFile := by
  rw [MemoryStore.get?_put, wellFormed.same_clientFile_eq_false clientNameFree listed member]
  rfl

end

/-- Generating a type's module leaves the texts of all other files. -/
theorem Contents.emitType (contents : Contents old fresh all store) (wellFormed : WellFormed all)
    (clientNameFree : ClientNameFree all) (parts : ∀ other ∈ old ++ fresh, other ∈ all)
    (member : root ∈ all) (data : root.isService = false) (isNew : root ∉ old)
    (written : (knowing all).typeModule root = .ok item) :
    Contents old (fresh ++ [root]) all (store.put root.type.moduleFile item.render) := by
  have fromParts : ∀ {other}, other ∈ old ++ (fresh ++ [root]) → other.isService = true →
      other ∈ old ++ fresh ∧ root ≠ other := by
    intro other listed isService
    rw [← List.append_assoc, List.mem_append, List.mem_singleton] at listed
    have different : root ≠ other := by
      rintro rfl
      rw [data] at isService
      exact Bool.false_ne_true isService
    exact ⟨listed.resolve_right fun same => different same.symm, different⟩
  constructor
  case oldTypes =>
    intro other listed isData
    refine (contents.oldTypes other listed isData).congr ?_
    apply get?_put_module wellFormed _ _ member (parts other (List.mem_append_left _ listed))
    rintro rfl
    exact isNew listed
  case freshTypes =>
    intro other listed isData
    by_cases same : root = other
    · subst same
      exact ⟨item, written, MemoryStore.get?_put_self ..⟩
    · rw [List.mem_append, List.mem_singleton] at listed
      have earlier := listed.resolve_right fun equal => same equal.symm
      have otherMember := parts other (List.mem_append_right _ earlier)
      rw [get?_put_module wellFormed _ _ member otherMember same]
      exact contents.freshTypes other earlier isData
  case services =>
    intro service listed
    obtain ⟨earlier, different⟩ := fromParts listed rfl
    obtain ⟨other, otherWritten, content⟩ := contents.services service earlier
    have unchanged :=
      get?_put_module wellFormed store item.render member (parts _ earlier) different
    exact ⟨other, otherWritten, unchanged.trans content⟩
  case clients =>
    intro service listed
    obtain ⟨earlier, -⟩ := fromParts listed rfl
    rw [get?_client_put_module wellFormed _ _ clientNameFree member (parts _ earlier)]
    exact contents.clients service earlier

/-- Generating a service's module leaves the texts of all other files but its client's. -/
theorem Contents.emitService (contents : Contents old fresh all store)
    (wellFormed : WellFormed all) (clientNameFree : ClientNameFree all)
    (parts : ∀ other ∈ old ++ fresh, other ∈ all) (member : .service service ∈ all)
    (written : (knowing all).serviceModule service = .ok item) :
    Contents old (fresh ++ [.service service]) all
      ((store.put service.type.moduleFile item.render).put (Service.clientFile service.type)
        Service.clientModule.render) := by
  have unchanged : ∀ {other : Declaration}, other ∈ all → .service service ≠ other →
      ((store.put service.type.moduleFile item.render).put (Service.clientFile service.type)
        Service.clientModule.render).get? other.type.moduleFile =
          store.get? other.type.moduleFile := by
    intro other otherMember different
    have kept := get?_put_module wellFormed store item.render member otherMember different
    exact (get?_put_client wellFormed _ _ clientNameFree otherMember member).trans kept
  have notData : ∀ {other : Declaration}, other.isService = false → .service service ≠ other := by
    rintro other isData rfl
    exact absurd isData (by simp [Declaration.isService])
  constructor
  case oldTypes =>
    intro other listed isData
    refine (contents.oldTypes other listed isData).congr ?_
    exact unchanged (parts other (List.mem_append_left _ listed)) (notData isData)
  case freshTypes =>
    intro other listed isData
    rw [List.mem_append, List.mem_singleton] at listed
    have earlier := listed.resolve_right fun equal => notData isData equal.symm
    rw [unchanged (parts other (List.mem_append_right _ earlier)) (notData isData)]
    exact contents.freshTypes other earlier isData
  case services =>
    intro other listed
    rw [← List.append_assoc, List.mem_append, List.mem_singleton] at listed
    by_cases same : service = other
    · subst same
      have kept := get?_put_client wellFormed (store.put service.type.moduleFile item.render)
        Service.clientModule.render clientNameFree member member
      exact ⟨item, written, kept.trans (MemoryStore.get?_put_self ..)⟩
    · have different : Declaration.service service ≠ .service other :=
        fun equal => same (Declaration.service.inj equal)
      have earlier := listed.resolve_right fun equal => different equal.symm
      obtain ⟨otherItem, otherWritten, content⟩ := contents.services other earlier
      exact ⟨otherItem, otherWritten, (unchanged (parts _ earlier) different).trans content⟩
  case clients =>
    intro other listed
    rw [← List.append_assoc, List.mem_append, List.mem_singleton] at listed
    rw [MemoryStore.get?_put]
    split
    · rfl
    next different =>
      rcases listed with earlier | isSame
      · have otherMember := parts _ earlier
        have kept := get?_client_put_module wellFormed store item.render clientNameFree member
          otherMember
        exact kept.trans (contents.clients other earlier)
      · rw [Declaration.service.inj isSame] at different
        exact absurd (Path.same_refl _) different

theorem Files.congr (files : Files roots outputs store) {others : List Declaration}
    (same : ∀ root, root ∈ others ↔ root ∈ roots) {stored : MemoryStore}
    (paths : stored.paths = store.paths) : Files others outputs stored where
  held root member := by
    rw [MemoryStore.get?_isSome_iff, paths, ← MemoryStore.get?_isSome_iff]
    exact files.held root ((same root).mp member)
  noted := files.noted.trans paths.symm
  origins path member := by
    simp only [same]
    exact files.origins path (paths ▸ member)

/-- The order in which the fresh declarations were generated plays no part. -/
theorem Tracks.congr {decls : List Declaration} (tracks : Tracks old fresh all session)
    (same : ∀ root, root ∈ decls ↔ root ∈ fresh) : Tracks old decls all session := by
  have sameAll : ∀ root, root ∈ old ++ decls ↔ root ∈ old ++ fresh := by
    simp only [List.mem_append, same, implies_true]
  exact {
    known := tracks.known
    modules := fun root member => tracks.modules root ((sameAll root).mp member)
    recorded := by
      simp only [sameAll]
      exact tracks.recorded
    awaitedByOld := tracks.awaitedByOld
    awaitedByFresh := fun root member => tracks.awaitedByFresh root ((same root).mp member)
    files := tracks.files.congr sameAll rfl }

theorem Contents.congr {decls : List Declaration} (contents : Contents old fresh all store)
    (same : ∀ root, root ∈ decls ↔ root ∈ fresh) : Contents old decls all store := by
  have sameAll : ∀ root, root ∈ old ++ decls ↔ root ∈ old ++ fresh := by
    simp only [List.mem_append, same, implies_true]
  exact {
    oldTypes := contents.oldTypes
    freshTypes := fun root member => contents.freshTypes root ((same root).mp member)
    services := fun service member => contents.services service ((sameAll _).mp member)
    clients := fun service member => contents.clients service ((sameAll _).mp member) }

section

variable {decls : List Declaration} {patches : List Patch}
  (tracks : Tracks old decls (old ++ decls) session) (wellFormed : WellFormed (old ++ decls))
include tracks wellFormed

/-- The module of whatever a generated type holds is that of the type. -/
theorem Tracks.module?_eq (listed : root ∈ old ++ decls) (data : root.isService = false)
    {part : Declaration} (inside : part ∈ root.flatten) :
    session.references.module? part.type = some root.type.moduleFile := by
  rw [References.module?, wellFormed.root_eq listed inside]
  exact tracks.modules root listed data

/-- The declaring type of a recorded reference was generated. -/
theorem Tracks.located {declaring referenced : TypeName}
    (recorded : session.references.Records declaring referenced) :
    ∃ root ∈ old ++ decls, root.isService = false ∧
      session.references.module? declaring = some root.type.moduleFile := by
  obtain ⟨root, listed, data, part, inside, rfl, -⟩ := tracks.recorded _ _ recorded
  exact ⟨root, listed, data, tracks.module?_eq wellFormed listed data inside⟩

/-- Placeholders can be replaced exactly if no earlier field turns out to be of a service. -/
theorem Tracks.exists_plan_iff
    (admitted : ∀ part ∈ Declaration.flattenAll decls, ∀ field ∈ part.ownFields,
      (knowing (old ++ decls)).Admits field.type) :
    (∃ patches, session.references.plan (Declaration.flattenAll decls) = .ok patches) ↔
      ∀ part ∈ Declaration.flattenAll old, ∀ type ∈ part.ownReferences,
        ∀ service, .service service ∈ decls → service.type ≠ type := by
  rw [References.exists_plan_iff]
  constructor
  · rintro resolved part declared type referenced service listed rfl
    have isNew := Declaration.mem_flattenAll_of_mem listed
    have unknown := wellFormed.not_contains_knowing isNew
    obtain ⟨root, member, inside⟩ := Declaration.mem_flattenAll.mp declared
    have recorded := tracks.awaitedByOld root member part inside _ referenced unknown
    obtain ⟨-, text, impossible⟩ := resolved _ _ isNew recorded
    cases impossible
  · intro noService declaring declaration isNew recorded
    have declared : declaration ∈ Declaration.flattenAll (old ++ decls) :=
      Declaration.flattenAll_append .. ▸ List.mem_append_right _ isNew
    obtain ⟨root, listed, data, located⟩ := tracks.located wellFormed recorded
    refine ⟨⟨_, located⟩, (exists_replacement_iff ⟨_, wellFormed.className_eq declared⟩).mpr ?_⟩
    cases declaration with
    | record head nested => rfl
    | enumeration body => rfl
    | service service =>
      obtain ⟨top, isTop, insideTop⟩ := Declaration.mem_flattenAll.mp isNew
      have isRoot := wellFormed.eq_of_service_mem (List.mem_append_right _ isTop) insideTop
      obtain ⟨root, listed, -, part, inside, -, referenced⟩ := tracks.recorded _ _ recorded
      rcases List.mem_append.mp listed with isOld | isFresh
      · have declaredPart := Declaration.mem_flattenAll.mpr ⟨root, isOld, inside⟩
        exact absurd rfl (noService part declaredPart _ referenced service (isRoot ▸ isTop))
      · have declaredPart := Declaration.mem_flattenAll.mpr ⟨root, isFresh, inside⟩
        obtain ⟨notScalar, field, isField, same⟩ := Declaration.mem_ownReferences.mp referenced
        rcases (admitted part declaredPart field isField).2 with scalar | notFound
        · rw [same, notScalar] at scalar
          exact absurd scalar Bool.false_ne_true
        · rw [same] at notFound
          exact absurd (wellFormed.find?_knowing declared) (notFound service)

/-- Patched files are modules of generated types. -/
theorem Tracks.path_of_mem_plan
    (planned : session.references.plan (Declaration.flattenAll decls) = .ok patches)
    {patch : Patch} (member : patch ∈ patches) :
    ∃ root ∈ old ++ decls, root.isService = false ∧ patch.path = root.type.moduleFile := by
  obtain ⟨declaring, referenced, recorded, file⟩ := References.path_of_mem_plan planned member
  obtain ⟨root, listed, data, located⟩ := tracks.located wellFormed recorded
  exact ⟨root, listed, data, Option.some.inj (file.symm.trans located)⟩

/-- What is replaced in a type's file are references to new types. -/
theorem Tracks.of_mem_replacementsAt
    (planned : session.references.plan (Declaration.flattenAll decls) = .ok patches)
    (listed : root ∈ old ++ decls) {entry : TypeName × String}
    (member : entry ∈ Patch.replacementsAt root.type.moduleFile patches) :
    entry.1 ∈ root.referencedTypes ∧ ∃ declaration ∈ Declaration.flattenAll decls,
      Placeholder.replacement declaration = .ok entry.2 ∧ declaration.type = entry.1 := by
  obtain ⟨declaring, ⟨file, located, sameFile⟩, declaration, isNew, recorded, given, same⟩ :=
    (References.mem_replacementsAt_plan planned).mp member
  obtain ⟨other, otherListed, data, part, inside, isDeclaring, referenced⟩ :=
    tracks.recorded _ _ recorded
  rw [← isDeclaring, tracks.module?_eq wellFormed otherListed data inside,
    Option.some.injEq] at located
  rw [← located, wellFormed.same_moduleFile_iff otherListed listed] at sameFile
  refine ⟨?_, declaration, isNew, given, same⟩
  rw [← same, ← sameFile, Declaration.referencedTypes_eq]
  exact List.mem_flatMap.mpr ⟨part, inside, referenced⟩

/-- A reference of an earlier type to a new one is recorded, so that a replacement is planned. -/
theorem Tracks.mem_replacementsAt_of_isNew
    (planned : session.references.plan (Declaration.flattenAll decls) = .ok patches)
    (isOld : root ∈ old) (data : root.isService = false) {declaration : Declaration}
    (isNew : declaration ∈ Declaration.flattenAll decls)
    (referenced : declaration.type ∈ root.referencedTypes) :
    declaration.type ∈ (Patch.replacementsAt root.type.moduleFile patches).map Prod.fst := by
  rw [Declaration.referencedTypes_eq, List.mem_flatMap] at referenced
  obtain ⟨part, inside, referenced⟩ := referenced
  have recorded := tracks.awaitedByOld root isOld part inside _ referenced
    (wellFormed.not_contains_knowing isNew)
  obtain ⟨-, text, given⟩ :=
    References.exists_plan_iff.mp ⟨patches, planned⟩ _ declaration isNew recorded
  have located := tracks.module?_eq wellFormed (List.mem_append_left _ isOld) data inside
  refine List.mem_map.mpr ⟨(declaration.type, text), ?_, rfl⟩
  exact (References.mem_replacementsAt_plan planned).mpr
    ⟨part.type, ⟨_, located, Path.same_refl _⟩, declaration, isNew, recorded, given, rfl⟩

omit wellFormed in
/-- Patching leaves every reference of the earlier files and of the present one recorded that is
still unresolved. -/
theorem Tracks.patch (sameKnown : after.known = session.known)
    (references : after.references = session.references)
    (paths : after.store.paths = session.store.paths)
    (noted : after.outputs.map Prod.fst = session.outputs.map Prod.fst) :
    Tracks (old ++ decls) [] (old ++ decls) after := by
  constructor
  case known => exact sameKnown.trans tracks.known
  case modules =>
    rw [List.append_nil, references]
    exact tracks.modules
  case recorded =>
    rw [List.append_nil, references]
    exact tracks.recorded
  case awaitedByOld =>
    intro root member part inside type referenced unknown
    rw [references]
    rcases List.mem_append.mp member with isOld | isFresh
    · apply tracks.awaitedByOld root isOld part inside type referenced
      rw [← Bool.not_eq_true] at unknown ⊢
      exact fun contained => unknown (KnownTypes.contains_knowing_append contained decls)
    · exact tracks.awaitedByFresh root isFresh part inside type referenced unknown
  case awaitedByFresh => exact fun root member => absurd member List.not_mem_nil
  case files =>
    rw [List.append_nil, noted]
    exact tracks.files.congr (fun _ => Iff.rfl) paths

/-- Patching makes the replacements that the types of an earlier file wait for. -/
theorem UpToDate.patch (upToDate : UpToDate old session.store root)
    (planned : session.references.plan (Declaration.flattenAll decls) = .ok patches)
    (contents : after.store.get? root.type.moduleFile =
      (session.store.get? root.type.moduleFile).map
        (Patch.apply ⟨root.type.moduleFile, Patch.replacementsAt root.type.moduleFile patches⟩))
    (isOld : root ∈ old) (data : root.isService = false) :
    UpToDate (old ++ decls) after.store root := by
  obtain ⟨earlier, item, replacements, isPrefix, written, content, entries, caughtUp⟩ := upToDate
  refine ⟨earlier, item,
    replacements ++ Patch.replacementsAt root.type.moduleFile patches,
    isPrefix.trans (List.prefix_append old decls), written, ?_, ?_, ?_⟩
  · rw [contents, content, Option.map_some,
      Patch.apply_append root.type.moduleFile root.type.moduleFile root.type.moduleFile]
  · intro entry listed
    rw [Declaration.flattenAll_append]
    rcases List.mem_append.mp listed with before | now
    · obtain ⟨referenced, declaration, declared, given⟩ := entries entry before
      exact ⟨referenced, declaration, List.mem_append_left _ declared, given⟩
    · obtain ⟨referenced, declaration, isNew, given⟩ :=
        tracks.of_mem_replacementsAt wellFormed planned (List.mem_append_left _ isOld) now
      exact ⟨referenced, declaration, List.mem_append_right _ isNew, given⟩
  · intro type referenced contained
    rw [List.map_append, List.mem_append]
    cases before : (knowing old).contains type with
    | true => exact (caughtUp type referenced before).imp_right .inl
    | false =>
      obtain ⟨declaration, isNew, rfl⟩ := KnownTypes.exists_new_of_contains before contained
      exact .inr (.inr (tracks.mem_replacementsAt_of_isNew wellFormed planned isOld data isNew
        referenced))

/-- Patching leaves the text of every type up to date and all other texts as they are. -/
theorem Contents.patch (contents : Contents old decls (old ++ decls) session.store)
    (clientNameFree : ClientNameFree (old ++ decls))
    (planned : session.references.plan (Declaration.flattenAll decls) = .ok patches)
    (patched : ∀ path, after.store.get? path = (session.store.get? path).map
      (Patch.apply ⟨path, Patch.replacementsAt path patches⟩)) :
    Contents (old ++ decls) [] (old ++ decls) after.store := by
  have unpatched : ∀ path,
      (∀ root ∈ old ++ decls, root.isService = false → root.type.moduleFile.same path = false) →
        after.store.get? path = session.store.get? path := by
    intro path apart
    have nothing : Patch.replacementsAt path patches = [] := by
      apply Patch.replacementsAt_eq_nil
      intro patch member
      obtain ⟨root, listed, data, same⟩ := tracks.path_of_mem_plan wellFormed planned member
      rw [same]
      exact apart root listed data
    rw [patched, nothing]
    simp
  constructor
  case oldTypes =>
    intro root member data
    rcases List.mem_append.mp member with isOld | isFresh
    · exact (contents.oldTypes root isOld data).patch tracks wellFormed planned (patched _) isOld
        data
    · obtain ⟨item, written, content⟩ := contents.freshTypes root isFresh data
      refine ⟨old ++ decls, item, Patch.replacementsAt root.type.moduleFile patches,
        List.prefix_refl _, written, ?_, ?_, fun _ _ contained => .inl contained⟩
      · rw [patched, content, Option.map_some]
      · intro entry listed
        obtain ⟨referenced, declaration, isNew, given⟩ :=
          tracks.of_mem_replacementsAt wellFormed planned member listed
        rw [Declaration.flattenAll_append]
        exact ⟨referenced, declaration, List.mem_append_right _ isNew, given⟩
  case freshTypes => exact fun root member => absurd member List.not_mem_nil
  case services =>
    intro service member
    rw [List.append_nil] at member
    obtain ⟨item, written, content⟩ := contents.services service member
    refine ⟨item, written, (unpatched _ fun root listed data => ?_).trans content⟩
    rw [← Bool.not_eq_true]
    intro same
    obtain rfl := (wellFormed.same_moduleFile_iff listed member).mp same
    exact absurd data (by simp [Declaration.isService])
  case clients =>
    intro service member
    rw [List.append_nil] at member
    refine (unpatched _ fun root listed data => ?_).trans (contents.clients service member)
    rw [Path.same_comm]
    exact wellFormed.same_clientFile_eq_false clientNameFree member listed

end

end Typescribe.Session
