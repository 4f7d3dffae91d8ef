import Mathlib.Data.List.Pairwise
import Typescribe.Proofs.Generation.History
import Typescribe.Proofs.Generation.SettledService
import Typescribe.Proofs.Generation.Success

/-!
# Outputs at the same path

An emission drafts its module, and a service drafts the network client beside it. A file holds what
was drafted for it last, with replacements made since if it is the module of a type. So every
output is kept if no two of them are at one path, and otherwise the later one takes the place of
the earlier. Where names have no slashes, two modules are at one path exactly if their packages and
names agree, and a module is where a network client is exactly if it is called like the client.
-/

namespace Typescribe

open TypeScript (Module)

/-- What was drafted last for a path. -/
def lastDraft? (path : Path) (drafts : List (Path × String)) : Option String :=
  (drafts.filter fun draft => draft.1.same path).getLast?.map Prod.snd

theorem lastDraft?_concat (path : Path) (drafts : List (Path × String)) (draft : Path × String) :
    lastDraft? path (drafts ++ [draft]) =
      if draft.1.same path then some draft.2 else lastDraft? path drafts := by
  rw [lastDraft?, List.filter_append]
  cases same : draft.1.same path with
  | true => simp [same]
  | false => simp [same, lastDraft?]

theorem exists_mem_of_lastDraft? {path : Path} {drafts : List (Path × String)} {text : String}
    (last : lastDraft? path drafts = some text) :
    ∃ draft ∈ drafts, draft.1.same path = true ∧ draft.2 = text := by
  obtain ⟨draft, isLast, isText⟩ := Option.map_eq_some_iff.mp last
  obtain ⟨listed, same⟩ := List.mem_filter.mp (List.mem_of_getLast? isLast)
  exact ⟨draft, listed, same, isText⟩

/-- All drafts for a path are the same. -/
def DraftsAgree (drafts : List (Path × String)) : Prop :=
  ∀ first ∈ drafts, ∀ second ∈ drafts, first.1.same second.1 = true → first.2 = second.2

/-- If drafts agree, each is the last one for its path. -/
theorem DraftsAgree.lastDraft?_eq {drafts : List (Path × String)} (agree : DraftsAgree drafts)
    {draft : Path × String} (member : draft ∈ drafts) :
    lastDraft? draft.1 drafts = some draft.2 := by
  have present : draft ∈ drafts.filter fun other => other.1.same draft.1 :=
    List.mem_filter.mpr ⟨member, Path.same_refl draft.1⟩
  rw [lastDraft?]
  cases last : (drafts.filter fun other => other.1.same draft.1).getLast? with
  | none =>
    rw [List.getLast?_eq_none_iff.mp last] at present
    exact absurd present List.not_mem_nil
  | some other =>
    obtain ⟨listed, same⟩ := List.mem_filter.mp (List.mem_of_getLast? last)
    rw [Option.map_some, agree other listed draft member same]

/-- A path holds what was drafted for it last, with replacements of known types made in it. None
are made unless the path is one of the given files. -/
def Holds (known : KnownTypes) (revised : List Path) (drafts : List (Path × String))
    (store : MemoryStore) (path : Path) : Prop :=
  ∃ replacements : List (TypeName × String),
    (∀ entry ∈ replacements, known.Replaces entry) ∧
    (replacements ≠ [] → ∃ file ∈ revised, file.same path = true) ∧
    store.get? path = (lastDraft? path drafts).map (Patch.apply ⟨path, replacements⟩)

namespace Holds

variable {known : KnownTypes} {revised : List Path} {drafts : List (Path × String)}
  {store : MemoryStore} {path : Path}

theorem register (holds : Holds known revised drafts store path)
    (declarations : List Declaration) :
    Holds (known.register declarations).known revised drafts store path := by
  obtain ⟨replacements, replaces, files, content⟩ := holds
  exact ⟨replacements, fun entry listed => (replaces entry listed).register declarations, files,
    content⟩

theorem mono {more : List Path} (holds : Holds known revised drafts store path)
    (subset : revised ⊆ more) : Holds known more drafts store path := by
  obtain ⟨replacements, replaces, files, content⟩ := holds
  refine ⟨replacements, replaces, fun some => ?_, content⟩
  obtain ⟨file, listed, same⟩ := files some
  exact ⟨file, subset listed, same⟩

/-- A draft that is put takes the place of what was there. -/
theorem draft (holds : Holds known revised drafts store path) (file : Path) (text : String) :
    Holds known revised (drafts ++ [(file, text)]) (store.put file text) path := by
  cases same : file.same path with
  | true =>
    refine ⟨[], fun _ member => absurd member List.not_mem_nil, fun some => absurd rfl some, ?_⟩
    rw [lastDraft?_concat, MemoryStore.get?_put]
    simp [same]
  | false =>
    obtain ⟨replacements, replaces, files, content⟩ := holds
    refine ⟨replacements, replaces, files, ?_⟩
    rw [lastDraft?_concat, MemoryStore.get?_put, content]
    simp [same]

/-- Revising a file adds replacements to those made before. -/
theorem revise (holds : Holds known revised drafts store path) {patch : Patch} {text : String}
    (listed : patch.path ∈ revised)
    (replaces : ∀ entry ∈ patch.replacements, known.Replaces entry)
    (current : store.get? patch.path = some text) :
    Holds known revised drafts (store.put patch.path (patch.apply text)) path := by
  obtain ⟨replacements, replacesBefore, files, content⟩ := holds
  cases same : patch.path.same path with
  | true =>
    rw [MemoryStore.get?_congr same] at current
    rw [current, eq_comm, Option.map_eq_some_iff] at content
    obtain ⟨draft, last, rfl⟩ := content
    refine ⟨replacements ++ patch.replacements,
      List.forall_mem_append.mpr ⟨replacesBefore, replaces⟩, fun _ => ⟨_, listed, same⟩, ?_⟩
    rw [MemoryStore.get?_put, if_pos same, last, Option.map_some,
      Patch.apply_append path path patch.path]
  | false =>
    refine ⟨replacements, replacesBefore, files, ?_⟩
    rw [MemoryStore.get?_put, same, content]
    rfl

end Holds

/-- The network client that is drafted beside a service. -/
def Declaration.clientDrafts : Declaration → List (Path × String)
  | .service body => [(Service.clientFile body.type, Service.clientModule.render)]
  | _ => []

theorem Declaration.clientDrafts_service (body : Service) :
    (Declaration.service body).clientDrafts =
      [(Service.clientFile body.type, Service.clientModule.render)] := rfl

theorem Declaration.clientDrafts_of_data {root : Declaration} (data : root.isService = false) :
    root.clientDrafts = [] := by
  cases root with
  | record head nested => rfl
  | enumeration body => rfl
  | service body => cases data

namespace Emission

/-- What an emission drafts: its module, and the network client beside a service. -/
def drafts (emission : Emission) : List (Path × String) :=
  match emission.module? with
  | .ok item => (emission.root.type.moduleFile, item.render) :: emission.root.clientDrafts
  | .error _ => []

theorem drafts_of_ok {emission : Emission} {item : Module} (made : emission.module? = .ok item) :
    emission.drafts =
      (emission.root.type.moduleFile, item.render) :: emission.root.clientDrafts := by
  rw [drafts, made]

theorem drafts_of_typeModule {known : KnownTypes} {root : Declaration} {item : Module}
    (data : root.isService = false) (written : known.typeModule root = .ok item) :
    (⟨known, root⟩ : Emission).drafts = [(root.type.moduleFile, item.render)] := by
  have made : (⟨known, root⟩ : Emission).module? = .ok item :=
    (module?_of_data data).trans written
  rw [drafts_of_ok made, Declaration.clientDrafts_of_data data]

theorem drafts_of_serviceModule {known : KnownTypes} {service : Service} {item : Module}
    (written : known.serviceModule service = .ok item) :
    (⟨known, .service service⟩ : Emission).drafts =
      [(service.type.moduleFile, item.render),
        (Service.clientFile service.type, Service.clientModule.render)] := by
  have made : (⟨known, .service service⟩ : Emission).module? = .ok item := written
  rw [drafts_of_ok made, Declaration.clientDrafts_service]
  dsimp only [Declaration.type]

theorem mem_drafts {emission : Emission} {draft : Path × String}
    (member : draft ∈ emission.drafts) :
    (∃ item, emission.module? = .ok item ∧
        draft = (emission.root.type.moduleFile, item.render)) ∨
      ∃ service, emission.root = .service service ∧
        draft = (Service.clientFile service.type, Service.clientModule.render) := by
  rw [drafts] at member
  split at member
  next item made =>
    rcases List.mem_cons.mp member with isModule | isClient
    · exact .inl ⟨item, made, isModule⟩
    · cases data : emission.root.isService with
      | true =>
        obtain ⟨service, isRoot⟩ := Declaration.isService_iff.mp data
        rw [isRoot, Declaration.clientDrafts_service] at isClient
        exact .inr ⟨service, isRoot, List.mem_singleton.mp isClient⟩
      | false =>
        rw [Declaration.clientDrafts_of_data data] at isClient
        exact absurd isClient List.not_mem_nil
  next => exact absurd member List.not_mem_nil

end Emission

/-- The modules of types among emissions. -/
def typeFiles (done : List Emission) : List Path :=
  (done.filter fun emission => !emission.root.isService).map fun emission =>
    emission.root.type.moduleFile

theorem mem_typeFiles {done : List Emission} {path : Path} :
    path ∈ typeFiles done ↔
      ∃ emission ∈ done, emission.root.isService = false ∧
        path = emission.root.type.moduleFile := by
  simp only [typeFiles, List.mem_map, List.mem_filter, Bool.not_eq_true', and_assoc]
  exact exists_congr fun _ => and_congr_right fun _ => and_congr_right fun _ => eq_comm

theorem typeFiles_subset (done more : List Emission) :
    typeFiles done ⊆ typeFiles (done ++ more) := by
  rw [typeFiles, typeFiles, List.filter_append, List.map_append]
  exact List.subset_append_left _ _

/-- What every path holds at any time of a run. -/
theorem Session.Reaches.holds {done : List Emission} {session : Session Journal}
    (reached : Reaches done session) (path : Path) :
    Holds session.known (typeFiles done) (done.flatMap Emission.drafts) session.store.store
      path := by
  induction reached with
  | start =>
    exact ⟨[], fun _ member => absurd member List.not_mem_nil, fun some => absurd rfl some, rfl⟩
  | learn _ declarations ih => exact ih.register declarations
  | @type done session root item _ data written ih =>
    rw [List.flatMap_append, List.flatMap_singleton, Emission.drafts_of_typeModule data written,
      store_withType]
    exact (ih.draft root.type.moduleFile item.render).mono (typeFiles_subset done _)
  | @service done session service item _ written ih =>
    have both := ((ih.draft service.type.moduleFile item.render).draft
      (Service.clientFile service.type) Service.clientModule.render).mono
        (typeFiles_subset done [⟨session.known, .service service⟩])
    rw [List.append_assoc, List.singleton_append] at both
    rw [List.flatMap_append, List.flatMap_singleton, Emission.drafts_of_serviceModule written,
      store_withService]
    exact both
  | revise reached revises content ih =>
    rw [store_placed]
    exact ih.revise (mem_typeFiles.mpr (reached.located revises.located)) revises.replaces content

/-- The top-level declarations that schema files generate modules for. -/
def generatedRoots (files : List SchemaFile) : List Declaration :=
  (emissions .initial files).map Emission.root

/-- No two modules are at one path, and none is where a network client is. -/
structure PathsApart (roots : List Declaration) : Prop where
  modules : roots.Pairwise fun first second =>
    first.type.moduleFile.same second.type.moduleFile = false
  clients : ∀ service, .service service ∈ roots → ∀ root ∈ roots,
    (Service.clientFile service.type).same root.type.moduleFile = false

/-- No two modules have the same package and name, and none is called like the network client in
the package of a service. -/
structure NamesApart (roots : List Declaration) : Prop where
  modules : roots.Pairwise fun first second =>
    ¬ (first.type.root.package = second.type.root.package ∧
      first.type.root.simpleName = second.type.root.simpleName)
  clients : ∀ service, .service service ∈ roots → ∀ root ∈ roots,
    ¬ (service.type.package = root.type.root.package ∧
      Service.clientType = root.type.root.simpleName)

/-- Without slashes, paths are told apart by names. -/
theorem pathsApart_iff {roots : List Declaration}
    (slashless : ∀ root ∈ roots, root.type.Slashless) : PathsApart roots ↔ NamesApart roots := by
  have modules : ∀ first ∈ roots, ∀ second ∈ roots,
      first.type.moduleFile.same second.type.moduleFile = false ↔
        ¬ (first.type.root.package = second.type.root.package ∧
          first.type.root.simpleName = second.type.root.simpleName) := by
    intro first member second otherMember
    rw [← Bool.not_eq_true, TypeName.same_moduleFile_iff (slashless first member)
      (slashless second otherMember)]
  have clients : ∀ service, .service service ∈ roots → ∀ root ∈ roots,
      ((Service.clientFile service.type).same root.type.moduleFile = false ↔
        ¬ (service.type.package = root.type.root.package ∧
          Service.clientType = root.type.root.simpleName)) := by
    intro service listed root member
    have serviceSlashless : service.type.Slashless := slashless _ listed
    rw [← Bool.not_eq_true, TypeName.same_clientFile_iff serviceSlashless (slashless root member)]
  constructor
  · intro apart
    refine ⟨apart.modules.imp_of_mem fun {first second} member otherMember => ?_, ?_⟩
    · exact (modules first member second otherMember).mp
    · exact fun service listed root member =>
        (clients service listed root member).mp (apart.clients service listed root member)
  · intro apart
    refine ⟨apart.modules.imp_of_mem fun {first second} member otherMember => ?_, ?_⟩
    · exact (modules first member second otherMember).mpr
    · exact fun service listed root member =>
        (clients service listed root member).mpr (apart.clients service listed root member)

theorem mem_rootsOf_of_mem_generatedRoots {files : List SchemaFile} {root : Declaration}
    (member : root ∈ generatedRoots files) : root ∈ rootsOf files := by
  obtain ⟨emission, listed, rfl⟩ := List.mem_map.mp member
  exact (of_mem_emissions listed).1

/-- If names are well spelled, only the name of the network client can be taken twice. -/
theorem namesApart_iff {files : List SchemaFile} (wellSpelled : WellSpelled (rootsOf files)) :
    NamesApart (generatedRoots files) ↔
      ∀ service, .service service ∈ generatedRoots files → ∀ root ∈ generatedRoots files,
        service.type.package = root.type.package → root.type.names ≠ [Service.clientType] := by
  have single : ∀ root ∈ generatedRoots files, ∃ name, root.type.names = [name] :=
    fun root member => wellSpelled.single_name (mem_rootsOf_of_mem_generatedRoots member)
  have spelled : ∀ root ∈ generatedRoots files, root.type.IsSpelled := fun root member =>
    wellSpelled.spelled root
      (Declaration.mem_flattenAll_of_mem (mem_rootsOf_of_mem_generatedRoots member))
  constructor
  · intro apart service listed root member package isClient
    apply apart.clients service listed root member
    rw [TypeName.root_eq_self isClient, TypeName.simpleName_eq isClient]
    exact ⟨package, rfl⟩
  · intro clientApart
    constructor
    · have distinct : (generatedRoots files).Pairwise fun first second =>
          first.type ≠ second.type := List.pairwise_map.mpr (pairwise_emissions .initial files)
      refine distinct.imp_of_mem fun {first second} member otherMember different same => ?_
      obtain ⟨name, isFirst⟩ := single first member
      obtain ⟨otherName, isSecond⟩ := single second otherMember
      rw [TypeName.root_eq_self isFirst, TypeName.root_eq_self isSecond,
        TypeName.simpleName_eq isFirst, TypeName.simpleName_eq isSecond] at same
      obtain ⟨package, rfl⟩ := same
      exact different (TypeName.eq_of_spelled (spelled first member) (spelled second otherMember)
        package (isFirst.trans isSecond.symm))
    · rintro service listed root member ⟨package, isClient⟩
      obtain ⟨name, isRoot⟩ := single root member
      rw [TypeName.root_eq_self isRoot] at package isClient
      rw [TypeName.simpleName_eq isRoot] at isClient
      exact clientApart service listed root member package (isClient ▸ isRoot)

/-- In a well-formed schema without the name of the network client, paths are apart. -/
theorem WellFormed.pathsApart {files : List SchemaFile} (wellFormed : WellFormed (rootsOf files))
    (clientNameFree : ClientNameFree (rootsOf files)) : PathsApart (generatedRoots files) := by
  have slashless : ∀ root ∈ generatedRoots files, root.type.Slashless := fun root member =>
    (wellFormed.type_isPlain (Declaration.mem_flattenAll_of_mem
      (mem_rootsOf_of_mem_generatedRoots member))).slashless
  rw [pathsApart_iff slashless, namesApart_iff wellFormed.wellSpelled]
  exact fun _ _ root member _ => clientNameFree root (mem_rootsOf_of_mem_generatedRoots member)

/-- Two modules at one path are of one emission. -/
theorem PathsApart.eq_of_same {done : List Emission}
    (apart : PathsApart (done.map Emission.root)) {first second : Emission}
    (member : first ∈ done) (otherMember : second ∈ done)
    (same : first.root.type.moduleFile.same second.root.type.moduleFile = true) :
    first = second := by
  have symmetric : Std.Symm fun first second : Emission =>
      first.root.type.moduleFile.same second.root.type.moduleFile = false :=
    ⟨fun _ _ apart => Path.same_comm.trans apart⟩
  by_contra different
  have distinct := (List.pairwise_map.mp apart.modules).forall member otherMember different
  rw [same] at distinct
  cases distinct

/-- No module is where the network client of an emitted service is. -/
theorem PathsApart.client_apart {done : List Emission}
    (apart : PathsApart (done.map Emission.root)) {first second : Emission}
    (member : first ∈ done) (otherMember : second ∈ done) {service : Service}
    (isService : first.root = .service service) :
    (Service.clientFile service.type).same second.root.type.moduleFile = false :=
  apart.clients service (List.mem_map.mpr ⟨first, member, isService⟩) second.root
    (List.mem_map_of_mem otherMember)

/-- If paths are apart, drafts agree. -/
theorem PathsApart.draftsAgree {done : List Emission}
    (apart : PathsApart (done.map Emission.root)) :
    DraftsAgree (done.flatMap Emission.drafts) := by
  intro first drafted second otherDrafted same
  obtain ⟨emission, member, isDraft⟩ := List.mem_flatMap.mp drafted
  obtain ⟨other, otherMember, isOtherDraft⟩ := List.mem_flatMap.mp otherDrafted
  rcases Emission.mem_drafts isDraft with ⟨item, made, rfl⟩ | ⟨service, isService, rfl⟩
  · rcases Emission.mem_drafts isOtherDraft with
      ⟨otherItem, otherMade, rfl⟩ | ⟨otherService, isService, rfl⟩
    · dsimp only at same ⊢
      obtain rfl := apart.eq_of_same member otherMember same
      rw [Except.ok.inj (otherMade.symm.trans made)]
    · dsimp only at same
      rw [Path.same_comm, apart.client_apart otherMember member isService] at same
      cases same
  · rcases Emission.mem_drafts isOtherDraft with
      ⟨otherItem, otherMade, rfl⟩ | ⟨otherService, -, rfl⟩
    · dsimp only at same
      rw [apart.client_apart member otherMember isService] at same
      cases same
    · rfl

/-- The content of an emission is in a store: its module, with replacements made for types known in
the end if it is the module of a type, and the network client beside a service. -/
structure Emission.Kept (emission : Emission) (known : KnownTypes) (store : MemoryStore) :
    Prop where
  module : ∃ item replacements, emission.module? = .ok item ∧
    (∀ entry ∈ replacements, known.Replaces entry) ∧
    (emission.root.isService = true → replacements = []) ∧
    store.get? emission.root.type.moduleFile =
      some (Patch.apply ⟨emission.root.type.moduleFile, replacements⟩ item.render)
  client : ∀ service, emission.root = .service service →
    store.get? (Service.clientFile service.type) = some Service.clientModule.render

/-- If paths are apart, what was emitted is kept. -/
theorem Session.Reaches.kept {done : List Emission} {session : Session Journal}
    (reached : Reaches done session) (apart : PathsApart (done.map Emission.root))
    {emission : Emission} (member : emission ∈ done) :
    emission.Kept session.known session.store.store := by
  obtain ⟨item, made, -⟩ := reached.written emission member
  have drafted := Emission.drafts_of_ok made
  constructor
  · obtain ⟨replacements, replaces, revised, content⟩ :=
      reached.holds emission.root.type.moduleFile
    have isDraft : (emission.root.type.moduleFile, item.render) ∈ emission.drafts := by
      rw [drafted]
      exact List.mem_cons_self
    have last := apart.draftsAgree.lastDraft?_eq (List.mem_flatMap.mpr ⟨emission, member, isDraft⟩)
    dsimp only at last
    rw [last, Option.map_some] at content
    refine ⟨item, replacements, made, replaces, fun isService => ?_, content⟩
    by_contra some
    obtain ⟨file, listed, same⟩ := revised some
    obtain ⟨other, otherMember, data, isFile⟩ := mem_typeFiles.mp listed
    rw [isFile] at same
    have one : other = emission := apart.eq_of_same otherMember member same
    rw [one, isService] at data
    cases data
  · intro service isService
    obtain ⟨replacements, -, revised, content⟩ := reached.holds (Service.clientFile service.type)
    have none : replacements = [] := by
      by_contra some
      obtain ⟨file, listed, same⟩ := revised some
      obtain ⟨other, otherMember, -, isFile⟩ := mem_typeFiles.mp listed
      rw [isFile, Path.same_comm, apart.client_apart member otherMember isService] at same
      cases same
    have isDraft : (Service.clientFile service.type, Service.clientModule.render) ∈
        emission.drafts := by
      rw [drafted, isService, Declaration.clientDrafts_service]
      exact List.mem_cons_of_mem _ (List.mem_singleton_self _)
    have last := apart.draftsAgree.lastDraft?_eq (List.mem_flatMap.mpr ⟨emission, member, isDraft⟩)
    dsimp only at last
    rw [content, last, none, Option.map_some, Patch.apply_nil, id]

/-- Everything that a run emits is kept, up to the replacement of tokens, if no two outputs are at
one path. Where names hold no slash, this is so exactly if no two modules have the same package and
name and none is called like the network client in the package of a service; and where names are
also well spelled, exactly if the latter holds. -/
theorem outputs_kept {files : List SchemaFile} {session : Session MemoryStore}
    (ran : Session.processFiles { store := ({} : MemoryStore) } files = (.ok (), session)) :
    (PathsApart (generatedRoots files) →
      ∀ emission ∈ emissions .initial files, emission.Kept session.known session.store) ∧
    ((∀ root ∈ generatedRoots files, root.type.Slashless) →
      (PathsApart (generatedRoots files) ↔ NamesApart (generatedRoots files)) ∧
      (WellSpelled (rootsOf files) → (PathsApart (generatedRoots files) ↔
        ∀ service, .service service ∈ generatedRoots files → ∀ root ∈ generatedRoots files,
          service.type.package = root.type.package →
            root.type.names ≠ [Service.clientType]))) := by
  obtain ⟨logged, reached, -, stored, known, -⟩ := Session.exists_history ran
  refine ⟨fun apart emission member => ?_, fun slashless => ⟨pathsApart_iff slashless, ?_⟩⟩
  · rw [stored, known]
    exact reached.kept apart member
  · intro wellSpelled
    rw [pathsApart_iff slashless, namesApart_iff wellSpelled]

/-- All outputs of the survey are kept. -/
theorem survey_outputs_kept : ∃ session,
    Session.processFiles { store := ({} : MemoryStore) } surveyFiles = (.ok (), session) ∧
    PathsApart (generatedRoots surveyFiles) ∧
    ∀ emission ∈ emissions .initial surveyFiles,
      emission.Kept session.known session.store := by
  obtain ⟨session, ran⟩ := (exists_processFiles_iff survey_wellFormed).mpr Generable.survey
  have apart := survey_wellFormed.pathsApart survey_clientNameFree
  exact ⟨session, ran, apart, (outputs_kept ran).1 apart⟩

/-- A record that is called like the network client. -/
def namesake : Declaration :=
  .record { type := ⟨"mail.ServiceNetworkClient"⟩ } []

/-- A service in the package of the record. -/
def post : Service :=
  { type := ⟨"mail.PostService"⟩ }

/-- A schema file that declares the record and the service. -/
def mailFiles : List SchemaFile :=
  [{ name := "mail", declarations := [namesake, .service post] }]

theorem mail_wellFormed : WellFormed (rootsOf mailFiles) := by decide

theorem mail_generable : Generable mailFiles where
  fieldsNamed := by decide
  noServiceFields := by decide
  messagesDeclared before file after split service member := by
    have isMail : file ∈ mailFiles := split ▸ by simp
    rw [List.mem_singleton.mp isMail] at member
    rw [List.mem_singleton.mp member]
    exact fun _ listed => absurd listed List.not_mem_nil

theorem mail_emissions : emissions .initial mailFiles =
    [⟨KnownTypes.initial.registerFiles mailFiles, namesake⟩,
      ⟨KnownTypes.initial.registerFiles mailFiles, .service post⟩] := rfl

/-- The record's module, whatever is replaced in it, is not that of the network client. -/
theorem namesake_ne_client {item : Module}
    (written : (KnownTypes.initial.registerFiles mailFiles).typeModule namesake = .ok item)
    (patch : Patch) : patch.apply item.render ≠ Service.clientModule.render := by
  have evaluated : ((KnownTypes.initial.registerFiles mailFiles).typeModule namesake).map
      Module.render = .ok "export default class ServiceNetworkClient {}\n" := by decide
  rw [written] at evaluated
  have rendered : item.render = "export default class ServiceNetworkClient {}\n" :=
    Except.ok.inj evaluated
  have settled : Placeholder.Settled item.render.toList := by
    rw [rendered]
    exact ⟨by decide +kernel, by decide⟩
  rw [patch.apply_of_settled settled]
  intro same
  have head := Service.head?_clientModule
  rw [← same, rendered] at head
  exact absurd head (by decide)

/-- The network client is drafted last for the record's file, and there is nothing to replace in
it. -/
theorem get?_namesake {known : KnownTypes} {logged : Session Journal}
    (reached : Session.Reaches [⟨known, namesake⟩, ⟨known, .service post⟩] logged) :
    logged.store.store.get? namesake.type.moduleFile = some Service.clientModule.render := by
  have beside : (Service.clientFile post.type).same namesake.type.moduleFile = true := by
    decide +kernel
  have listed : (⟨known, .service post⟩ : Emission) ∈
      [(⟨known, namesake⟩ : Emission), ⟨known, .service post⟩] :=
    List.mem_cons_of_mem _ (List.mem_singleton_self _)
  obtain ⟨item, made, -⟩ := reached.written _ listed
  have drafted : [(⟨known, namesake⟩ : Emission), ⟨known, .service post⟩].flatMap
      Emission.drafts = ((⟨known, namesake⟩ : Emission).drafts ++
        [((Declaration.service post).type.moduleFile, item.render)]) ++
          [(Service.clientFile post.type, Service.clientModule.render)] := by
    rw [List.flatMap_cons, List.flatMap_singleton, Emission.drafts_of_ok made,
      Declaration.clientDrafts_service, List.append_assoc, List.singleton_append]
  obtain ⟨replacements, -, -, content⟩ := reached.holds namesake.type.moduleFile
  have kept := Patch.apply_of_settled ⟨namesake.type.moduleFile, replacements⟩
    Service.settled_clientModule
  rw [drafted, lastDraft?_concat] at content
  dsimp only at content
  rw [if_pos beside, Option.map_some, kept] at content
  exact content

/-- The record is emitted, but its file holds the network client in the end. -/
theorem mail_namesake_lost : ∃ session item,
    Session.processFiles { store := ({} : MemoryStore) } mailFiles = (.ok (), session) ∧
    ⟨session.known, namesake⟩ ∈ emissions .initial mailFiles ∧
    session.known.typeModule namesake = .ok item ∧
    session.store.get? namesake.type.moduleFile = some Service.clientModule.render ∧
    ∀ patch : Patch, patch.apply item.render ≠ Service.clientModule.render := by
  obtain ⟨session, ran⟩ := (exists_processFiles_iff mail_wellFormed).mpr mail_generable
  obtain ⟨logged, reached, -, stored, -, registered⟩ := Session.exists_history ran
  have emitted : ⟨session.known, namesake⟩ ∈ emissions .initial mailFiles := by
    rw [registered, mail_emissions]
    exact List.mem_cons_self
  obtain ⟨item, made, -⟩ := reached.written _ emitted
  rw [Emission.module?_of_data rfl] at made
  rw [mail_emissions] at reached
  refine ⟨session, item, ran, emitted, made, ?_, ?_⟩
  · rw [stored]
    exact get?_namesake reached
  · rw [registered] at made
    exact namesake_ne_client made

end Typescribe
