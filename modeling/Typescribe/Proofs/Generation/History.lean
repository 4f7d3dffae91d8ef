import Typescribe.Proofs.Generation.Emissions
import Typescribe.Proofs.Generation.Journal

/-!
# The history of a run

A run over a journal learns the types of its files, generates the modules of top-level declarations
that are new, and revises modules that it generated. `Reaches` says which sessions it can come to
in this way, after which emissions; what holds of all of them is proved by induction on the
history. A run that succeeds has made exactly the emissions that registering its files calls for.
-/

namespace Typescribe

open TypeScript (Module)

/-- A type's tokens are replaced by the text for its declaration. -/
def KnownTypes.Replaces (known : KnownTypes) (entry : TypeName × String) : Prop :=
  ∃ declaration ∈ known.declarations,
    declaration.type = entry.1 ∧ Placeholder.replacement declaration = .ok entry.2

theorem KnownTypes.Replaces.register {known : KnownTypes} {entry : TypeName × String}
    (replaces : known.Replaces entry) (declarations : List Declaration) :
    (known.register declarations).known.Replaces entry := by
  obtain ⟨declaration, listed, given⟩ := replaces
  refine ⟨declaration, ?_, given⟩
  rw [declarations_register]
  exact List.mem_append_left _ listed

namespace Session

variable {done : List Emission} {session after : Session Journal} {root : Declaration}
  {service : Service} {item : Module}

/-- The session with a text put at a path. -/
def placed (session : Session Journal) (path : Path) (text : String) : Session Journal :=
  { session with
    store := session.store.receive path text
    outputs := noteOutput path
      (if session.store.store.get? path = some text then .unchanged else .written)
      session.outputs }

theorem put_eq_placed (session : Session Journal) (path : Path) (text : String) :
    session.put path text = (.ok (), session.placed path text) := by
  rw [put, Journal.writeIfChanged_eq]
  rfl

theorem write_eq_placed (session : Session Journal) (path : Path) (item : Module) :
    session.write path item = (.ok (), session.placed path item.render) :=
  put_eq_placed session path item.render

/-- The session after the module of a type was generated. -/
def withType (session : Session Journal) (root : Declaration) (item : Module) : Session Journal :=
  { session.placed root.type.moduleFile item.render with
    references :=
      (session.references.insertAll (session.known.placeholdersOf root.flatten)).setModule
        root.type root.type.moduleFile }

/-- The session after the module of a service was generated. -/
def withService (session : Session Journal) (service : Service) (item : Module) :
    Session Journal :=
  (session.placed service.type.moduleFile item.render).placed (Service.clientFile service.type)
    Service.clientModule.render

@[simp] theorem store_placed (session : Session Journal) (path : Path) (text : String) :
    (session.placed path text).store.store = session.store.store.put path text :=
  Journal.store_receive session.store path text

@[simp] theorem store_withType (session : Session Journal) (root : Declaration) (item : Module) :
    (session.withType root item).store.store =
      session.store.store.put root.type.moduleFile item.render :=
  Journal.store_receive session.store root.type.moduleFile item.render

@[simp] theorem store_withService (session : Session Journal) (service : Service)
    (item : Module) :
    (session.withService service item).store.store =
      (session.store.store.put service.type.moduleFile item.render).put
        (Service.clientFile service.type) Service.clientModule.render := by
  rw [withService, store_placed, store_placed]

/-- What a session may replace in a file. -/
structure Revises (session : Session Journal) (patch : Patch) : Prop where
  /-- The file is the module of a type. -/
  located : patch.path ∈ session.references.modules.map Prod.snd
  /-- Tokens are replaced by the texts for known types. -/
  replaces : ∀ entry ∈ patch.replacements, session.known.Replaces entry
  /-- A reference from a type in the file waits for the replacement. -/
  recorded : ∀ entry ∈ patch.replacements, ∃ declaring file,
    session.references.Records declaring entry.1 ∧
      session.references.module? declaring = some file ∧ file.same patch.path = true

theorem Revises.placed {patch : Patch} (revises : session.Revises patch) (path : Path)
    (text : String) : (session.placed path text).Revises patch :=
  ⟨revises.located, revises.replaces, revises.recorded⟩

/-- What is planned may be replaced. -/
theorem revises_of_plan {newTypes : List Declaration} {patches : List Patch}
    (known : ∀ declaration ∈ newTypes, declaration ∈ session.known.declarations)
    (planned : session.references.plan newTypes = .ok patches) :
    ∀ patch ∈ patches, session.Revises patch := by
  intro patch member
  have entries : ∀ entry ∈ patch.replacements,
      entry ∈ Patch.replacementsAt patch.path patches := fun entry listed =>
    List.mem_flatMap.mpr
      ⟨patch, List.mem_filter.mpr ⟨member, Path.same_refl patch.path⟩, listed⟩
  constructor
  case located =>
    obtain ⟨declaring, -, -, file⟩ := References.path_of_mem_plan planned member
    exact List.mem_map_of_mem (References.mem_modules_of_module? file)
  case replaces =>
    intro entry listed
    obtain ⟨-, -, declaration, isNew, -, given, same⟩ :=
      (References.mem_replacementsAt_plan planned).mp (entries entry listed)
    exact ⟨declaration, known declaration isNew, same, given⟩
  case recorded =>
    intro entry listed
    obtain ⟨declaring, ⟨file, found, here⟩, declaration, -, recorded, -, same⟩ :=
      (References.mem_replacementsAt_plan planned).mp (entries entry listed)
    exact ⟨declaring, file, same ▸ recorded, found, here⟩

/-- The sessions that a run over a journal can come to, with the emissions made on the way. -/
inductive Reaches : List Emission → Session Journal → Prop where
  | start : Reaches [] { store := {} }
  | learn {done : List Emission} {session : Session Journal} (reached : Reaches done session)
      (declarations : List Declaration) :
      Reaches done { session with known := (session.known.register declarations).known }
  | type {done : List Emission} {session : Session Journal} {root : Declaration} {item : Module}
      (reached : Reaches done session) (data : root.isService = false)
      (written : session.known.typeModule root = .ok item) :
      Reaches (done ++ [⟨session.known, root⟩]) (session.withType root item)
  | service {done : List Emission} {session : Session Journal} {service : Service} {item : Module}
      (reached : Reaches done session)
      (written : session.known.serviceModule service = .ok item) :
      Reaches (done ++ [⟨session.known, .service service⟩]) (session.withService service item)
  | revise {done : List Emission} {session : Session Journal} {patch : Patch} {text : String}
      (reached : Reaches done session) (revises : session.Revises patch)
      (content : session.store.store.get? patch.path = some text) :
      Reaches done (session.placed patch.path (patch.apply text))

namespace Reaches

theorem recorded (reached : Reaches done session) :
    Journal.Recorded session.store session.outputs := by
  induction reached with
  | start => exact .start
  | learn _ _ ih => exact ih
  | type _ _ _ ih => exact ih.receive _ _
  | service _ _ ih => exact (ih.receive _ _).receive _ _
  | revise _ _ _ ih => exact ih.receive _ _

/-- No type is known twice. -/
theorem distinct (reached : Reaches done session) :
    (session.known.declarations.map Declaration.type).Nodup := by
  induction reached with
  | start => exact List.nodup_singleton _
  | learn _ declarations ih => exact KnownTypes.nodup_register ih declarations
  | type _ _ _ ih => exact ih
  | service _ _ ih => exact ih
  | revise _ _ _ ih => exact ih

/-- What was known at an emission is known from then on. -/
theorem known_subset (reached : Reaches done session) :
    ∀ emission ∈ done, emission.known.declarations ⊆ session.known.declarations := by
  induction reached with
  | start => exact fun _ member => absurd member List.not_mem_nil
  | learn _ declarations ih =>
    intro emission member declaration listed
    rw [KnownTypes.declarations_register]
    exact List.mem_append_left _ (ih emission member listed)
  | type _ _ _ ih =>
    exact List.forall_mem_append.mpr
      ⟨ih, List.forall_mem_singleton.mpr fun _ listed => listed⟩
  | service _ _ ih =>
    exact List.forall_mem_append.mpr
      ⟨ih, List.forall_mem_singleton.mpr fun _ listed => listed⟩
  | revise _ _ _ ih => exact ih

/-- The modules that are found through their types are those of emitted types. -/
theorem modules (reached : Reaches done session) :
    ∀ entry ∈ session.references.modules, ∃ emission ∈ done,
      emission.root.isService = false ∧
        entry = (emission.root.type, emission.root.type.moduleFile) := by
  induction reached with
  | start => exact fun _ member => absurd member List.not_mem_nil
  | learn _ _ ih => exact ih
  | @type done session root item _ data _ ih =>
    intro entry member
    have modules : (session.withType root item).references.modules =
        (root.type, root.type.moduleFile) :: session.references.modules := by
      rw [withType, References.setModule, References.modules_insertAll]
    rw [modules] at member
    rcases List.mem_cons.mp member with isNew | member
    · exact ⟨_, List.mem_append_right _ (List.mem_singleton_self _), data, isNew⟩
    · obtain ⟨emission, listed, rest⟩ := ih entry member
      exact ⟨emission, List.mem_append_left _ listed, rest⟩
  | service _ _ ih =>
    intro entry member
    obtain ⟨emission, listed, rest⟩ := ih entry member
    exact ⟨emission, List.mem_append_left _ listed, rest⟩
  | revise _ _ _ ih => exact ih

/-- Only the modules of types are revised. -/
theorem located (reached : Reaches done session) {path : Path}
    (member : path ∈ session.references.modules.map Prod.snd) :
    ∃ emission ∈ done, emission.root.isService = false ∧
      path = emission.root.type.moduleFile := by
  obtain ⟨entry, listed, rfl⟩ := List.mem_map.mp member
  obtain ⟨emission, emitted, data, isModule⟩ := reached.modules entry listed
  refine ⟨emission, emitted, data, ?_⟩
  rw [isModule]

/-- The references that wait are those of emitted types to types that were not known then. -/
theorem records (reached : Reaches done session) {declaring referenced : TypeName}
    (recorded : session.references.Records declaring referenced) :
    ∃ emission ∈ done, emission.known.contains referenced = false ∧
      ∃ part ∈ emission.root.flatten, part.type = declaring ∧ referenced ∈ part.ownReferences := by
  induction reached with
  | start =>
    obtain ⟨entry, listed, -⟩ := recorded
    exact absurd listed List.not_mem_nil
  | learn _ _ ih => exact ih recorded
  | type _ _ written ih =>
    rcases (records_emitType _ written _ declaring referenced).mp recorded with
      ⟨part, inside, same, refers, unknown⟩ | earlier
    · exact ⟨_, List.mem_append_right _ (List.mem_singleton_self _), unknown, part, inside, same,
        refers⟩
    · obtain ⟨emission, listed, rest⟩ := ih earlier
      exact ⟨emission, List.mem_append_left _ listed, rest⟩
  | service _ _ ih =>
    obtain ⟨emission, listed, rest⟩ := ih recorded
    exact ⟨emission, List.mem_append_left _ listed, rest⟩
  | revise _ _ _ ih => exact ih recorded

/-- Every emission wrote its module to its file. -/
theorem written (reached : Reaches done session) : ∀ emission ∈ done, ∃ item,
    emission.module? = .ok item ∧
      item.render ∈ session.store.writesAt emission.root.type.moduleFile := by
  induction reached with
  | start => exact fun _ member => absurd member List.not_mem_nil
  | learn _ _ ih => exact ih
  | type reached data made ih =>
    intro emission member
    rcases List.mem_append.mp member with member | isNew
    · obtain ⟨item, known, listed⟩ := ih emission member
      exact ⟨item, known, Journal.mem_writesAt_receive listed _ _⟩
    · rw [List.mem_singleton.mp isNew]
      exact ⟨_, (Emission.module?_of_data data).trans made,
        reached.recorded.mem_writesAt_receive_self _ _⟩
  | service reached made ih =>
    intro emission member
    rcases List.mem_append.mp member with member | isNew
    · obtain ⟨item, known, listed⟩ := ih emission member
      exact ⟨item, known,
        Journal.mem_writesAt_receive (Journal.mem_writesAt_receive listed _ _) _ _⟩
    · rw [List.mem_singleton.mp isNew]
      exact ⟨_, made, Journal.mem_writesAt_receive
        (reached.recorded.mem_writesAt_receive_self _ _) _ _⟩
  | revise _ _ _ ih =>
    intro emission member
    obtain ⟨item, known, listed⟩ := ih emission member
    exact ⟨item, known, Journal.mem_writesAt_receive listed _ _⟩

/-- Whatever is revised is an output. -/
theorem notes_of_located (reached : Reaches done session) {path : Path}
    (member : path ∈ session.references.modules.map Prod.snd) : Notes session.outputs path := by
  obtain ⟨emission, listed, -, same⟩ := reached.located member
  obtain ⟨item, -, written⟩ := reached.written emission listed
  rw [same]
  exact reached.recorded.notes_of_mem_writesAt written

theorem emitType (reached : Reaches done session) (data : root.isService = false)
    (ran : session.emitType root = (.ok (), after)) :
    Reaches (done ++ [⟨session.known, root⟩]) after ∧ after.known = session.known := by
  rw [Session.emitType] at ran
  dsimp only at ran
  split at ran
  next => cases (Prod.mk.inj ran).1
  next item made =>
    rw [write_eq_placed] at ran
    obtain rfl := (Prod.mk.inj ran).2
    exact ⟨.type reached data made, rfl⟩

theorem emitService (reached : Reaches done session)
    (ran : session.emitService service = (.ok (), after)) :
    Reaches (done ++ [⟨session.known, .service service⟩]) after ∧
      after.known = session.known := by
  rw [Session.emitService] at ran
  split at ran
  next => cases (Prod.mk.inj ran).1
  next item made =>
    rw [write_eq_placed] at ran
    dsimp only at ran
    rw [write_eq_placed] at ran
    obtain rfl := (Prod.mk.inj ran).2
    exact ⟨.service reached made, rfl⟩

/-- Steps that emit something for each element of a list. -/
theorem forEach {α : Type} {step : Session Journal → α → Outcome Journal Unit} {items : List α}
    (rootOf : α → Declaration)
    (each : ∀ item ∈ items, ∀ done session after, Reaches done session →
      step session item = (.ok (), after) →
      Reaches (done ++ [⟨session.known, rootOf item⟩]) after ∧ after.known = session.known)
    (reached : Reaches done session) (ran : session.forEach step items = (.ok (), after)) :
    Reaches (done ++ (items.map rootOf).map (.mk session.known)) after ∧
      after.known = session.known := by
  induction items generalizing done session with
  | nil =>
    obtain rfl := (Prod.mk.inj ran).2
    rw [List.map_nil, List.map_nil, List.append_nil]
    exact ⟨reached, rfl⟩
  | cons item rest ih =>
    obtain ⟨eachFirst, eachRest⟩ := List.forall_mem_cons.mp each
    obtain ⟨middle, first, later⟩ := andThen_eq_ok ran
    obtain ⟨emitted, known⟩ := eachFirst done session middle reached first
    obtain ⟨final, knownFinal⟩ := ih eachRest emitted later
    rw [known, List.append_assoc] at final
    exact ⟨final, knownFinal.trans known⟩

/-- Revising files one after the other. -/
theorem forEach_revise {patches : List Patch} (reached : Reaches done session)
    (revises : ∀ patch ∈ patches, session.Revises patch) :
    ∃ after, session.forEach Session.revise patches = (.ok (), after) ∧ Reaches done after ∧
      after.known = session.known := by
  induction patches generalizing session with
  | nil => exact ⟨session, rfl, reached, rfl⟩
  | cons patch rest ih =>
    obtain ⟨revisesFirst, revisesRest⟩ := List.forall_mem_cons.mp revises
    obtain ⟨text, content⟩ :=
      reached.recorded.exists_text (reached.notes_of_located revisesFirst.located)
    have readable : Store.read session.store patch.path = .ok text :=
      MemoryStore.read_eq_ok content
    have revised : session.revise patch =
        (.ok (), session.placed patch.path (patch.apply text)) := by
      rw [Session.revise, readable]
      exact put_eq_placed _ _ _
    obtain ⟨after, ran, final, known⟩ := ih (.revise reached revisesFirst content)
      fun other member => (revisesRest other member).placed _ _
    refine ⟨after, ?_, final, known⟩
    rw [forEach_cons, revised]
    exact ran

theorem patch {newTypes : List Declaration} (reached : Reaches done session)
    (known : ∀ declaration ∈ newTypes, declaration ∈ session.known.declarations)
    (ran : session.patch newTypes = (.ok (), after)) :
    Reaches done after ∧ after.known = session.known := by
  cases planned : session.references.plan newTypes with
  | error reason =>
    rw [patch_of_error planned] at ran
    cases (Prod.mk.inj ran).1
  | ok patches =>
    have revises := revises_of_plan known planned
    obtain ⟨final, revised, reachedFinal, knownFinal⟩ := reached.forEach_revise revises
    have noted : ∀ patch ∈ patches, Notes session.outputs patch.path :=
      fun patch member => reached.notes_of_located (revises patch member).located
    rw [patch_of_revise planned noted revised] at ran
    obtain rfl := (Prod.mk.inj ran).2
    exact ⟨reachedFinal, knownFinal⟩

/-- A file that is taken emits what registering it calls for. -/
theorem processFile {file : SchemaFile} (reached : Reaches done session)
    (ran : session.processFile file = (.ok (), after)) :
    let registration := session.known.register file.declarations
    let roots : SchemaFile := { file with declarations := registration.newRoots }
    Reaches (done ++ (roots.dataTypes ++ roots.services.map Declaration.service).map
      (.mk registration.known)) after ∧ after.known = registration.known := by
  rw [processFile_andThen] at ran
  dsimp only at ran ⊢
  obtain ⟨typed, types, rest⟩ := andThen_eq_ok ran
  obtain ⟨served, services, patching⟩ := andThen_eq_ok rest
  obtain ⟨reachedTypes, knownTypes⟩ := forEach id
    (fun root member _ _ _ reached => reached.emitType (mem_dataTypes.mp member).2)
    (reached.learn file.declarations) types
  obtain ⟨reachedServices, knownServices⟩ := forEach Declaration.service
    (fun service _ _ _ _ reached => reached.emitService) reachedTypes services
  have known := knownServices.trans knownTypes
  have newKnown : ∀ declaration ∈ (session.known.register file.declarations).newTypes,
      declaration ∈ served.known.declarations := by
    intro declaration isNew
    rw [known, KnownTypes.declarations_register]
    exact List.mem_append_right _ isNew
  obtain ⟨final, knownFinal⟩ := reachedServices.patch newKnown patching
  rw [knownTypes, List.map_id, List.append_assoc, ← List.map_append] at final
  exact ⟨final, knownFinal.trans known⟩

/-- Files that are taken emit what registering them calls for. -/
theorem processFiles {files : List SchemaFile} (reached : Reaches done session)
    (ran : session.processFiles files = (.ok (), after)) :
    Reaches (done ++ emissions session.known files) after ∧
      after.known = session.known.registerFiles files := by
  induction files generalizing done session with
  | nil =>
    obtain rfl := (Prod.mk.inj ran).2
    rw [emissions, List.append_nil]
    exact ⟨reached, rfl⟩
  | cons file rest ih =>
    obtain ⟨middle, first, later⟩ := andThen_eq_ok ran
    obtain ⟨reachedFirst, known⟩ := reached.processFile first
    obtain ⟨final, knownFinal⟩ := ih reachedFirst later
    rw [known, List.append_assoc] at final
    rw [known] at knownFinal
    exact ⟨final, knownFinal⟩

end Reaches

/-- A run that succeeds has a history, which its journal tells. -/
theorem exists_history {files : List SchemaFile} {session : Session MemoryStore}
    (ran : processFiles { store := ({} : MemoryStore) } files = (.ok (), session)) :
    ∃ logged : Session Journal, Reaches (emissions .initial files) logged ∧
      logged.store = journalOf files ∧ session.store = logged.store.store ∧
      session.known = logged.known ∧ session.known = KnownTypes.initial.registerFiles files := by
  obtain ⟨logged, loggedRan, isJournal, stored, known, -⟩ := exists_journal_run ran
  obtain ⟨reached, registered⟩ := Reaches.start.processFiles loggedRan
  exact ⟨logged, reached, isJournal, stored, known, known.trans registered⟩

end Session

end Typescribe
