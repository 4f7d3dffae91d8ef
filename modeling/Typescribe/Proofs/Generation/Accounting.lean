import Typescribe.Proofs.Generation.Collisions
import Typescribe.Proofs.Generation.Regeneration
import Typescribe.Proofs.Path

/-!
# The report accounts for every file

Schema files are taken one after the other, also after failures, into a store that may hold
anything. Each file gets as far as its first module that cannot be written. The report lists every
path that something was generated for, once and in order of first generation: as unchanged if the
run never wrote to it, and as written otherwise. No other path is touched.
-/

namespace Typescribe

open TypeScript (Module)

/-- Paths in order, each where it came first and as it was spelled there. -/
def Path.enterAll (entered paths : List Path) : List Path :=
  paths.foldl (fun entered path => enter path entered) entered

theorem Path.enterAll_append (entered first second : List Path) :
    enterAll entered (first ++ second) = enterAll (enterAll entered first) second :=
  List.foldl_append

/-- The paths that an emission generates files for. -/
def Emission.paths (emission : Emission) : List Path :=
  emission.drafts.map Prod.fst

namespace Emission

theorem paths_of_error {emission : Emission} {reason : GenerationError}
    (failed : emission.module? = .error reason) : emission.paths = [] := by
  rw [paths, drafts, failed, List.map_nil]

theorem paths_of_typeModule {known : KnownTypes} {root : Declaration} {item : Module}
    (data : root.isService = false) (written : known.typeModule root = .ok item) :
    (⟨known, root⟩ : Emission).paths = [root.type.moduleFile] := by
  rw [paths, drafts_of_typeModule data written, List.map_singleton]

theorem paths_of_serviceModule {known : KnownTypes} {service : Service} {item : Module}
    (written : known.serviceModule service = .ok item) :
    (⟨known, .service service⟩ : Emission).paths =
      [service.type.moduleFile] ++ [Service.clientFile service.type] := by
  rw [paths, drafts_of_serviceModule written, List.map_cons, List.map_singleton,
    List.singleton_append]

end Emission

/-- What taking a schema file calls for: the modules of its new types and then those of its new
services. -/
def KnownTypes.calledFor (known : KnownTypes) (file : SchemaFile) : List Emission :=
  let registration := known.register file.declarations
  let roots : SchemaFile := { file with declarations := registration.newRoots }
  (roots.dataTypes ++ roots.services.map Declaration.service).map (.mk registration.known)

/-- What is emitted when schema files are taken one after the other, also after failures: of each
file, the modules before the first one that cannot be written. -/
def attempts (known : KnownTypes) : List SchemaFile → List Emission
  | [] => []
  | file :: rest =>
    ((known.calledFor file).takeWhile fun emission => emission.module?.isOk) ++
      attempts (known.register file.declarations).known rest

/-- The paths that something is generated for when schema files are taken one after the other, in
order of first generation. -/
def generatedPaths (files : List SchemaFile) : List Path :=
  Path.enterAll [] ((attempts .initial files).flatMap Emission.paths)

namespace Session

variable {σ : Type}

section

variable [Store σ]

/-- Generates the module of a top-level declaration. -/
def emit (session : Session σ) : Declaration → Outcome σ Unit
  | .service service => session.emitService service
  | root => session.emitType root

theorem emit_of_data (session : Session σ) {root : Declaration} (data : root.isService = false) :
    session.emit root = session.emitType root := by
  cases root with
  | record head nested => rfl
  | enumeration body => rfl
  | service body => cases data

end

theorem forEach_append {α : Type} (step : Session σ → α → Outcome σ Unit) (session : Session σ)
    (first second : List α) :
    session.forEach step (first ++ second) =
      andThen (session.forEach step first) fun session => session.forEach step second := by
  induction first generalizing session with
  | nil => rfl
  | cons item rest ih =>
    rw [List.cons_append, forEach_cons, forEach_cons]
    rcases step session item with ⟨reason | _, after⟩
    · rfl
    · exact ih after

theorem forEach_congr {α : Type} {step other : Session σ → α → Outcome σ Unit} {items : List α}
    (agree : ∀ item ∈ items, ∀ session, step session item = other session item)
    (session : Session σ) : session.forEach step items = session.forEach other items := by
  induction items generalizing session with
  | nil => rfl
  | cons item rest ih =>
    obtain ⟨agreeFirst, agreeRest⟩ := List.forall_mem_cons.mp agree
    rw [forEach_cons, forEach_cons, agreeFirst]
    rcases other session item with ⟨reason | _, after⟩
    · rfl
    · exact ih agreeRest after

theorem forEach_map {α β : Type} (step : Session σ → β → Outcome σ Unit) (view : α → β)
    (items : List α) (session : Session σ) :
    session.forEach step (items.map view) =
      session.forEach (fun session item => step session (view item)) items := by
  induction items generalizing session with
  | nil => rfl
  | cons item rest ih =>
    rw [List.map_cons, forEach_cons, forEach_cons]
    rcases step session (view item) with ⟨reason | _, after⟩
    · rfl
    · exact ih after

theorem andThen_assoc (outcome : Outcome σ Unit) (next later : Session σ → Outcome σ Unit) :
    andThen (andThen outcome next) later =
      andThen outcome fun session => andThen (next session) later := by
  rcases outcome with ⟨reason | _, session⟩
  · rfl
  · rfl

/-- Taking a file is emitting what it calls for, and patching. -/
theorem processFile_emit [Store σ] (session : Session σ) (file : SchemaFile) :
    session.processFile file =
      andThen (forEach emit
          { session with known := (session.known.register file.declarations).known }
          ((session.known.calledFor file).map Emission.root))
        fun after => after.patch (session.known.register file.declarations).newTypes := by
  let roots : SchemaFile :=
    { file with declarations := (session.known.register file.declarations).newRoots }
  have types (session : Session σ) :
      session.forEach emitType roots.dataTypes = session.forEach emit roots.dataTypes :=
    forEach_congr (fun _ member session =>
      (session.emit_of_data (mem_dataTypes.mp member).2).symm) session
  have services (session : Session σ) : session.forEach emitService roots.services =
      session.forEach emit (roots.services.map .service) :=
    (forEach_map emit .service roots.services session).symm
  have called : (session.known.calledFor file).map Emission.root =
      roots.dataTypes ++ roots.services.map .service := by
    rw [KnownTypes.calledFor, List.map_map]
    exact List.map_id _
  rw [processFile_andThen, called, forEach_append, andThen_assoc, ← types]
  simp only [← services]
  rfl

variable {session middle after : Session MemoryStore} {root : Declaration} {paths more : List Path}

/-- The store holds every output, and the modules that are known are among the outputs. -/
structure Stocked (session : Session MemoryStore) : Prop where
  held : ∀ path ∈ session.outputs.map Prod.fst, (session.store.get? path).isSome = true
  located : ∀ entry ∈ session.references.modules, Notes session.outputs entry.2

/-- A session goes on to another one, entering paths among the outputs and learning nothing. -/
structure Enters (session after : Session MemoryStore) (paths : List Path) : Prop where
  known : after.known = session.known
  outputs : after.outputs.map Prod.fst = Path.enterAll (session.outputs.map Prod.fst) paths
  stocked : after.Stocked

namespace Enters

theorem refl (stocked : session.Stocked) : Enters session session [] :=
  ⟨rfl, rfl, stocked⟩

theorem trans (first : Enters session middle paths) (second : Enters middle after more) :
    Enters session after (paths ++ more) where
  known := second.known.trans first.known
  outputs := by rw [second.outputs, first.outputs, Path.enterAll_append]
  stocked := second.stocked

end Enters

namespace Stocked

theorem withKnown (stocked : session.Stocked) (known : KnownTypes) :
    Stocked { session with known } :=
  ⟨stocked.held, stocked.located⟩

/-- Putting a text enters its path. -/
theorem put (stocked : session.Stocked) (path : Path) (text : String) :
    ∃ after, session.put path text = (.ok (), after) ∧ Enters session after [path] ∧
      after.references = session.references ∧ Notes after.outputs path ∧
      ∀ other, Notes session.outputs other → Notes after.outputs other := by
  rw [Session.put, MemoryStore.writeIfChanged_eq]
  refine ⟨_, rfl, ⟨rfl, paths_noteOutput _ _ _, ?_, ?_⟩, rfl, notes_noteOutput_self _ _ _,
    fun _ noted => noted.noteOutput _ _⟩
  · intro other member
    rw [note, paths_noteOutput] at member
    rcases Path.mem_of_mem_enter member with rfl | member
    · rw [note, MemoryStore.get?_put_self]
      rfl
    · exact MemoryStore.isSome_get?_put (stocked.held other member) path text
  · exact fun entry listed => (stocked.located entry listed).noteOutput _ _

theorem write (stocked : session.Stocked) (path : Path) (item : Module) :
    ∃ after, session.write path item = (.ok (), after) ∧ Enters session after [path] ∧
      Notes after.outputs path := by
  obtain ⟨after, placed, entered, -, noted, -⟩ := stocked.put path item.render
  exact ⟨after, placed, entered, noted⟩

theorem emitType (stocked : session.Stocked) (data : root.isService = false) :
    (session.emitType root).1.isOk = (⟨session.known, root⟩ : Emission).module?.isOk ∧
      Enters session (session.emitType root).2 (⟨session.known, root⟩ : Emission).paths := by
  have recorded : Stocked { session with
      references := session.references.insertAll (session.known.placeholdersOf root.flatten) } :=
    ⟨stocked.held, by rw [References.modules_insertAll]; exact stocked.located⟩
  have isModule := @Emission.module?_of_data ⟨session.known, root⟩ data
  rw [Session.emitType]
  dsimp only
  cases made : session.known.typeModule root with
  | error reason =>
    rw [made] at isModule
    rw [Emission.paths_of_error isModule, isModule]
    exact ⟨rfl, rfl, rfl, recorded⟩
  | ok item =>
    obtain ⟨after, written, entered, noted⟩ := recorded.write root.type.moduleFile item
    rw [Emission.paths_of_typeModule data made, isModule, made]
    dsimp only
    rw [written]
    refine ⟨rfl, entered.known, entered.outputs, entered.stocked.held, ?_⟩
    intro entry listed
    rcases List.mem_cons.mp listed with rfl | listed
    · dsimp only
      exact noted
    · exact entered.stocked.located entry listed

theorem emitService (stocked : session.Stocked) (service : Service) :
    (session.emitService service).1.isOk =
        (⟨session.known, .service service⟩ : Emission).module?.isOk ∧
      Enters session (session.emitService service).2
        (⟨session.known, .service service⟩ : Emission).paths := by
  have isModule : (⟨session.known, .service service⟩ : Emission).module? =
      session.known.serviceModule service := rfl
  rw [Session.emitService]
  cases made : session.known.serviceModule service with
  | error reason =>
    rw [made] at isModule
    rw [Emission.paths_of_error isModule, isModule]
    exact ⟨rfl, .refl stocked⟩
  | ok item =>
    obtain ⟨middle, written, entered, -⟩ := stocked.write service.type.moduleFile item
    obtain ⟨final, client, enteredClient, -⟩ :=
      entered.stocked.write (Service.clientFile service.type) Service.clientModule
    rw [Emission.paths_of_serviceModule made, isModule, made]
    dsimp only
    rw [written]
    dsimp only
    rw [client]
    exact ⟨rfl, entered.trans enteredClient⟩

/-- Generating a module enters its files, or fails and enters nothing. -/
theorem emit (stocked : session.Stocked) (root : Declaration) :
    (session.emit root).1.isOk = (⟨session.known, root⟩ : Emission).module?.isOk ∧
      Enters session (session.emit root).2 (⟨session.known, root⟩ : Emission).paths := by
  cases data : root.isService with
  | true =>
    obtain ⟨service, rfl⟩ := Declaration.isService_iff.mp data
    exact stocked.emitService service
  | false =>
    rw [emit_of_data session data]
    exact stocked.emitType data

/-- Generating modules enters the files of those before the first that cannot be written. -/
theorem forEach_emit (stocked : session.Stocked) (roots : List Declaration) :
    Enters session (session.forEach Session.emit roots).2
      (((roots.map (.mk session.known)).takeWhile fun emission => emission.module?.isOk).flatMap
        Emission.paths) := by
  induction roots generalizing session with
  | nil => exact .refl stocked
  | cons root rest ih =>
    obtain ⟨result, entered⟩ := stocked.emit root
    rcases emitted : session.emit root with ⟨outcome, after⟩
    rw [emitted] at result entered
    rw [forEach_cons, emitted, List.map_cons, List.takeWhile_cons, ← result]
    cases outcome with
    | error reason =>
      have unwritten : (⟨session.known, root⟩ : Emission).paths = [] := by
        cases made : (⟨session.known, root⟩ : Emission).module? with
        | error fault => exact Emission.paths_of_error made
        | ok item =>
          rw [made] at result
          cases result
      rw [unwritten] at entered
      exact entered
    | ok done =>
      have later := ih entered.stocked
      rw [entered.known] at later
      exact entered.trans later

theorem revise (stocked : session.Stocked) {patch : Patch}
    (noted : Notes session.outputs patch.path) :
    ∃ after, session.revise patch = (.ok (), after) ∧ Enters session after [] ∧
      after.references = session.references ∧
      ∀ other, Notes session.outputs other → Notes after.outputs other := by
  obtain ⟨spelled, member, same⟩ := noted
  obtain ⟨text, content⟩ := Option.isSome_iff_exists.mp (stocked.held spelled member)
  rw [MemoryStore.get?_congr same] at content
  obtain ⟨after, placed, entered, references, -, kept⟩ :=
    stocked.put patch.path (patch.apply text)
  rw [Session.revise, MemoryStore.read_eq_ok content]
  refine ⟨after, placed, ⟨entered.known, ?_, entered.stocked⟩, references, kept⟩
  rw [entered.outputs]
  exact Path.enter_eq_self ⟨spelled, member, same⟩

theorem forEach_revise {patches : List Patch} (stocked : session.Stocked)
    (noted : ∀ patch ∈ patches, Notes session.outputs patch.path) :
    ∃ after, session.forEach Session.revise patches = (.ok (), after) ∧
      Enters session after [] := by
  induction patches generalizing session with
  | nil => exact ⟨session, rfl, .refl stocked⟩
  | cons patch rest ih =>
    obtain ⟨notedFirst, notedRest⟩ := List.forall_mem_cons.mp noted
    obtain ⟨middle, revised, entered, -, kept⟩ := stocked.revise notedFirst
    obtain ⟨after, later, enteredRest⟩ :=
      ih entered.stocked fun other member => kept _ (notedRest other member)
    rw [forEach_cons, revised]
    exact ⟨after, later, entered.trans enteredRest⟩

/-- Patching enters nothing. -/
theorem patch (stocked : session.Stocked) (newTypes : List Declaration) :
    Enters session (session.patch newTypes).2 [] := by
  cases planned : session.references.plan newTypes with
  | error reason =>
    rw [patch_of_error planned]
    exact .refl stocked
  | ok patches =>
    have noted : ∀ patch ∈ patches, Notes session.outputs patch.path := by
      intro patch member
      obtain ⟨declaring, -, -, file⟩ := References.path_of_mem_plan planned member
      exact stocked.located (declaring.root, patch.path) (References.mem_modules_of_module? file)
    obtain ⟨after, revised, entered⟩ := stocked.forEach_revise noted
    rw [patch_of_revise planned noted revised]
    exact entered

/-- Taking a file enters what it comes to emit, whether or not it fails. -/
theorem processFile (stocked : session.Stocked) (file : SchemaFile) :
    let after := (session.processFile file).2
    after.known = (session.known.register file.declarations).known ∧ after.Stocked ∧
      after.outputs.map Prod.fst = Path.enterAll (session.outputs.map Prod.fst)
        (((session.known.calledFor file).takeWhile fun emission => emission.module?.isOk).flatMap
          Emission.paths) := by
  have emitted := (stocked.withKnown
    (session.known.register file.declarations).known).forEach_emit
      ((session.known.calledFor file).map Emission.root)
  have called : ((session.known.calledFor file).map Emission.root).map
      (.mk (session.known.register file.declarations).known) = session.known.calledFor file := by
    rw [KnownTypes.calledFor, List.map_map, List.map_map]
    rfl
  rw [called] at emitted
  rw [processFile_emit]
  dsimp only
  rcases ran : Session.forEach Session.emit
    { session with known := (session.known.register file.declarations).known }
    ((session.known.calledFor file).map Emission.root) with ⟨reason | _, after⟩
  all_goals rw [ran] at emitted
  · exact ⟨emitted.known, emitted.stocked, emitted.outputs⟩
  · have patched := emitted.stocked.patch (session.known.register file.declarations).newTypes
    exact ⟨patched.known.trans emitted.known, patched.stocked,
      patched.outputs.trans emitted.outputs⟩

/-- Taking files enters what they come to emit. -/
theorem processEach (stocked : session.Stocked) (files : List SchemaFile) :
    (session.processEach files).2.Stocked ∧
      (session.processEach files).2.outputs.map Prod.fst =
        Path.enterAll (session.outputs.map Prod.fst)
          ((attempts session.known files).flatMap Emission.paths) := by
  induction files generalizing session with
  | nil => exact ⟨stocked, rfl⟩
  | cons file rest ih =>
    obtain ⟨known, stockedFirst, outputs⟩ := stocked.processFile file
    obtain ⟨stockedRest, outputsRest⟩ := ih stockedFirst
    refine ⟨stockedRest, ?_⟩
    rw [known, outputs, ← Path.enterAll_append, ← List.flatMap_append] at outputsRest
    exact outputsRest

end Stocked

/-- A journal over what a store held before, beside the store itself. The outputs tell which paths
were written to, and every path has what was written to it last, or else what it had. -/
structure Tallies (before : MemoryStore) (journal : Journal) (outputs : List (Path × WriteOutcome))
    (store : MemoryStore) (others : List (Path × WriteOutcome)) : Prop where
  store_eq : store = journal.store
  outputs_eq : others = outputs
  apart : (outputs.map Prod.fst).Pairwise fun first second => first.same second = false
  held : ∀ path ∈ outputs.map Prod.fst, (journal.store.get? path).isSome = true
  /-- Whatever was written to is an output. -/
  noted : ∀ path, journal.writesAt path ≠ [] → Notes outputs path
  texts : ∀ path, journal.store.get? path =
    (journal.writesAt path).getLast?.or (before.get? path)
  /-- The files of the store are in order of first writing, behind those that it held. -/
  order : journal.store.paths = Path.enterAll before.paths (journal.entries.map Prod.fst)
  outcomes : ∀ output ∈ outputs, output.2 = .unchanged ↔ journal.writesAt output.1 = []

namespace Tallies

variable {before store : MemoryStore} {journal : Journal}
  {outputs others : List (Path × WriteOutcome)}

theorem exists_text (tallies : Tallies before journal outputs store others) {path : Path}
    (noted : Notes outputs path) : ∃ text, journal.store.get? path = some text := by
  obtain ⟨spelled, member, same⟩ := noted
  rw [← Option.isSome_iff_exists, ← MemoryStore.get?_congr same]
  exact tallies.held spelled member

/-- One more text in the journal. -/
theorem put (tallies : Tallies before journal outputs store others) (path : Path) (text : String) :
    let outcome : WriteOutcome :=
      if journal.store.get? path = some text then .unchanged else .written
    Tallies before (journal.receive path text) (noteOutput path outcome outputs)
      (store.put path text) (noteOutput path outcome others) where
  store_eq := by rw [tallies.store_eq, Journal.store_receive]
  outputs_eq := by rw [tallies.outputs_eq]
  apart := by
    rw [paths_noteOutput]
    exact Path.pairwise_enter tallies.apart path
  held other member := by
    rw [paths_noteOutput] at member
    rw [Journal.store_receive]
    rcases Path.mem_of_mem_enter member with rfl | member
    · rw [MemoryStore.get?_put_self]
      rfl
    · exact MemoryStore.isSome_get?_put (tallies.held other member) path text
  noted other written := by
    by_cases same : path.same other = true
    · obtain ⟨spelled, member, samePath⟩ := notes_noteOutput_self path
        (if journal.store.get? path = some text then .unchanged else .written) outputs
      exact ⟨spelled, member, by rw [Path.same_congr_left samePath, same]⟩
    · rw [Journal.writesAt_receive, if_neg fun changed => same changed.1,
        List.append_nil] at written
      exact (tallies.noted other written).noteOutput _ _
  texts other := by
    rw [Journal.writesAt_receive, Journal.store_receive, MemoryStore.get?_put]
    by_cases same : path.same other = true
    · rw [if_pos same]
      by_cases content : journal.store.get? path = some text
      · rw [if_neg fun changed => changed.2 content, List.append_nil, ← tallies.texts,
          ← MemoryStore.get?_congr same, content]
      · rw [if_pos ⟨same, content⟩, List.getLast?_concat, Option.some_or]
    · rw [if_neg same, if_neg fun changed => same changed.1, List.append_nil, tallies.texts]
  order := by
    rw [Journal.receive]
    split
    · exact tallies.order
    · rw [MemoryStore.paths_put, List.map_append, Path.enterAll_append, tallies.order]
      rfl
  outcomes output member := by
    rw [Journal.writesAt_receive]
    rcases of_mem_noteOutput tallies.apart member with
      ⟨absent, rfl⟩ | ⟨same, old, listed, isNow⟩ | ⟨different, listed⟩
    · -- The first time the path is noted: nothing was written to it before.
      have unwritten : journal.writesAt path = [] :=
        by_contra fun written => absent (tallies.noted path written)
      by_cases content : journal.store.get? path = some text
      · simp [unwritten, content]
      · simp [unwritten, content]
    · have earlier := tallies.outcomes _ listed
      rw [isNow, Path.same_comm, same]
      by_cases content : journal.store.get? path = some text
      · simpa [content] using earlier
      · simp [content]
    · rw [Path.same_comm, different]
      simpa using tallies.outcomes output listed

theorem lasting (before : MemoryStore) : Lasting (Tallies before) where
  noted tallies := by rw [tallies.outputs_eq]
  read tallies path _ noted := by
    obtain ⟨text, content⟩ := tallies.exists_text noted
    have readable := MemoryStore.read_eq_ok content
    exact ⟨text, readable, tallies.store_eq ▸ readable⟩
  write {journal _ _ _} tallies path _ text := by
    have written := MemoryStore.writeIfChanged_eq journal.store path text
    rw [← tallies.store_eq] at written
    exact ⟨_, _, _, _, Journal.writeIfChanged_eq journal path text, written,
      tallies.store_eq ▸ tallies.put path text⟩

theorem start (before : MemoryStore) :
    Abreast (Tallies before) { store := (⟨before, []⟩ : Journal) } { store := before } where
  known := rfl
  references := rfl
  located _ member := absurd member List.not_mem_nil
  related :=
    { store_eq := rfl
      outputs_eq := rfl
      apart := List.Pairwise.nil
      held := fun _ member => absurd member List.not_mem_nil
      noted := fun _ written => absurd rfl written
      texts := fun _ => rfl
      order := rfl
      outcomes := fun _ member => absurd member List.not_mem_nil }

/-- What was never written to is as it was. -/
theorem get?_eq_before (tallies : Tallies before journal outputs store others) {path : Path}
    (unwritten : journal.writesAt path = []) : store.get? path = before.get? path := by
  rw [tallies.store_eq, tallies.texts, unwritten, List.getLast?_nil, Option.none_or]

/-- Over an empty store, everything that is noted was written. -/
theorem writesAt_ne_nil (tallies : Tallies {} journal outputs store others) {path : Path}
    (member : path ∈ outputs.map Prod.fst) : journal.writesAt path ≠ [] := by
  intro unwritten
  have held := tallies.held path member
  rw [tallies.texts, unwritten] at held
  cases held

end Tallies

end Session

/-- The journal of taking schema files one after the other, also after failures, into a store. -/
def journalOver (before : MemoryStore) (files : List SchemaFile) : Journal :=
  (Session.processEach { store := (⟨before, []⟩ : Journal) } files).2.store

/-- What a run came to, as its journal and its outputs tell. -/
theorem processEach_tallies (before : MemoryStore) (files : List SchemaFile) :
    let taken := Session.processEach { store := before } files
    (Session.processEach { store := (⟨before, []⟩ : Journal) } files).1 = taken.1 ∧
      Session.Tallies before (journalOver before files) taken.2.outputs taken.2.store
        taken.2.outputs ∧
      taken.2.outputs.map Prod.fst = generatedPaths files := by
  have stocked : Session.Stocked { store := before } :=
    ⟨fun _ member => absurd member List.not_mem_nil, fun _ member => absurd member List.not_mem_nil⟩
  obtain ⟨results, abreast⟩ :=
    (Session.Tallies.start before).processEach (Session.Tallies.lasting before) files
  have tallies := abreast.related
  rw [← tallies.outputs_eq] at tallies
  exact ⟨results.symm, tallies, (stocked.processEach files).2⟩

/-- Paths that are told apart are shown differently, whichever of them are listed first. -/
theorem nodup_shown {paths : List Path}
    (apart : paths.Pairwise fun first second => first.same second = false) (first : Path → Bool) :
    ((paths.filter fun path => !first path).map Path.shown ++
      (paths.filter first).map Path.shown).Nodup := by
  rw [List.nodup_append_comm, ← List.map_append]
  exact ((List.filter_append_perm first paths).map Path.shown).nodup_iff.mpr
    (Path.nodup_map_shown apart)

/-- Over an empty store, the outputs are its files. -/
theorem generatedPaths_eq_paths (files : List SchemaFile) :
    generatedPaths files =
      (Session.processEach { store := ({} : MemoryStore) } files).2.store.paths := by
  obtain ⟨-, -, paths⟩ := processEach_tallies {} files
  obtain ⟨-, abreast⟩ := Journal.Keeps.start.processEach Journal.Keeps.lasting files
  have keeps := abreast.related
  rw [← paths, keeps.outputs_eq, keeps.store_eq]
  exact keeps.recorded.noted

/-- Schema files are taken one after the other, also after failures, into a store that holds
anything at all, and the journal tells what was written. The report succeeds and lists each path
that something was generated for once, in order of first generation: as unchanged exactly if
nothing was written to it, and then it has the text that it had. Any other path was not written to
and has what it had. Over an empty store, the listed paths are its files in order of first writing,
and all are listed as written. -/
theorem report_accounts (before : MemoryStore) (files : List SchemaFile) :
    let taken := Session.processEach { store := before } files
    let journal := journalOver before files
    let listed := generatedPaths files
    (Session.processEach { store := (⟨before, []⟩ : Journal) } files).1 = taken.1 ∧
    journal.store = taken.2.store ∧
    (∃ summary, taken.2.finish = .ok summary ∧
      summary.written =
        (listed.filter fun path => !(journal.writesAt path).isEmpty).map Path.shown ∧
      summary.unchanged =
        (listed.filter fun path => (journal.writesAt path).isEmpty).map Path.shown ∧
      (summary.written ++ summary.unchanged).Nodup ∧
      (before = {} → summary.unchanged = [] ∧ listed = taken.2.store.paths ∧
        taken.2.store.paths = Path.enterAll [] (journal.entries.map Prod.fst))) ∧
    (∀ path ∈ listed, journal.writesAt path = [] →
      ∃ text, taken.2.store.get? path = some text ∧ before.get? path = some text) ∧
    ∀ path, (∀ held ∈ listed, held.same path = false) →
      journal.writesAt path = [] ∧ taken.2.store.get? path = before.get? path := by
  obtain ⟨results, tallies, paths⟩ := processEach_tallies before files
  have bare : before = {} → generatedPaths files =
      (Session.processEach { store := before } files).2.store.paths := by
    rintro rfl
    exact generatedPaths_eq_paths files
  dsimp only
  generalize Session.processEach { store := before } files = taken at *
  generalize journalOver before files = journal at *
  have unchanged : Session.listed .unchanged taken.2.outputs =
      ((generatedPaths files).filter fun path => (journal.writesAt path).isEmpty).map
        Path.shown := by
    rw [← paths]
    refine Session.listed_eq fun output member => ?_
    rw [List.isEmpty_iff]
    exact tallies.outcomes output member
  have written : Session.listed .written taken.2.outputs =
      ((generatedPaths files).filter fun path => !(journal.writesAt path).isEmpty).map
        Path.shown := by
    rw [← paths]
    refine Session.listed_eq fun output member => ?_
    rw [Bool.not_eq_true', ← Bool.not_eq_true, List.isEmpty_iff, ← tallies.outcomes output member]
    cases output.2 <;> simp
  have held := tallies.held
  rw [← tallies.store_eq] at held
  refine ⟨results, tallies.store_eq.symm, ⟨_, Session.summarize_eq_ok held, written, unchanged,
    ?_, ?_⟩, fun path member unwritten => ?_, fun path unlisted => ?_⟩
  · rw [unchanged, written]
    exact nodup_shown (paths ▸ tallies.apart) _
  · rintro rfl
    refine ⟨?_, bare rfl, tallies.store_eq ▸ tallies.order⟩
    rw [unchanged, List.map_eq_nil_iff, List.filter_eq_nil_iff, ← paths]
    intro path member
    rw [List.isEmpty_iff]
    exact tallies.writesAt_ne_nil member
  · rw [← paths] at member
    obtain ⟨text, content⟩ := Option.isSome_iff_exists.mp (held path member)
    exact ⟨text, content, tallies.get?_eq_before unwritten ▸ content⟩
  · have unwritten : journal.writesAt path = [] := by
      by_contra written
      obtain ⟨spelled, member, same⟩ := tallies.noted path written
      rw [unlisted spelled (paths ▸ member)] at same
      cases same
    exact ⟨unwritten, tallies.get?_eq_before unwritten⟩

/-- A service that answers with an unknown type ends its file, and the next file is taken. -/
example :
    let hatch : Rpc :=
      { name := "Hatch", requestType := ⟨"dinos.Egg"⟩, responseType := ⟨"dinos.Rex"⟩ }
    let egg : Declaration := .record { type := ⟨"dinos.Egg"⟩ } []
    let files : List SchemaFile :=
      [{ name := "egg"
         declarations := [egg, .service { type := ⟨"dinos.Hatchery"⟩, rpcs := [hatch] }] },
       { name := "nest", declarations := [.record { type := ⟨"dinos.Nest"⟩ } [], egg] }]
    (Session.processEach { store := ({} : MemoryStore) } files).1.map Except.isOk =
        [false, true] ∧
      (generatedPaths files).map Path.shown = ["dinos/Egg.ts", "dinos/Nest.ts"] := by
  decide +kernel

end Typescribe
