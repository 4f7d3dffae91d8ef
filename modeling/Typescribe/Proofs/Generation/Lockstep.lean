import Typescribe.Proofs.Generation.Steps

/-!
# Sessions side by side

All that a session does to its store is to put texts at paths, each noted among the outputs, and
to read back what it noted. So two sessions over different stores do the same as long as what they
noted reads the same in both. A relation between the two stores and their outputs that survives
putting one text survives whole runs, and the runs give the same results, failures included. It is
enough that texts can be put where the generated files are.
-/

namespace Typescribe.Session

variable {σ τ α : Type}

/-- The path is among the outputs, in some spelling. -/
def Notes (outputs : List (Path × WriteOutcome)) (path : Path) : Prop :=
  ∃ held ∈ outputs.map Prod.fst, held.same path = true

theorem notes_noteOutput_self (path : Path) (outcome : WriteOutcome)
    (outputs : List (Path × WriteOutcome)) : Notes (noteOutput path outcome outputs) path := by
  rw [Notes, paths_noteOutput]
  exact Path.exists_mem_enter path _

theorem Notes.noteOutput {outputs : List (Path × WriteOutcome)} {path : Path}
    (noted : Notes outputs path) (other : Path) (outcome : WriteOutcome) :
    Notes (noteOutput other outcome outputs) path := by
  obtain ⟨held, member, same⟩ := noted
  rw [Notes, paths_noteOutput]
  exact ⟨held, Path.mem_enter_of_mem member other, same⟩

/-- Noting an output again as unchanged says nothing new. -/
theorem noteOutput_unchanged {outputs : List (Path × WriteOutcome)} {path : Path}
    (noted : Notes outputs path) : noteOutput path .unchanged outputs = outputs := by
  induction outputs with
  | nil =>
    obtain ⟨held, member, -⟩ := noted
    exact absurd member List.not_mem_nil
  | cons output rest ih =>
    rw [Session.noteOutput]
    split
    · rw [if_neg (by decide)]
    next different =>
      obtain ⟨held, member, same⟩ := noted
      rcases List.mem_cons.mp member with rfl | member
      · exact absurd same different
      · rw [ih ⟨held, member, same⟩]

/-- What is noted of each output when one more text was put. -/
theorem of_mem_noteOutput {path : Path} {outcome : WriteOutcome} {output : Path × WriteOutcome}
    {outputs : List (Path × WriteOutcome)}
    (apart : (outputs.map Prod.fst).Pairwise fun first second => first.same second = false)
    (member : output ∈ noteOutput path outcome outputs) :
    (¬ Notes outputs path ∧ output = (path, outcome)) ∨
      (output.1.same path = true ∧ ∃ old, (output.1, old) ∈ outputs ∧
        output.2 = if outcome = .written then .written else old) ∨
      (output.1.same path = false ∧ output ∈ outputs) := by
  induction outputs with
  | nil =>
    refine .inl ⟨?_, List.mem_singleton.mp member⟩
    rintro ⟨held, listed, -⟩
    exact absurd listed List.not_mem_nil
  | cons first rest ih =>
    obtain ⟨apartFirst, apartRest⟩ := List.pairwise_cons.mp apart
    rw [noteOutput] at member
    split at member
    next same =>
      rcases List.mem_cons.mp member with rfl | member
      · exact .inr (.inl ⟨same, first.2, List.mem_cons_self, rfl⟩)
      · refine .inr (.inr ⟨?_, List.mem_cons_of_mem first member⟩)
        rw [Path.same_comm, ← Path.same_congr_left same]
        exact apartFirst output.1 (List.mem_map_of_mem member)
    next different =>
      rcases List.mem_cons.mp member with rfl | member
      · exact .inr (.inr ⟨Bool.not_eq_true _ ▸ different, List.mem_cons_self⟩)
      · rcases ih apartRest member with
          ⟨absent, isNew⟩ | ⟨same, old, listed, noted⟩ | ⟨other, listed⟩
        · refine .inl ⟨?_, isNew⟩
          rintro ⟨held, listed, same⟩
          rcases List.mem_cons.mp listed with rfl | listed
          · exact different same
          · exact absent ⟨held, listed, same⟩
        · exact .inr (.inl ⟨same, old, List.mem_cons_of_mem first listed, noted⟩)
        · exact .inr (.inr ⟨other, List.mem_cons_of_mem first listed⟩)

theorem andThen_eq_ok {outcome : Outcome σ Unit} {next : Session σ → Outcome σ Unit}
    {after : Session σ} (done : andThen outcome next = (.ok (), after)) :
    ∃ middle, outcome = (.ok (), middle) ∧ next middle = (.ok (), after) := by
  rcases outcome with ⟨reason | _, middle⟩
  · cases (Prod.mk.inj done).1
  · exact ⟨middle, rfl, done⟩

/-- Steps that agree agree together with what follows. -/
theorem andThen_agree {related : Session σ → Session τ → Prop} {first : Outcome σ Unit}
    {second : Outcome τ Unit} {next : Session σ → Outcome σ Unit}
    {other : Session τ → Outcome τ Unit} (agree : Agree related first second)
    (later : ∀ left right, related left right → Agree related (next left) (other right)) :
    Agree related (andThen first next) (andThen second other) := by
  obtain ⟨result, left, right, rfl, rfl, after⟩ := agree.exists_answer
  cases result with
  | error reason => exact ⟨rfl, after⟩
  | ok done => exact later left right after

/-- Steps over a list agree if each does. -/
theorem forEach_agree {related : Session σ → Session τ → Prop}
    {step : Session σ → α → Outcome σ Unit} {other : Session τ → α → Outcome τ Unit}
    {items : List α} {left : Session σ} {right : Session τ}
    (each : ∀ item ∈ items, ∀ left right, related left right →
      Agree related (step left item) (other right item)) (start : related left right) :
    Agree related (left.forEach step items) (right.forEach other items) := by
  induction items generalizing left right with
  | nil => exact ⟨rfl, start⟩
  | cons item rest ih =>
    obtain ⟨first, later⟩ := List.forall_mem_cons.mp each
    rw [forEach_cons, forEach_cons]
    exact andThen_agree (first left right start) fun _ _ after => ih later after

section

variable [Store σ]

/-- Puts a text at a path unless exactly that is there, and notes the path. -/
def put (session : Session σ) (path : Path) (text : String) : Outcome σ Unit :=
  match Store.writeIfChanged session.store path text with
  | (.error fault, store) => (.error (.write path fault), { session with store })
  | (.ok outcome, store) => (.ok (), { session with store }.note path outcome)

/-- Makes the replacements of one patch. -/
def revise (session : Session σ) (patch : Patch) : Outcome σ Unit :=
  match Store.read session.store patch.path with
  | .error fault => (.error (.read patch.path fault), session)
  | .ok text => session.put patch.path (patch.apply text)

theorem put_eq_ok {session after : Session σ} {path : Path} {text : String}
    (done : session.put path text = (.ok (), after)) :
    ∃ outcome store, Store.writeIfChanged session.store path text = (.ok outcome, store) ∧
      after = { session with store }.note path outcome := by
  rw [put] at done
  split at done
  · cases (Prod.mk.inj done).1
  next outcome store written => exact ⟨outcome, store, written, (Prod.mk.inj done).2.symm⟩

theorem revise_eq_ok {session after : Session σ} {patch : Patch}
    (done : session.revise patch = (.ok (), after)) :
    ∃ text, Store.read session.store patch.path = .ok text ∧
      session.put patch.path (patch.apply text) = (.ok (), after) := by
  rw [revise] at done
  split at done
  · cases (Prod.mk.inj done).1
  next text readable => exact ⟨text, readable, done⟩

/-- Patches can be made one file at a time, each file noted at once. -/
theorem applyPatches_of_revise {patches : List Patch} {session after : Session σ}
    (noted : ∀ patch ∈ patches, Notes session.outputs patch.path)
    (revised : session.forEach revise patches = (.ok (), after)) :
    ∃ changed, References.applyPatches session.store patches = (.ok changed, after.store) ∧
      changed.foldl (fun session path => session.note path .written)
        { session with store := after.store } = after := by
  induction patches generalizing session with
  | nil =>
    obtain rfl := (Prod.mk.inj revised).2
    exact ⟨[], rfl, rfl⟩
  | cons patch rest ih =>
    obtain ⟨middle, first, later⟩ := andThen_eq_ok revised
    obtain ⟨text, readable, placed⟩ := revise_eq_ok first
    obtain ⟨outcome, store, written, rfl⟩ := put_eq_ok placed
    obtain ⟨notedFirst, notedRest⟩ := List.forall_mem_cons.mp noted
    obtain ⟨changed, patched, folded⟩ :=
      ih (fun other member => (notedRest other member).noteOutput patch.path outcome) later
    have patchedFirst : References.applyPatch session.store patch = (.ok outcome, store) := by
      rw [References.applyPatch, readable]
      dsimp only
      rw [written]
    refine ⟨if outcome = .written then patch.path :: changed else changed, ?_, ?_⟩
    · rw [References.applyPatches, patchedFirst]
      dsimp only
      rw [show References.applyPatches store rest = _ from patched]
    · rw [note] at folded
      cases outcome with
      | written => exact folded
      | unchanged =>
        rw [noteOutput_unchanged notedFirst] at folded
        exact folded

/-- Replacing placeholders is revising the planned files one after the other. -/
theorem patch_of_revise {newTypes : List Declaration} {patches : List Patch}
    {session after : Session σ} (planned : session.references.plan newTypes = .ok patches)
    (noted : ∀ patch ∈ patches, Notes session.outputs patch.path)
    (revised : session.forEach revise patches = (.ok (), after)) :
    session.patch newTypes = (.ok (), after) := by
  obtain ⟨changed, patched, folded⟩ := applyPatches_of_revise noted revised
  rw [patch, References.resolve, planned]
  dsimp only
  rw [patched]
  dsimp only
  rw [folded]

theorem patch_of_error {newTypes : List Declaration} {reason : GenerationError}
    {session : Session σ} (failed : session.references.plan newTypes = .error reason) :
    session.patch newTypes = (.error reason, session) := by
  rw [patch, References.resolve, failed]

/-- Takes schema files one after the other, also after failures, and gives all results. -/
def processEach (session : Session σ) :
    List SchemaFile → List (Except GenerationError Unit) × Session σ
  | [] => ([], session)
  | file :: rest =>
    let step := session.processFile file
    let later := step.2.processEach rest
    (step.1 :: later.1, later.2)

end

/-- A relation between two stores, each with its outputs. -/
abbrev StoreRelation (σ τ : Type) :=
  σ → List (Path × WriteOutcome) → τ → List (Path × WriteOutcome) → Prop

variable {writable : Path → Prop} {relates : StoreRelation σ τ}

/-- Two sessions with the same tables whose stores are related. The modules that they know are
among the outputs, where both stores can be written to. -/
structure AbreastOn (writable : Path → Prop) (relates : StoreRelation σ τ) (left : Session σ)
    (right : Session τ) : Prop where
  known : right.known = left.known
  references : right.references = left.references
  located : ∀ entry ∈ left.references.modules, Notes left.outputs entry.2 ∧ writable entry.2
  related : relates left.store left.outputs right.store right.outputs

/-- Two sessions with the same tables whose stores are related and can be written to anywhere. -/
abbrev Abreast (relates : StoreRelation σ τ) (left : Session σ) (right : Session τ) : Prop :=
  AbreastOn (fun _ => True) relates left right

/-- Two steps with the same result that leave sessions side by side. -/
def InStep (writable : Path → Prop) (relates : StoreRelation σ τ) (first : Outcome σ α)
    (second : Outcome τ α) : Prop :=
  second.1 = first.1 ∧ AbreastOn writable relates first.2 second.2

/-- The files of a top-level declaration are where both stores can be written to. -/
structure Placeable (writable : Path → Prop) (root : Declaration) : Prop where
  module : writable root.type.moduleFile
  client : writable (Service.clientFile root.type)

variable {left : Session σ} {right : Session τ}

theorem InStep.exists_result {first : Outcome σ α} {second : Outcome τ α}
    (inStep : InStep writable relates first second) :
    ∃ result left right, first = (result, left) ∧ second = (result, right) ∧
      AbreastOn writable relates left right :=
  Agree.exists_answer inStep

theorem InStep.andThen {first : Outcome σ Unit} {second : Outcome τ Unit}
    {next : Session σ → Outcome σ Unit} {other : Session τ → Outcome τ Unit}
    (inStep : InStep writable relates first second)
    (later : ∀ left right, AbreastOn writable relates left right →
      InStep writable relates (next left) (other right)) :
    InStep writable relates (Session.andThen first next) (Session.andThen second other) :=
  andThen_agree inStep later

/-- Steps over a list stay side by side if each does. -/
theorem forEach_inStep {step : Session σ → α → Outcome σ Unit}
    {other : Session τ → α → Outcome τ Unit} {items : List α}
    (each : ∀ item ∈ items, ∀ left right, AbreastOn writable relates left right →
      InStep writable relates (step left item) (other right item))
    (abreast : AbreastOn writable relates left right) :
    InStep writable relates (left.forEach step items) (right.forEach other items) :=
  forEach_agree each abreast

namespace AbreastOn

theorem withKnown (abreast : AbreastOn writable relates left right) (known : KnownTypes) :
    AbreastOn writable relates { left with known } { right with known } :=
  ⟨rfl, abreast.references, abreast.located, abreast.related⟩

theorem withTables (abreast : AbreastOn writable relates left right) (known : KnownTypes)
    {references : References}
    (located : ∀ entry ∈ references.modules, Notes left.outputs entry.2 ∧ writable entry.2) :
    AbreastOn writable relates { left with known, references } { right with known, references } :=
  ⟨rfl, rfl, located, abreast.related⟩

end AbreastOn

/-- Writing a module and patching keep sessions side by side, whether or not they succeed. -/
structure KeepsPace [Store σ] [Store τ] (writable : Path → Prop) (relates : StoreRelation σ τ) :
    Prop where
  write : ∀ {left : Session σ} {right : Session τ}, AbreastOn writable relates left right →
    ∀ path, writable path → ∀ item : TypeScript.Module,
      InStep writable relates (left.write path item) (right.write path item) ∧
        ((left.write path item).1 = .ok () → Notes (left.write path item).2.outputs path)
  patch : ∀ {left : Session σ} {right : Session τ}, AbreastOn writable relates left right →
    ∀ newTypes, InStep writable relates (left.patch newTypes) (right.patch newTypes)

namespace KeepsPace

variable [Store σ] [Store τ] (keepsPace : KeepsPace writable relates)
include keepsPace

theorem emitType (abreast : AbreastOn writable relates left right) {root : Declaration}
    (fits : writable root.type.moduleFile) :
    InStep writable relates (left.emitType root) (right.emitType root) := by
  rw [Session.emitType, Session.emitType, abreast.known, abreast.references]
  dsimp only
  have recorded : AbreastOn writable relates
      { left with references :=
          left.references.insertAll (left.known.placeholdersOf root.flatten) }
      { right with
        known := left.known
        references := left.references.insertAll (left.known.placeholdersOf root.flatten) } := by
    apply abreast.withTables left.known
    rw [References.modules_insertAll]
    exact abreast.located
  cases left.known.typeModule root with
  | error reason => exact ⟨rfl, recorded⟩
  | ok item =>
    obtain ⟨inStep, noted⟩ := keepsPace.write recorded _ fits item
    obtain ⟨result, first, second, written, otherWritten, after⟩ := inStep.exists_result
    rw [written] at noted
    dsimp only
    rw [written, otherWritten]
    cases result with
    | error reason => exact ⟨rfl, after⟩
    | ok done =>
      refine ⟨rfl, ?_⟩
      dsimp only
      rw [after.known, after.references]
      refine after.withTables first.known fun entry listed => ?_
      rcases List.mem_cons.mp listed with rfl | listed
      · dsimp only
        exact ⟨noted rfl, fits⟩
      · exact after.located entry listed

theorem emitService (abreast : AbreastOn writable relates left right) {service : Service}
    (fits : writable service.type.moduleFile)
    (clientFits : writable (Service.clientFile service.type)) :
    InStep writable relates (left.emitService service) (right.emitService service) := by
  rw [Session.emitService, Session.emitService, abreast.known]
  cases left.known.serviceModule service with
  | error reason => exact ⟨rfl, abreast⟩
  | ok item =>
    obtain ⟨result, first, second, written, otherWritten, after⟩ :=
      (keepsPace.write abreast _ fits item).1.exists_result
    dsimp only
    rw [written, otherWritten]
    cases result with
    | error reason => exact ⟨rfl, after⟩
    | ok done => exact (keepsPace.write after _ clientFits Service.clientModule).1

/-- Taking a file gives the same result in both sessions. -/
theorem processFile (abreast : AbreastOn writable relates left right) {file : SchemaFile}
    (fits : ∀ root ∈ file.declarations, writable root.type.moduleFile)
    (clientsFit : ∀ service, .service service ∈ file.declarations →
      writable (Service.clientFile service.type)) :
    InStep writable relates (left.processFile file) (right.processFile file) := by
  rw [processFile_andThen, processFile_andThen, abreast.known]
  refine InStep.andThen ?_ fun _ _ abreast => InStep.andThen ?_ fun _ _ abreast =>
    keepsPace.patch abreast _
  · refine forEach_inStep (fun root member _ _ abreast => ?_) (abreast.withKnown _)
    have isNew := (mem_dataTypes.mp member).1
    exact keepsPace.emitType abreast (fits root (KnownTypes.of_mem_newRoots isNew).1)
  · refine forEach_inStep (fun service member _ _ abreast => ?_) abreast
    have declared := (KnownTypes.of_mem_newRoots (mem_services.mp member)).1
    exact keepsPace.emitService abreast (fits (.service service) declared)
      (clientsFit service declared)

/-- Taking files up to the first failure gives the same result in both sessions. -/
theorem processFiles (abreast : AbreastOn writable relates left right) {files : List SchemaFile}
    (fits : ∀ root ∈ rootsOf files, writable root.type.moduleFile)
    (clientsFit : ∀ service, .service service ∈ rootsOf files →
      writable (Service.clientFile service.type)) :
    InStep writable relates (left.processFiles files) (right.processFiles files) := by
  refine forEach_inStep (fun file member _ _ abreast => ?_) abreast
  have declared : ∀ root ∈ file.declarations, root ∈ rootsOf files :=
    fun root listed => List.mem_flatMap.mpr ⟨file, member, listed⟩
  exact keepsPace.processFile abreast (fun root listed => fits root (declared root listed))
    fun service listed => clientsFit service (declared (.service service) listed)

/-- Taking files whether or not earlier ones failed gives the same results in both sessions. -/
theorem processEach (abreast : AbreastOn writable relates left right) {files : List SchemaFile}
    (fits : ∀ root ∈ rootsOf files, writable root.type.moduleFile)
    (clientsFit : ∀ service, .service service ∈ rootsOf files →
      writable (Service.clientFile service.type)) :
    (right.processEach files).1 = (left.processEach files).1 ∧
      AbreastOn writable relates (left.processEach files).2 (right.processEach files).2 := by
  induction files generalizing left right with
  | nil => exact ⟨rfl, abreast⟩
  | cons file rest ih =>
    obtain ⟨fitsFirst, fitsRest⟩ := List.forall_mem_append.mp fits
    obtain ⟨result, after⟩ := keepsPace.processFile abreast fitsFirst fun service listed =>
      clientsFit service (List.mem_append_left _ listed)
    obtain ⟨results, final⟩ := ih after fitsRest fun service listed =>
      clientsFit service (List.mem_append_right _ listed)
    exact ⟨List.cons_eq_cons.mpr ⟨result, results⟩, final⟩

end KeepsPace

/-- A relation between two stores, each with its outputs, that lasts: outputs read the same in both
stores, and the same text can be put at the same path in both, where they can be written to. -/
structure LastingOn [Store σ] [Store τ] (writable : Path → Prop) (relates : StoreRelation σ τ) :
    Prop where
  noted : ∀ {first outputs second others}, relates first outputs second others →
    outputs.map Prod.fst = others.map Prod.fst
  read : ∀ {first outputs second others}, relates first outputs second others →
    ∀ path, writable path → Notes outputs path →
      ∃ text, Store.read first path = .ok text ∧ Store.read second path = .ok text
  write : ∀ {first outputs second others}, relates first outputs second others →
    ∀ path, writable path → ∀ text, ∃ outcome other firstAfter secondAfter,
      Store.writeIfChanged first path text = (.ok outcome, firstAfter) ∧
      Store.writeIfChanged second path text = (.ok other, secondAfter) ∧
      relates firstAfter (noteOutput path outcome outputs) secondAfter
        (noteOutput path other others)

/-- A relation that lasts wherever the stores are written to. -/
abbrev Lasting [Store σ] [Store τ] (relates : StoreRelation σ τ) : Prop :=
  LastingOn (fun _ => True) relates

namespace AbreastOn

variable [Store σ] [Store τ] (lasting : LastingOn writable relates)
include lasting

/-- Putting a text succeeds in both sessions. -/
theorem put (abreast : AbreastOn writable relates left right) {path : Path} (fits : writable path)
    (text : String) :
    ∃ first second, left.put path text = (.ok (), first) ∧
      right.put path text = (.ok (), second) ∧ AbreastOn writable relates first second ∧
      Notes first.outputs path ∧
      ∀ other, Notes left.outputs other → Notes first.outputs other := by
  obtain ⟨outcome, other, firstStore, secondStore, written, otherWritten, related⟩ :=
    lasting.write abreast.related path fits text
  rw [Session.put, written, Session.put, otherWritten]
  refine ⟨_, _, rfl, rfl, ⟨abreast.known, abreast.references, ?_, related⟩,
    notes_noteOutput_self _ _ _, fun _ noted => noted.noteOutput _ _⟩
  exact fun entry listed => (abreast.located entry listed).imp_left fun noted =>
    noted.noteOutput _ _

/-- Writing a module succeeds in both sessions. -/
theorem write (abreast : AbreastOn writable relates left right) {path : Path}
    (fits : writable path) (item : TypeScript.Module) :
    ∃ first second, left.write path item = (.ok (), first) ∧
      right.write path item = (.ok (), second) ∧ AbreastOn writable relates first second ∧
      Notes first.outputs path := by
  obtain ⟨first, second, placed, otherPlaced, after, noted, -⟩ :=
    abreast.put lasting fits item.render
  exact ⟨first, second, placed, otherPlaced, after, noted⟩

/-- Revising an output succeeds in both sessions. -/
theorem revise (abreast : AbreastOn writable relates left right) {patch : Patch}
    (noted : Notes left.outputs patch.path ∧ writable patch.path) :
    ∃ first second, left.revise patch = (.ok (), first) ∧
      right.revise patch = (.ok (), second) ∧ AbreastOn writable relates first second ∧
      ∀ other, Notes left.outputs other → Notes first.outputs other := by
  obtain ⟨text, readable, otherReadable⟩ := lasting.read abreast.related patch.path noted.2 noted.1
  obtain ⟨first, second, placed, otherPlaced, after, -, kept⟩ :=
    abreast.put lasting noted.2 (patch.apply text)
  rw [Session.revise, readable, Session.revise, otherReadable]
  exact ⟨first, second, placed, otherPlaced, after, kept⟩

theorem forEach_revise {patches : List Patch} (abreast : AbreastOn writable relates left right)
    (noted : ∀ patch ∈ patches, Notes left.outputs patch.path ∧ writable patch.path) :
    ∃ first second, left.forEach Session.revise patches = (.ok (), first) ∧
      right.forEach Session.revise patches = (.ok (), second) ∧
      AbreastOn writable relates first second := by
  induction patches generalizing left right with
  | nil => exact ⟨left, right, rfl, rfl, abreast⟩
  | cons patch rest ih =>
    obtain ⟨notedFirst, notedRest⟩ := List.forall_mem_cons.mp noted
    obtain ⟨first, second, revised, otherRevised, after, kept⟩ := abreast.revise lasting notedFirst
    obtain ⟨firstLast, secondLast, rest, otherRest, final⟩ :=
      ih after fun other member => (notedRest other member).imp_left (kept _)
    rw [forEach_cons, revised, forEach_cons, otherRevised]
    exact ⟨firstLast, secondLast, rest, otherRest, final⟩

theorem patch (abreast : AbreastOn writable relates left right) (newTypes : List Declaration) :
    InStep writable relates (left.patch newTypes) (right.patch newTypes) := by
  cases planned : left.references.plan newTypes with
  | error reason =>
    rw [patch_of_error planned, patch_of_error (abreast.references ▸ planned)]
    exact ⟨rfl, abreast⟩
  | ok patches =>
    have located : ∀ patch ∈ patches, Notes left.outputs patch.path ∧ writable patch.path := by
      intro patch member
      obtain ⟨declaring, -, -, file⟩ := References.path_of_mem_plan planned member
      exact abreast.located (declaring.root, patch.path) (References.mem_modules_of_module? file)
    have noted : ∀ patch ∈ patches, Notes left.outputs patch.path :=
      fun patch member => (located patch member).1
    have otherNoted : ∀ patch ∈ patches, Notes right.outputs patch.path := by
      intro patch member
      rw [Notes, ← lasting.noted abreast.related]
      exact noted patch member
    obtain ⟨first, second, revised, otherRevised, after⟩ := abreast.forEach_revise lasting located
    rw [patch_of_revise planned noted revised,
      patch_of_revise (abreast.references ▸ planned) otherNoted otherRevised]
    exact ⟨rfl, after⟩

end AbreastOn

theorem LastingOn.keepsPace [Store σ] [Store τ] (lasting : LastingOn writable relates) :
    KeepsPace writable relates where
  write abreast path fits item := by
    obtain ⟨first, second, written, otherWritten, after, noted⟩ :=
      abreast.write lasting fits item
    rw [written, otherWritten]
    exact ⟨⟨rfl, after⟩, fun _ => noted⟩
  patch abreast := abreast.patch lasting

namespace Abreast

variable [Store σ] [Store τ] (lasting : Lasting relates)
include lasting

theorem processFiles (abreast : Abreast relates left right) (files : List SchemaFile) :
    (right.processFiles files).1 = (left.processFiles files).1 ∧
      Abreast relates (left.processFiles files).2 (right.processFiles files).2 :=
  lasting.keepsPace.processFiles abreast (fun _ _ => trivial) fun _ _ => trivial

theorem processEach (abreast : Abreast relates left right) (files : List SchemaFile) :
    (right.processEach files).1 = (left.processEach files).1 ∧
      Abreast relates (left.processEach files).2 (right.processEach files).2 :=
  lasting.keepsPace.processEach abreast (fun _ _ => trivial) fun _ _ => trivial

end Abreast

end Typescribe.Session
