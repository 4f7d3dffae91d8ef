import Typescribe.Proofs.Generation.Patching

/-!
# What the steps of a session come to

A step meets a condition and a state of affairs if it succeeds exactly under the condition, leaves
the state of affairs when it succeeds, and blames the schema when it fails. Steps that meet theirs
one after the other do so together.
-/

namespace Typescribe.Session

variable {σ α : Type}

theorem mem_dataTypes {file : SchemaFile} {root : Declaration} :
    root ∈ file.dataTypes ↔ root ∈ file.declarations ∧ root.isService = false := by
  rw [SchemaFile.dataTypes, List.mem_filter, Bool.not_eq_true']

theorem mem_services {file : SchemaFile} {service : Service} :
    service ∈ file.services ↔ .service service ∈ file.declarations := by
  rw [SchemaFile.services, List.mem_filterMap]
  constructor
  · rintro ⟨declaration, member, given⟩
    cases declaration with
    | service body => exact Option.some.inj given ▸ member
    | record head nested => cases given
    | enumeration body => cases given
  · intro member
    exact ⟨_, member, rfl⟩

/-- A step succeeds exactly under a condition and then leaves a session of the given kind; if it
fails, the schema is at fault. -/
inductive Meets (outcome : Outcome σ Unit) (fits : Prop) (holds : Session σ → Prop) : Prop where
  | succeeds {after : Session σ} (fit : fits) (ran : outcome = (.ok (), after))
      (left : holds after)
  | fails {reason : GenerationError} {after : Session σ} (unfit : ¬ fits)
      (ran : outcome = (.error reason, after)) (fault : reason.isSchemaFault = true)

/-- A step, and the next one if it succeeds. -/
def andThen (outcome : Outcome σ Unit) (next : Session σ → Outcome σ Unit) : Outcome σ Unit :=
  match outcome with
  | (.ok (), session) => next session
  | (.error reason, session) => (.error reason, session)

theorem forEach_cons (step : Session σ → α → Outcome σ Unit) (session : Session σ) (item : α)
    (rest : List α) :
    session.forEach step (item :: rest) =
      andThen (step session item) fun session => session.forEach step rest := rfl

/-- Taking a file is registering its declarations, generating its new types and its new services,
and patching. -/
theorem processFile_andThen [Store σ] (session : Session σ) (file : SchemaFile) :
    session.processFile file =
      let registration := session.known.register file.declarations
      let roots : SchemaFile := { file with declarations := registration.newRoots }
      andThen (forEach emitType { session with known := registration.known } roots.dataTypes)
        fun session => andThen (session.forEach emitService roots.services)
          fun session => session.patch registration.newTypes := by
  rw [processFile]
  dsimp only
  split
  next failed => rw [failed, andThen]
  next done =>
    rw [done, andThen]
    split
    next failed => rw [failed, andThen]
    next done => rw [done, andThen]

namespace Meets

variable {outcome : Outcome σ Unit} {fits other : Prop} {holds further : Session σ → Prop}

theorem congr (meets : Meets outcome fits holds) (same : fits ↔ other) :
    Meets outcome other holds :=
  propext same ▸ meets

theorem mono (meets : Meets outcome fits holds) (weaker : ∀ after, holds after → further after) :
    Meets outcome fits further := by
  cases meets with
  | succeeds fit ran left => exact .succeeds fit ran (weaker _ left)
  | fails unfit ran fault => exact .fails unfit ran fault

theorem exists_ok_iff (meets : Meets outcome fits holds) :
    (∃ after, outcome = (.ok (), after)) ↔ fits := by
  cases meets with
  | succeeds fit ran left => exact ⟨fun _ => fit, fun _ => ⟨_, ran⟩⟩
  | fails unfit ran fault =>
    refine ⟨?_, fun fit => absurd fit unfit⟩
    rintro ⟨after, ok⟩
    cases (Prod.mk.inj (ran.symm.trans ok)).1

theorem of_ok (meets : Meets outcome fits holds) {after : Session σ}
    (ok : outcome = (.ok (), after)) : fits ∧ holds after := by
  cases meets with
  | succeeds fit ran left => exact ⟨fit, (Prod.mk.inj (ran.symm.trans ok)).2 ▸ left⟩
  | fails unfit ran fault => cases (Prod.mk.inj (ran.symm.trans ok)).1

theorem of_error (meets : Meets outcome fits holds) {reason : GenerationError}
    {after : Session σ} (failed : outcome = (.error reason, after)) :
    reason.isSchemaFault = true := by
  cases meets with
  | succeeds fit ran left => cases (Prod.mk.inj (ran.symm.trans failed)).1
  | fails unfit ran fault =>
    exact Except.error.inj (Prod.mk.inj (ran.symm.trans failed)).1 ▸ fault

/-- A step after a step succeeds if both fit. -/
theorem andThen {next : Session σ → Outcome σ Unit} (first : Meets outcome fits holds)
    (second : fits → ∀ session, holds session → Meets (next session) other further) :
    Meets (Session.andThen outcome next) (fits ∧ other) further := by
  cases first with
  | succeeds fit ran left =>
    rw [ran]
    exact (second fit _ left).congr (and_iff_right fit).symm
  | fails unfit ran fault =>
    rw [ran]
    exact .fails (fun both => unfit both.1) rfl fault

end Meets

/-- Steps over the elements of a list succeed exactly if each fits in its place. -/
theorem forEach_meets {step : Session σ → α → Outcome σ Unit} (fits : List α → α → Prop)
    (holds : List α → Session σ → Prop) (items : List α)
    (each : ∀ before item after, items = before ++ item :: after →
      ∀ session, holds before session →
        Meets (step session item) (fits before item) (holds (before ++ [item])))
    {session : Session σ} (start : holds [] session) :
    Meets (session.forEach step items)
      (∀ before item after, items = before ++ item :: after → fits before item) (holds items) := by
  -- The elements already taken are carried along, since what fits may depend on them.
  suffices carried : ∀ rest done session, items = done ++ rest → holds done session →
      Meets (session.forEach step rest)
        (∀ before item after, rest = before ++ item :: after → fits (done ++ before) item)
        (holds items) by
    exact carried items [] session rfl start
  intro rest
  induction rest with
  | nil =>
    intro done session whole held
    rw [List.append_nil] at whole
    exact .succeeds (fun before item after split => absurd split (by simp)) rfl (whole ▸ held)
  | cons item rest ih =>
    intro done session whole held
    have first := each done item rest whole session held
    have later : items = (done ++ [item]) ++ rest := by rw [whole, List.append_cons]
    have both := first.andThen fun _ session held => ih (done ++ [item]) session later held
    rw [forEach_cons]
    refine both.congr ⟨?_, ?_⟩
    · rintro ⟨fitFirst, fitLater⟩ before other after split
      cases before with
      | nil =>
        rw [List.nil_append, List.cons.injEq] at split
        rw [List.append_nil, ← split.1]
        exact fitFirst
      | cons head before =>
        rw [List.cons_append, List.cons.injEq] at split
        rw [← split.1, List.append_cons]
        exact fitLater before other after split.2
    · intro fitAll
      refine ⟨?_, fun before other after split => ?_⟩
      · have fitFirst := fitAll [] item rest rfl
        rwa [List.append_nil] at fitFirst
      · rw [← List.append_cons]
        exact fitAll (item :: before) other after (by rw [split, List.cons_append])

variable {session : Session MemoryStore}

/-- What generating a type's module leaves: its text, its path, and the references that it leaves
open. -/
theorem emitType_eq {root : Declaration} {item : TypeScript.Module}
    (written : session.known.typeModule root = .ok item) :
    ∃ after, session.emitType root = (.ok (), after) ∧ after.known = session.known ∧
      after.references =
        (session.references.insertAll (session.known.placeholdersOf root.flatten)).setModule
          root.type root.type.moduleFile ∧
      after.store = session.store.put root.type.moduleFile item.render ∧
      after.outputs.map Prod.fst =
        Path.enter root.type.moduleFile (session.outputs.map Prod.fst) := by
  rw [emitType]
  dsimp only
  rw [written]
  dsimp only
  rw [write_eq]
  exact ⟨_, rfl, rfl, rfl, rfl, paths_noteOutput _ _ _⟩

theorem emitType_error {root : Declaration} {reason : GenerationError}
    (failed : session.known.typeModule root = .error reason) :
    ∃ after, session.emitType root = (.error reason, after) := by
  rw [emitType]
  dsimp only
  rw [failed]
  exact ⟨_, rfl⟩

/-- What generating a service's module leaves: its text, and the network client beside it. -/
theorem emitService_eq {service : Service} {item : TypeScript.Module}
    (written : session.known.serviceModule service = .ok item) :
    ∃ after, session.emitService service = (.ok (), after) ∧ after.known = session.known ∧
      after.references = session.references ∧
      after.store = (session.store.put service.type.moduleFile item.render).put
        (Service.clientFile service.type) Service.clientModule.render ∧
      after.outputs.map Prod.fst =
        Path.enter (Service.clientFile service.type)
          (Path.enter service.type.moduleFile (session.outputs.map Prod.fst)) := by
  rw [emitService, written]
  dsimp only
  rw [write_eq]
  dsimp only
  rw [write_eq]
  refine ⟨_, rfl, rfl, rfl, rfl, ?_⟩
  rw [paths_noteOutput, paths_noteOutput]

theorem emitService_error {service : Service} {reason : GenerationError}
    (failed : session.known.serviceModule service = .error reason) :
    session.emitService service = (.error reason, session) := by
  rw [emitService, failed]

theorem foldl_note {paths : List Path} (session : Session σ)
    (entered : ∀ path ∈ paths, ∃ held ∈ session.outputs.map Prod.fst, held.same path = true) :
    ∃ outputs, paths.foldl (fun session path => session.note path .written) session =
        { session with outputs } ∧ outputs.map Prod.fst = session.outputs.map Prod.fst := by
  induction paths generalizing session with
  | nil => exact ⟨session.outputs, rfl, rfl⟩
  | cons path rest ih =>
    obtain ⟨here, later⟩ := List.forall_mem_cons.mp entered
    have same : (session.note path .written).outputs.map Prod.fst =
        session.outputs.map Prod.fst := by
      rw [note, paths_noteOutput, Path.enter_eq_self here]
    rw [← same] at later
    obtain ⟨outputs, noted, paths⟩ := ih _ later
    exact ⟨outputs, noted, paths.trans same⟩

/-- What patching leaves: the same files with the planned replacements made. -/
theorem patch_eq {newTypes : List Declaration} {patches : List Patch}
    (planned : session.references.plan newTypes = .ok patches)
    (held : ∀ patch ∈ patches, (session.store.get? patch.path).isSome = true)
    (outputs : session.outputs.map Prod.fst = session.store.paths) :
    ∃ after, session.patch newTypes = (.ok (), after) ∧ after.known = session.known ∧
      after.references = session.references ∧ after.store.paths = session.store.paths ∧
      after.outputs.map Prod.fst = session.outputs.map Prod.fst ∧
      ∀ path, after.store.get? path = (session.store.get? path).map
        (Patch.apply ⟨path, Patch.replacementsAt path patches⟩) := by
  obtain ⟨changed, store, patched, changedHeld, paths, contents⟩ :=
    References.applyPatches_eq held
  have entered : ∀ path ∈ changed, ∃ held ∈ session.outputs.map Prod.fst,
      held.same path = true := by
    intro path member
    rw [outputs]
    exact MemoryStore.get?_isSome_iff.mp (changedHeld path member)
  obtain ⟨noted, folded, samePaths⟩ := foldl_note { session with store } entered
  have resolved : session.references.resolve newTypes session.store = (.ok changed, store) := by
    rw [References.resolve, planned]
    exact patched
  have ran : session.patch newTypes = (.ok (), { session with store, outputs := noted }) := by
    rw [patch, resolved, ← folded]
  exact ⟨_, ran, rfl, rfl, paths, samePaths, contents⟩

theorem patch_error {newTypes : List Declaration} {reason : GenerationError}
    (failed : session.references.plan newTypes = .error reason) :
    ∃ after, session.patch newTypes = (.error reason, after) := by
  rw [patch, References.resolve, failed]
  exact ⟨_, rfl⟩

end Typescribe.Session
