import Typescribe.Proofs.Generation.PatchedOutput
import Typescribe.Proofs.Generation.Report
import Typescribe.Proofs.Generation.SettledService

/-!
# The report of unresolved references is exact

The tokens left in a type's file are its references to types that are not known, in order and with
repetitions, and no other file holds a token. So what a run reports as unresolved are exactly these
references, and the table of waiting references says the same.
-/

namespace Typescribe

open Placeholder

open KnownTypes (knowing)

/-- The references of the type whose module is at a path to types that are not known, in order and
with repetitions. Other files have none. -/
def danglingAt (roots : List Declaration) (known : KnownTypes) (path : Path) : List TypeName :=
  match roots.find? fun root => !root.isService && root.type.moduleFile.same path with
  | some root => root.referencedTypes.filter fun type => !known.contains type
  | none => []

section

variable {roots : List Declaration} {root : Declaration} {path : Path}

/-- What dangles at a path is what dangles in the type whose module is there. -/
theorem danglingAt_eq (wellFormed : WellFormed roots) (member : root ∈ roots)
    (data : root.isService = false) (here : root.type.moduleFile.same path = true)
    (known : KnownTypes) :
    danglingAt roots known path = root.referencedTypes.filter fun type => !known.contains type := by
  rw [danglingAt]
  split
  next other found =>
    have fits := List.find?_some found
    rw [Bool.and_eq_true, Path.same_comm] at fits
    have same : root.type.moduleFile.same other.type.moduleFile = true := by
      rw [Path.same_congr_left here, fits.2]
    rw [(wellFormed.same_moduleFile_iff member (List.mem_of_find?_eq_some found)).mp same]
  next absent =>
    rw [List.find?_eq_none] at absent
    exact absurd (by rw [data, here]; rfl) (absent root member)

theorem danglingAt_eq_nil
    (apart : ∀ root ∈ roots, root.isService = false → root.type.moduleFile.same path = false)
    (known : KnownTypes) : danglingAt roots known path = [] := by
  rw [danglingAt, List.find?_eq_none.mpr]
  intro root member fits
  rw [Bool.and_eq_true, Bool.not_eq_true'] at fits
  rw [apart root member fits.1] at fits
  exact Bool.false_ne_true fits.2

theorem exists_of_mem_danglingAt {known : KnownTypes} {type : TypeName}
    (dangles : type ∈ danglingAt roots known path) :
    ∃ root ∈ roots, root.isService = false ∧ root.type.moduleFile.same path = true ∧
      type ∈ root.referencedTypes ∧ known.contains type = false := by
  rw [danglingAt] at dangles
  split at dangles
  next root found =>
    have fits := List.find?_some found
    rw [Bool.and_eq_true, Bool.not_eq_true'] at fits
    rw [List.mem_filter, Bool.not_eq_true'] at dangles
    exact ⟨root, List.mem_of_find?_eq_some found, fits.1, fits.2, dangles⟩
  next => exact absurd dangles List.not_mem_nil

end

namespace Session

/-- Summing up reads every output and reports the tokens in it. -/
theorem summarize_eq {store : MemoryStore} {outputs : List (Path × WriteOutcome)}
    {left : Path → List TypeName}
    (held : ∀ output ∈ outputs, ∃ text, store.get? output.1 = some text ∧
      Placeholder.residual text = left output.1) :
    ∃ summary, summarize store outputs = .ok summary ∧
      summary.unresolved = outputs.flatMap fun output =>
        (left output.1).map fun type => ⟨output.1.shown, type⟩ := by
  have present : ∀ path ∈ outputs.map Prod.fst, (store.get? path).isSome = true := by
    rw [List.forall_mem_map]
    intro output listed
    obtain ⟨text, content, -⟩ := held output listed
    exact Option.isSome_iff_exists.mpr ⟨text, content⟩
  refine ⟨_, summarize_eq_ok present, ?_⟩
  rw [List.flatMap_map]
  refine List.flatMap_congr fun output listed => ?_
  obtain ⟨text, content, tokens⟩ := held output listed
  rw [MemoryStore.tokensAt_eq content, tokens]

variable {roots : List Declaration} {outputs : List Path} {store : MemoryStore}
  {root : Declaration} {path : Path}

/-- The file of a root is noted under the root's own spelling. -/
theorem Files.eq_moduleFile (files : Files roots outputs store) (wellFormed : WellFormed roots)
    (clientNameFree : ClientNameFree roots) (member : root ∈ roots) (listed : path ∈ store.paths)
    (same : root.type.moduleFile.same path = true) : path = root.type.moduleFile := by
  rcases files.origins path listed with
    ⟨other, otherMember, isModule⟩ | ⟨service, isService, isClient⟩
  · rw [isModule, wellFormed.same_moduleFile_iff member otherMember] at same
    rw [isModule, same]
  · rw [isClient, Path.same_comm,
      wellFormed.same_clientFile_eq_false clientNameFree isService member] at same
    exact absurd same Bool.false_ne_true

theorem Files.moduleFile_mem (files : Files roots outputs store) (wellFormed : WellFormed roots)
    (clientNameFree : ClientNameFree roots) (member : root ∈ roots) :
    root.type.moduleFile ∈ store.paths := by
  obtain ⟨path, listed, same⟩ := MemoryStore.get?_isSome_iff.mp (files.held root member)
  rw [Path.same_comm] at same
  exact files.eq_moduleFile wellFormed clientNameFree member listed same ▸ listed

/-- The tokens in the text of a type are its references to types that are not known. -/
theorem residual_template (wellFormed : WellFormed roots) (sound : Template.Sound root.template) :
    Placeholder.residual (String.ofList (Template.fill (knowing roots).slotText root.template)) =
      root.referencedTypes.filter fun type => !(knowing roots).contains type := by
  rw [Template.residual_fill sound wellFormed.bracelessNames.steady_slotText, slots_template]
  apply List.filter_congr
  intro type _
  rw [Bool.eq_iff_iff, decide_eq_true_eq, wellFormed.bracelessNames.slotText_eq_token_iff,
    Bool.not_eq_true']

section

variable {files : List SchemaFile} {session : Session MemoryStore}
  (wellFormed : WellFormed (rootsOf files)) (clientNameFree : ClientNameFree (rootsOf files))
  (unmarkedTexts : UnmarkedTexts (rootsOf files))
  (ran : processFiles { store := ({} : MemoryStore) } files = (.ok (), session))

include wellFormed clientNameFree unmarkedTexts ran

/-- The tokens in a generated type's file are its references to unknown types. -/
theorem residual_type_eq (member : root ∈ rootsOf files) (data : root.isService = false) :
    ∃ text, session.store.get? root.type.moduleFile = some text ∧
      Placeholder.residual text =
        root.referencedTypes.filter fun type => !session.known.contains type := by
  have tracks := ((processFiles_meets wellFormed).of_ok ran).2.1
  refine ⟨_, get?_type_eq wellFormed clientNameFree unmarkedTexts ran member data, ?_⟩
  rw [residual_template wellFormed
    (wellFormed.bracelessTypes.sound_template unmarkedTexts member), tracks.known]

/-- The module of a service and the network client beside it hold no token. -/
theorem settled_service {service : Service} (member : .service service ∈ rootsOf files) :
    ∀ path ∈ [service.type.moduleFile, Service.clientFile service.type],
      ∃ text, session.store.get? path = some text ∧ Settled text.toList := by
  obtain ⟨item, written, content⟩ := get?_service_eq wellFormed clientNameFree ran member
  have contents := ((processFiles_meets wellFormed).of_ok ran).2.2 clientNameFree
  rw [List.forall_mem_cons, List.forall_mem_singleton]
  exact ⟨⟨_, content, wellFormed.bracelessTypes.settled_serviceModule unmarkedTexts member written⟩,
    _, contents.clients service (List.mem_append_left _ member), Service.settled_clientModule⟩

/-- The tokens in any generated file are what dangles at its path. -/
theorem residual_eq_danglingAt (listed : path ∈ session.store.paths) :
    ∃ text, session.store.get? path = some text ∧
      Placeholder.residual text = danglingAt (rootsOf files) session.known path := by
  have tracks := ((processFiles_meets wellFormed).of_ok ran).2.1
  have generated := tracks.files
  rw [List.append_nil] at generated
  have none : ∀ {service : Service} {text : String}, .service service ∈ rootsOf files →
      (∀ root ∈ rootsOf files, root.isService = false → root.type.moduleFile.same path = false) →
      Settled text.toList →
      Placeholder.residual text = danglingAt (rootsOf files) session.known path := by
    intro service text member apart settled
    rw [danglingAt_eq_nil apart, Placeholder.residual, settled.residualChars_eq_nil, List.map_nil]
  rcases generated.origins path listed with ⟨root, member, isModule⟩ | ⟨service, member, isClient⟩
  · cases data : root.isService with
    | false =>
      rw [isModule, danglingAt_eq wellFormed member data (Path.same_refl _)]
      exact residual_type_eq wellFormed clientNameFree unmarkedTexts ran member data
    | true =>
      obtain ⟨service, rfl⟩ := Declaration.isService_iff.mp data
      obtain ⟨text, content, settled⟩ :=
        settled_service wellFormed clientNameFree unmarkedTexts ran member _ List.mem_cons_self
      refine ⟨text, isModule ▸ content, none member (fun other otherMember isData => ?_) settled⟩
      rw [← Bool.not_eq_true, isModule, wellFormed.same_moduleFile_iff otherMember member]
      rintro rfl
      exact absurd isData (by simp [Declaration.isService])
  · obtain ⟨text, content, settled⟩ :=
      settled_service wellFormed clientNameFree unmarkedTexts ran member _
        (List.mem_cons_of_mem _ List.mem_cons_self)
    refine ⟨text, isClient ▸ content, none member (fun other otherMember isData => ?_) settled⟩
    rw [isClient, Path.same_comm]
    exact wellFormed.same_clientFile_eq_false clientNameFree member otherMember

/-- A run reports what dangles at each output, in order of the outputs. -/
theorem finish_eq :
    ∃ summary, session.finish = .ok summary ∧
      summary.unresolved = session.outputs.flatMap fun output =>
        (danglingAt (rootsOf files) session.known output.1).map
          fun type => ⟨output.1.shown, type⟩ := by
  have noted := ((processFiles_meets wellFormed).of_ok ran).2.1.files.noted
  refine summarize_eq fun output listed => ?_
  apply residual_eq_danglingAt wellFormed clientNameFree unmarkedTexts ran
  rw [← noted]
  exact List.mem_map_of_mem listed

omit unmarkedTexts in
/-- A reference waits in the table exactly if it dangles in the file of the declaring type. -/
theorem mem_pending_iff_danglingAt (path : Path) (type : TypeName) :
    (∃ declaring, (declaring, type) ∈ session.references.pending session.known ∧
        declaring.moduleFile = path) ↔
      ∃ output ∈ session.outputs, output.1 = path ∧
        type ∈ danglingAt (rootsOf files) session.known path := by
  have tracks := ((processFiles_meets wellFormed).of_ok ran).2.1
  have generated := tracks.files
  rw [List.append_nil] at generated
  have listed_iff : path ∈ session.store.paths ↔ ∃ output ∈ session.outputs, output.1 = path := by
    rw [← generated.noted, List.mem_map]
  simp only [References.mem_pending_iff, ← and_assoc, exists_and_right, ← listed_iff]
  constructor
  · rintro ⟨declaring, ⟨recorded, unknown⟩, rfl⟩
    obtain ⟨root, member, data, part, inside, rfl, referenced⟩ := tracks.recorded _ _ recorded
    rw [List.append_nil] at member
    rw [wellFormed.moduleFile_eq_root member inside,
      danglingAt_eq wellFormed member data (Path.same_refl _), List.mem_filter, unknown,
      Declaration.referencedTypes_eq, List.mem_flatMap]
    exact ⟨generated.moduleFile_mem wellFormed clientNameFree member,
      ⟨part, inside, referenced⟩, rfl⟩
  · rintro ⟨listed, dangles⟩
    obtain ⟨root, member, data, same, referenced, unknown⟩ := exists_of_mem_danglingAt dangles
    rw [Declaration.referencedTypes_eq, List.mem_flatMap] at referenced
    obtain ⟨part, inside, referenced⟩ := referenced
    have recorded := tracks.awaitedByOld root member part inside type referenced
      (tracks.known ▸ unknown)
    refine ⟨part.type, ⟨recorded, unknown⟩, ?_⟩
    rw [wellFormed.moduleFile_eq_root member inside]
    exact (generated.eq_moduleFile wellFormed clientNameFree member listed same).symm

omit unmarkedTexts in
/-- Nothing dangles anywhere exactly if every field type is a scalar, the timestamp or declared. -/
theorem danglingAt_outputs_eq_nil_iff :
    (∀ output ∈ session.outputs, danglingAt (rootsOf files) session.known output.1 = []) ↔
      Closed (rootsOf files) := by
  have tracks := ((processFiles_meets wellFormed).of_ok ran).2.1
  have generated := tracks.files
  rw [List.append_nil] at generated
  simp only [Closed, ← KnownTypes.contains_knowing_iff, ← tracks.known]
  constructor
  · intro nothing part declared field listed notScalar
    have hasFields := Declaration.isService_eq_false_of_mem_ownFields listed
    obtain ⟨root, member, data, inside⟩ := Declaration.exists_home declared hasFields
    have noted := generated.moduleFile_mem wellFormed clientNameFree member
    rw [← generated.noted, List.mem_map] at noted
    obtain ⟨output, isOutput, isModule⟩ := noted
    have empty := nothing output isOutput
    rw [isModule, danglingAt_eq wellFormed member data (Path.same_refl _),
      List.filter_eq_nil_iff] at empty
    have referenced : field.type ∈ root.referencedTypes := by
      rw [Declaration.referencedTypes_eq]
      exact List.mem_flatMap.mpr
        ⟨part, inside, Declaration.mem_ownReferences.mpr ⟨notScalar, field, listed, rfl⟩⟩
    simpa using empty field.type referenced
  · intro closed output isOutput
    rw [List.eq_nil_iff_forall_not_mem]
    intro type dangles
    obtain ⟨root, member, -, -, referenced, unknown⟩ := exists_of_mem_danglingAt dangles
    rw [Declaration.referencedTypes_eq, List.mem_flatMap] at referenced
    obtain ⟨part, inside, referenced⟩ := referenced
    obtain ⟨notScalar, field, listed, rfl⟩ := Declaration.mem_ownReferences.mp referenced
    have declared := Declaration.mem_flattenAll.mpr ⟨root, member, inside⟩
    rw [closed part declared field listed notScalar] at unknown
    exact Bool.false_ne_true unknown.symm

end

end Session

/-- After every part of a run over well-formed schema files, the tokens in each type's file are its
references to unknown types, in order and with repetitions; the files of services and network
clients hold none; the summary reports these references file by file in order of the outputs; and
the references that wait are the same. A check therefore finds the files valid exactly if every
field type is a scalar, the timestamp or declared. -/
theorem dangling_report_exact {files taken rest : List SchemaFile} {session : Session MemoryStore}
    (wellFormed : WellFormed (rootsOf files)) (clientNameFree : ClientNameFree (rootsOf files))
    (unmarkedTexts : UnmarkedTexts (rootsOf files)) (split : files = taken ++ rest)
    (ran : Session.processFiles { store := ({} : MemoryStore) } taken = (.ok (), session)) :
    (∀ root ∈ rootsOf taken, root.isService = false →
      ∃ text, session.store.get? root.type.moduleFile = some text ∧
        Placeholder.residual text =
          root.referencedTypes.filter fun type => !session.known.contains type) ∧
    (∀ service, .service service ∈ rootsOf taken →
      ∀ path ∈ [service.type.moduleFile, Service.clientFile service.type],
        ∃ text, session.store.get? path = some text ∧ ¬ opening <:+: text.toList) ∧
    (∃ summary, session.finish = .ok summary ∧
      summary.unresolved = session.outputs.flatMap fun output =>
        (danglingAt (rootsOf taken) session.known output.1).map
          fun type => ⟨output.1.shown, type⟩) ∧
    (∀ path type,
      (∃ declaring, (declaring, type) ∈ session.references.pending session.known ∧
        declaring.moduleFile = path) ↔
      ∃ output ∈ session.outputs, output.1 = path ∧
        type ∈ danglingAt (rootsOf taken) session.known path) ∧
    ∃ result, check taken = .ok result ∧
      (result.isValid = true ↔ Closed (rootsOf taken)) := by
  subst split
  rw [rootsOf_append] at wellFormed clientNameFree unmarkedTexts
  replace wellFormed := wellFormed.of_append_left
  replace clientNameFree : ClientNameFree (rootsOf taken) := fun root member =>
    clientNameFree root (List.mem_append_left _ member)
  replace unmarkedTexts : UnmarkedTexts (rootsOf taken) := by
    intro part declared
    apply unmarkedTexts part
    rw [Declaration.flattenAll_append]
    exact List.mem_append_left _ declared
  obtain ⟨summary, summed, reported⟩ :=
    Session.finish_eq wellFormed clientNameFree unmarkedTexts ran
  refine ⟨?_, ?_, ⟨summary, summed, reported⟩, ?_, ?_⟩
  · intro root
    exact Session.residual_type_eq wellFormed clientNameFree unmarkedTexts ran
  · intro service member path listed
    obtain ⟨text, content, settled⟩ :=
      Session.settled_service wellFormed clientNameFree unmarkedTexts ran member path listed
    refine ⟨text, content, fun opens => settled.unmarked (List.IsInfix.trans ?_ opens)⟩
    rw [opening_eq]
    exact (List.prefix_append mark [':']).isInfix
  · exact Session.mem_pending_iff_danglingAt wellFormed clientNameFree ran
  · rw [check, Session.run, ran]
    dsimp only
    rw [summed]
    refine ⟨_, rfl, ?_⟩
    rw [CheckResult.isValid, List.isEmpty_iff, reported, List.flatMap_eq_nil_iff]
    simp only [List.map_eq_nil_iff]
    exact Session.danglingAt_outputs_eq_nil_iff wellFormed clientNameFree ran

/-- After the survey's first file, its type waits for three references and the check fails; after
all files it passes. -/
theorem survey_dangling_report :
    (∃ session,
      Session.processFiles { store := ({} : MemoryStore) } (surveyFiles.take 1) =
        (.ok (), session) ∧
      ∃ text, session.store.get? (TypeName.moduleFile ⟨"geo.Era"⟩) = some text ∧
        Placeholder.residual text = [⟨"geo.time.Period"⟩, ⟨"geo.Kind"⟩, ⟨"geo.time.Period"⟩]) ∧
    (∃ result, check (surveyFiles.take 1) = .ok result ∧ ¬ result.isValid = true) ∧
    ∃ result, check surveyFiles = .ok result ∧ result.isValid = true := by
  have firstWellFormed : WellFormed (rootsOf (surveyFiles.take 1)) :=
    survey_wellFormed.of_append_left
  have firstGenerable : Generable (surveyFiles.take 1) :=
    Generable.survey.of_append_left survey_wellFormed
  obtain ⟨session, ran⟩ := (exists_processFiles_iff survey_wellFormed).mpr Generable.survey
  obtain ⟨first, firstRan⟩ := (exists_processFiles_iff firstWellFormed).mpr firstGenerable
  have known := ((Session.processFiles_meets firstWellFormed).of_ok firstRan).2.1.known
  have early := dangling_report_exact survey_wellFormed survey_clientNameFree survey_unmarkedTexts
    (List.take_append_drop 1 surveyFiles).symm firstRan
  have late := dangling_report_exact survey_wellFormed survey_clientNameFree survey_unmarkedTexts
    (List.append_nil surveyFiles).symm ran
  refine ⟨⟨first, firstRan, ?_⟩, ?_, ?_⟩
  · have expected : ∀ root ∈ rootsOf (surveyFiles.take 1),
        root.isService = false ∧ root.type = ⟨"geo.Era"⟩ ∧
          (root.referencedTypes.filter fun type =>
            !(knowing (rootsOf (surveyFiles.take 1))).contains type) =
              [⟨"geo.time.Period"⟩, ⟨"geo.Kind"⟩, ⟨"geo.time.Period"⟩] := by decide
    obtain ⟨root, member⟩ : ∃ root, root ∈ rootsOf (surveyFiles.take 1) :=
      ⟨_, List.mem_cons_self⟩
    obtain ⟨data, isEra, dangling⟩ := expected root member
    rw [← isEra, ← dangling, ← known]
    exact early.1 root member data
  · obtain ⟨result, checked, valid⟩ := early.2.2.2.2
    exact ⟨result, checked, valid.not.mpr (by decide)⟩
  · obtain ⟨result, checked, valid⟩ := late.2.2.2.2
    exact ⟨result, checked, valid.mpr survey_closed⟩

end Typescribe
