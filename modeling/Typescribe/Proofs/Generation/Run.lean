import Typescribe.Proofs.Generation.Progress

/-!
# Whole runs

One schema file is taken exactly if its fields, its procedures and the references that wait for
its types allow it, and a list of files exactly if each of them is taken after those before it.
What a run leaves is known from the declarations of its files alone.
-/

namespace Typescribe.Session

open KnownTypes (knowing)

variable {old fresh all : List Declaration} {session : Session MemoryStore}

/-- A session in order, with texts in order as far as no type is called like the network
client. -/
def InOrder (old fresh all : List Declaration) (session : Session MemoryStore) : Prop :=
  Tracks old fresh all session ∧ (ClientNameFree all → Contents old fresh all session.store)

/-- The module of a type is generated exactly if all its fields can be written. -/
theorem emitType_meets (inOrder : InOrder old fresh all session) (wellFormed : WellFormed all)
    (parts : ∀ other ∈ old ++ fresh, other ∈ all) {root : Declaration} (member : root ∈ all)
    (data : root.isService = false) (isNew : root ∉ old) :
    Meets (session.emitType root)
      (∀ part ∈ root.flatten, ∀ field ∈ part.ownFields, (knowing all).Admits field.type)
      (InOrder old (fresh ++ [root]) all) := by
  obtain ⟨tracks, contents⟩ := inOrder
  have admits : (∃ item, (knowing all).typeModule root = .ok item) ↔ _ :=
    wellFormed.exists_typeModule_iff member data
  cases written : session.known.typeModule root with
  | ok item =>
    obtain ⟨after, ran, known, references, stored, noted⟩ := emitType_eq written
    refine .succeeds (admits.mp ⟨item, tracks.known ▸ written⟩) ran ⟨?_, fun clientNameFree => ?_⟩
    · exact tracks.emitType data written known references stored noted
    · rw [tracks.known] at written
      rw [stored]
      exact (contents clientNameFree).emitType wellFormed clientNameFree parts member data isNew
        written
  | error reason =>
    obtain ⟨after, ran⟩ := emitType_error written
    refine .fails (fun fits => ?_) ran (BlamesSchema.typeModule _ _ reason written)
    obtain ⟨item, done⟩ := admits.mpr fits
    rw [tracks.known, done] at written
    cases written

/-- The module of a service is generated exactly if its procedures send and receive records. -/
theorem emitService_meets (inOrder : InOrder old fresh all session) (wellFormed : WellFormed all)
    (parts : ∀ other ∈ old ++ fresh, other ∈ all) {service : Service}
    (member : .service service ∈ all) :
    Meets (session.emitService service) (∀ type ∈ service.rpcTypes, (knowing all).Carries type)
      (InOrder old (fresh ++ [.service service]) all) := by
  obtain ⟨tracks, contents⟩ := inOrder
  have named : ∀ type, (knowing all).contains type = true →
      ∃ name, type.className = .ok name := by
    intro type contained
    rcases KnownTypes.contains_knowing_iff.mp contained with rfl | ⟨declaration, declared, rfl⟩
    · exact ⟨"Date", rfl⟩
    · exact ⟨_, wellFormed.className_eq declared⟩
  have carries : (∃ item, (knowing all).serviceModule service = .ok item) ↔
      ∀ type ∈ service.rpcTypes, (knowing all).Carries type :=
    KnownTypes.exists_serviceModule_iff named
  cases written : session.known.serviceModule service with
  | ok item =>
    obtain ⟨after, ran, known, references, stored, noted⟩ := emitService_eq written
    rw [tracks.known] at written
    refine .succeeds (carries.mp ⟨item, written⟩) ran ⟨?_, fun clientNameFree => ?_⟩
    · exact tracks.emitService known references stored noted
    · rw [stored]
      exact (contents clientNameFree).emitService wellFormed clientNameFree parts member written
  | error reason =>
    refine .fails (fun fits => ?_) (emitService_error written)
      (BlamesSchema.serviceModule _ _ reason written)
    obtain ⟨item, done⟩ := carries.mpr fits
    rw [tracks.known, done] at written
    cases written

/-- Placeholders are replaced exactly if no earlier field turns out to be of a service. -/
theorem patch_meets {decls : List Declaration} (inOrder : InOrder old decls (old ++ decls) session)
    (wellFormed : WellFormed (old ++ decls))
    (admitted : ∀ part ∈ Declaration.flattenAll decls, ∀ field ∈ part.ownFields,
      (knowing (old ++ decls)).Admits field.type) :
    Meets (session.patch (Declaration.flattenAll decls))
      (∀ part ∈ Declaration.flattenAll old, ∀ type ∈ part.ownReferences,
        ∀ service, .service service ∈ decls → service.type ≠ type)
      (InOrder (old ++ decls) [] (old ++ decls)) := by
  obtain ⟨tracks, contents⟩ := inOrder
  have resolves := tracks.exists_plan_iff wellFormed admitted
  cases planned : session.references.plan (Declaration.flattenAll decls) with
  | ok patches =>
    have held : ∀ patch ∈ patches, (session.store.get? patch.path).isSome = true := by
      intro patch member
      obtain ⟨root, listed, -, same⟩ := tracks.path_of_mem_plan wellFormed planned member
      rw [same]
      exact tracks.files.held root listed
    obtain ⟨after, ran, known, references, paths, noted, patched⟩ :=
      patch_eq planned held tracks.files.noted
    refine .succeeds (resolves.mp ⟨patches, planned⟩) ran ⟨?_, fun clientNameFree => ?_⟩
    · exact tracks.patch known references paths noted
    · exact (contents clientNameFree).patch tracks wellFormed clientNameFree planned patched
  | error reason =>
    obtain ⟨after, ran⟩ := patch_error planned
    have located : ∀ declaring referenced, session.references.Records declaring referenced →
        ∃ file, session.references.module? declaring = some file := by
      intro declaring referenced recorded
      obtain ⟨root, -, -, file⟩ := tracks.located wellFormed recorded
      exact ⟨_, file⟩
    refine .fails (fun fits => ?_) ran (References.plan_blamesSchema located reason planned)
    obtain ⟨patches, done⟩ := resolves.mpr fits
    cases planned.symm.trans done

/-- What a schema file needs to be taken after the given declarations. -/
structure Fits (old : List Declaration) (file : SchemaFile) : Prop where
  /-- Its fields can be written. -/
  fields : ∀ part ∈ file.allTypes, ∀ field ∈ part.ownFields,
    (knowing (old ++ file.declarations)).Admits field.type
  /-- Its procedures send and receive known records. -/
  messages : ∀ service ∈ file.services, ∀ type ∈ service.rpcTypes,
    (knowing (old ++ file.declarations)).Carries type
  /-- No earlier field is of one of its services. -/
  awaited : ∀ part ∈ Declaration.flattenAll old, ∀ type ∈ part.ownReferences,
    ∀ service, .service service ∈ file.declarations → service.type ≠ type

theorem map_services (file : SchemaFile) :
    file.services.map Declaration.service = file.declarations.filter Declaration.isService := by
  rw [SchemaFile.services]
  induction file.declarations with
  | nil => rfl
  | cons declaration rest ih =>
    cases declaration with
    | service body => exact congrArg _ ih
    | record head nested => exact ih
    | enumeration body => exact ih

/-- The types and the services of a file are all its declarations. -/
theorem dataTypes_append_services_perm (file : SchemaFile) :
    (file.dataTypes ++ file.services.map Declaration.service).Perm file.declarations := by
  rw [map_services, SchemaFile.dataTypes]
  exact List.perm_append_comm.trans (List.filter_append_perm Declaration.isService _)

theorem mem_dataTypes_append_services {file : SchemaFile} {root : Declaration} :
    root ∈ file.dataTypes ++ file.services.map Declaration.service ↔ root ∈ file.declarations :=
  (dataTypes_append_services_perm file).mem_iff

/-- A condition on every element in its place, if the place plays no part. -/
theorem forall_split_iff {α : Type} {items : List α} {holds : α → Prop} :
    (∀ before item after, items = before ++ item :: after → holds item) ↔
      ∀ item ∈ items, holds item := by
  constructor
  · intro all item member
    obtain ⟨before, after, split⟩ := List.append_of_mem member
    exact all before item after split
  · intro all before item after split
    exact all item (split ▸ by simp)

/-- A condition on every element of a longer list in its place. -/
theorem forall_split_concat_iff {α : Type} {items : List α} {last : α}
    {holds : List α → α → Prop} :
    (∀ before item after, items ++ [last] = before ++ item :: after → holds before item) ↔
      (∀ before item after, items = before ++ item :: after → holds before item) ∧
        holds items last := by
  constructor
  · intro all
    refine ⟨fun before item after split => all before item (after ++ [last]) ?_,
      all items last [] rfl⟩
    rw [split, List.append_assoc, List.cons_append]
  · rintro ⟨earlier, final⟩ before item after split
    rcases List.eq_nil_or_concat after with rfl | ⟨init, other, rfl⟩
    · obtain ⟨rfl, single⟩ := List.append_inj' split rfl
      exact List.singleton_inj.mp single ▸ final
    · rw [List.concat_eq_append, ← List.cons_append, ← List.append_assoc] at split
      exact earlier before item init (List.append_inj' split rfl).1

/-- A session in order stays so when more declarations become known. -/
theorem InOrder.register (inOrder : InOrder old [] old session) (decls : List Declaration) :
    InOrder old [] (old ++ decls) { session with known := knowing (old ++ decls) } := by
  obtain ⟨tracks, contents⟩ := inOrder
  refine ⟨⟨rfl, tracks.modules, tracks.recorded, tracks.awaitedByOld,
    fun _ member => absurd member List.not_mem_nil, tracks.files⟩, fun clientNameFree => ?_⟩
  have texts := contents fun root member => clientNameFree root (List.mem_append_left _ member)
  refine ⟨texts.oldTypes, fun _ member => absurd member List.not_mem_nil, ?_, texts.clients⟩
  intro service member
  obtain ⟨item, written, content⟩ := texts.services service member
  refine ⟨item, KnownTypes.serviceModule_of_find? written ?_, content⟩
  exact fun _ _ found => KnownTypes.find?_knowing_append found decls

/-- Taking a file is generating its types, then its services, and then patching. -/
theorem processFile_eq {file : SchemaFile} (known : session.known = knowing old)
    (wellFormed : WellFormed (old ++ file.declarations)) :
    session.processFile file =
      andThen (forEach emitType { session with known := knowing (old ++ file.declarations) }
        file.dataTypes) fun session =>
        andThen (session.forEach emitService file.services) fun session =>
          session.patch (Declaration.flattenAll file.declarations) := by
  rw [processFile_andThen, known, wellFormed.register_knowing]

section

variable {file : SchemaFile} (wellFormed : WellFormed (old ++ file.declarations))
include wellFormed

/-- The types of a file are generated exactly if all their fields can be written. -/
theorem forEach_emitType_meets (inOrder : InOrder old [] (old ++ file.declarations) session) :
    Meets (session.forEach emitType file.dataTypes)
      (∀ root ∈ file.dataTypes, ∀ part ∈ root.flatten, ∀ field ∈ part.ownFields,
        (knowing (old ++ file.declarations)).Admits field.type)
      (InOrder old file.dataTypes (old ++ file.declarations)) := by
  rw [← forall_split_iff]
  refine forEach_meets (fun _ root => ∀ part ∈ root.flatten, ∀ field ∈ part.ownFields,
      (knowing (old ++ file.declarations)).Admits field.type)
    (fun done => InOrder old done (old ++ file.declarations)) file.dataTypes ?_ inOrder
  intro done root rest split session inOrder
  have member : root ∈ file.dataTypes := split ▸ by simp
  obtain ⟨declared, data⟩ := mem_dataTypes.mp member
  refine emitType_meets inOrder wellFormed ?_ (List.mem_append_right _ declared) data
    (wellFormed.not_mem_of_mem_right declared)
  intro other listed
  rw [List.mem_append] at listed ⊢
  refine listed.imp_right fun isDone => (mem_dataTypes.mp ?_).1
  exact split ▸ List.mem_append_left _ isDone

/-- The services of a file are generated exactly if their procedures send and receive records. -/
theorem forEach_emitService_meets
    (inOrder : InOrder old file.dataTypes (old ++ file.declarations) session) :
    Meets (session.forEach emitService file.services)
      (∀ service ∈ file.services, ∀ type ∈ service.rpcTypes,
        (knowing (old ++ file.declarations)).Carries type)
      (InOrder old file.declarations (old ++ file.declarations)) := by
  have generated : Meets (session.forEach emitService file.services)
      (∀ service ∈ file.services, ∀ type ∈ service.rpcTypes,
        (knowing (old ++ file.declarations)).Carries type)
      (InOrder old (file.dataTypes ++ file.services.map Declaration.service)
        (old ++ file.declarations)) := by
    rw [← forall_split_iff]
    refine forEach_meets (fun _ service => ∀ type ∈ service.rpcTypes,
        (knowing (old ++ file.declarations)).Carries type)
      (fun done => InOrder old (file.dataTypes ++ done.map Declaration.service)
        (old ++ file.declarations)) file.services ?_ (by simpa using inOrder)
    intro done service rest split session inOrder
    have member : service ∈ file.services := split ▸ by simp
    rw [List.map_append, ← List.append_assoc]
    refine emitService_meets inOrder wellFormed ?_
      (List.mem_append_right _ (mem_services.mp member))
    intro other listed
    rw [List.mem_append] at listed ⊢
    refine listed.imp_right fun isDone => mem_dataTypes_append_services.mp ?_
    rw [split, List.map_append, ← List.append_assoc]
    exact List.mem_append_left _ isDone
  refine generated.mono fun after inOrder => ⟨inOrder.1.congr ?_, fun clientNameFree => ?_⟩
  · exact fun root => mem_dataTypes_append_services.symm
  · exact (inOrder.2 clientNameFree).congr fun root => mem_dataTypes_append_services.symm

omit wellFormed in
/-- The fields of a file are those of its top-level types and of what they hold. -/
theorem forall_fields_iff {holds : Field → Prop} :
    (∀ root ∈ file.dataTypes, ∀ part ∈ root.flatten, ∀ field ∈ part.ownFields, holds field) ↔
      ∀ part ∈ file.allTypes, ∀ field ∈ part.ownFields, holds field := by
  constructor
  · intro all part declared field listed
    obtain ⟨root, member, inside⟩ := Declaration.mem_flattenAll.mp declared
    cases root with
    | record head nested => exact all _ (mem_dataTypes.mpr ⟨member, rfl⟩) part inside field listed
    | enumeration body => exact all _ (mem_dataTypes.mpr ⟨member, rfl⟩) part inside field listed
    | service body =>
      rw [Declaration.flatten, List.mem_singleton] at inside
      rw [inside] at listed
      exact absurd listed List.not_mem_nil
  · intro all root member part inside
    exact all part (Declaration.mem_flattenAll.mpr ⟨root, (mem_dataTypes.mp member).1, inside⟩)

/-- A file is taken exactly if it fits. -/
theorem processFile_meets (inOrder : InOrder old [] old session) :
    Meets (session.processFile file) (Fits old file)
      (InOrder (old ++ file.declarations) [] (old ++ file.declarations)) := by
  rw [processFile_eq inOrder.1.known wellFormed]
  have types := forEach_emitType_meets wellFormed (inOrder.register file.declarations)
  rw [forall_fields_iff] at types
  refine (types.andThen fun admitted session inOrder =>
    (forEach_emitService_meets wellFormed inOrder).andThen fun _ session inOrder =>
      patch_meets inOrder wellFormed admitted).congr ?_
  constructor
  · rintro ⟨fields, messages, awaited⟩
    exact ⟨fields, messages, awaited⟩
  · rintro ⟨fields, messages, awaited⟩
    exact ⟨fields, messages, awaited⟩

end

theorem inOrder_start : InOrder [] [] [] { store := ({} : MemoryStore) } := by
  refine ⟨?_, fun _ => ?_⟩
  · constructor
    case known => exact KnownTypes.knowing_nil.symm
    case recorded =>
      rintro declaring referenced ⟨entry, listed, -⟩
      exact absurd listed List.not_mem_nil
    case files =>
      refine ⟨fun _ member => absurd member List.not_mem_nil, rfl, fun path listed => ?_⟩
      exact absurd listed List.not_mem_nil
    all_goals exact fun _ member => absurd member List.not_mem_nil
  · constructor
    all_goals exact fun _ member => absurd member List.not_mem_nil

/-- Files are taken exactly if each fits after those before it. -/
theorem processFiles_meets {files : List SchemaFile} (wellFormed : WellFormed (rootsOf files)) :
    Meets (processFiles { store := ({} : MemoryStore) } files)
      (∀ before file after, files = before ++ file :: after → Fits (rootsOf before) file)
      (InOrder (rootsOf files) [] (rootsOf files)) := by
  refine forEach_meets (fun before => Fits (rootsOf before))
    (fun before => InOrder (rootsOf before) [] (rootsOf before)) files ?_ inOrder_start
  intro before file after split session inOrder
  rw [rootsOf_concat]
  refine processFile_meets ?_ inOrder
  rw [split, List.append_cons, rootsOf_append, rootsOf_concat] at wellFormed
  exact wellFormed.of_append_left

end Typescribe.Session
