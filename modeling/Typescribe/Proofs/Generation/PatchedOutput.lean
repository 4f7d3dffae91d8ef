import Typescribe.Proofs.Generation.SoundTemplate
import Typescribe.Proofs.Generation.Success

/-!
# Patched output is direct output

A type's module may be written before the types that it refers to are known, and patched when they
become known. In the end its file holds what would have been written with everything known from
the start. So neither the order of the files nor the spread of declarations over them shows in the
output.
-/

namespace Typescribe

open Placeholder

open KnownTypes (knowing)

namespace Session

variable {roots : List Declaration} {store : MemoryStore} {root : Declaration}

/-- An up-to-date file holds the template of its type, filled with everything that is known. -/
theorem UpToDate.get?_eq (upToDate : UpToDate roots store root) (wellFormed : WellFormed roots)
    (unmarkedTexts : UnmarkedTexts roots) (member : root ∈ roots) :
    store.get? root.type.moduleFile =
      some (String.ofList (Template.fill (knowing roots).slotText root.template)) := by
  obtain ⟨earlier, item, replacements, isPrefix, written, content, entries, caughtUp⟩ := upToDate
  obtain ⟨later, rfl⟩ := isPrefix
  have sound := wellFormed.bracelessTypes.sound_template unmarkedTexts member
  have replaced : ∀ entry ∈ replacements, Braceless entry.1.text.toList ∧
      entry.2.toList = (knowing (earlier ++ later)).slotText entry.1 ∧
      Settled ((knowing (earlier ++ later)).slotText entry.1) := by
    intro entry listed
    obtain ⟨-, declaration, declared, given, same⟩ := entries entry listed
    rw [← same]
    have contained := KnownTypes.contains_knowing_iff.mpr (.inr ⟨declaration, declared, rfl⟩)
    exact ⟨(wellFormed.type_isPlain declared).braceless,
      KnownTypes.toList_replacement (wellFormed.find?_knowing declared) given,
      wellFormed.bracelessNames.settled_slotText contained⟩
  rw [content, render_eq_fill written,
    Template.apply_fill sound wellFormed.of_append_left.bracelessNames.steady_slotText _ replaced]
  congr 2
  apply Template.fill_congr
  rw [slots_template]
  intro type referenced
  split
  · rfl
  next notReplaced =>
    cases found : (knowing earlier).find? type with
    | some declaration =>
      rw [← KnownTypes.find?_knowing_append found later] at found
      exact KnownTypes.slotText_congr found
    | none =>
      -- The type was not known and its token not replaced, so it is still not known.
      rw [KnownTypes.find?_eq_none_iff] at found
      have isToken := KnownTypes.slotText_of_not_contains found
      have unknown : (knowing (earlier ++ later)).contains type = false := by
        rw [← Bool.not_eq_true]
        intro contained
        rcases caughtUp type referenced contained with before | replaced
        · rw [found] at before
          exact Bool.false_ne_true before
        · exact notReplaced ⟨isToken, replaced⟩
      rw [isToken, KnownTypes.slotText_of_not_contains unknown]

/-- What a store holds is held by every store that has the same modules and network clients. -/
theorem Files.get?_of_get? {outputs : List Path} {other : MemoryStore}
    (files : Files roots outputs store)
    (modules : ∀ root ∈ roots,
      other.get? root.type.moduleFile = store.get? root.type.moduleFile)
    (clients : ∀ service, .service service ∈ roots →
      other.get? (Service.clientFile service.type) = store.get? (Service.clientFile service.type))
    {path : Path} {text : String} (held : store.get? path = some text) :
    other.get? path = some text := by
  obtain ⟨spelled, listed, same⟩ :=
    MemoryStore.get?_isSome_iff.mp (Option.isSome_iff_exists.mpr ⟨text, held⟩)
  rw [← MemoryStore.get?_congr same] at held ⊢
  rcases files.origins spelled listed with ⟨root, member, isModule⟩ | ⟨service, member, isClient⟩
  · rw [isModule] at held ⊢
    exact (modules root member).trans held
  · rw [isClient] at held ⊢
    exact (clients service member).trans held

section

variable {files others : List SchemaFile} {session other : Session MemoryStore}
  (wellFormed : WellFormed (rootsOf files)) (clientNameFree : ClientNameFree (rootsOf files))
  (unmarkedTexts : UnmarkedTexts (rootsOf files))
  (ran : processFiles { store := ({} : MemoryStore) } files = (.ok (), session))

include wellFormed clientNameFree unmarkedTexts ran

/-- A generated type's file holds the filled template of the type. -/
theorem get?_type_eq {root : Declaration} (member : root ∈ rootsOf files)
    (data : root.isService = false) :
    session.store.get? root.type.moduleFile =
      some (String.ofList (Template.fill (knowing (rootsOf files)).slotText root.template)) := by
  have inOrder := ((processFiles_meets wellFormed).of_ok ran).2
  have upToDate := (inOrder.2 clientNameFree).oldTypes root member data
  exact upToDate.get?_eq wellFormed unmarkedTexts member

omit unmarkedTexts in
theorem get?_service_eq {service : Service} (member : .service service ∈ rootsOf files) :
    ∃ item, (knowing (rootsOf files)).serviceModule service = .ok item ∧
      session.store.get? service.type.moduleFile = some item.render := by
  have inOrder := ((processFiles_meets wellFormed).of_ok ran).2
  exact (inOrder.2 clientNameFree).services service (List.mem_append_left _ member)

omit clientNameFree unmarkedTexts in
/-- Every generated type could also be written with everything known from the start. -/
theorem exists_typeModule {root : Declaration} (member : root ∈ rootsOf files)
    (data : root.isService = false) :
    ∃ item, (knowing (rootsOf files)).typeModule root = .ok item := by
  have generable := (exists_processFiles_iff wellFormed).mp ⟨session, ran⟩
  rw [wellFormed.exists_typeModule_iff member data]
  intro part inside field listed
  have declared := Declaration.mem_flattenAll.mpr ⟨root, member, inside⟩
  rw [Generable.admits_iff wellFormed, TypeName.className_isOk_iff]
  exact ⟨generable.fieldsNamed part declared field listed,
    generable.noServiceFields part declared field listed⟩

/-- Files with the same declarations, however ordered and spread, lead to the same modules. -/
theorem get?_module_eq_of_perm (perm : (rootsOf files).Perm (rootsOf others))
    (otherRan : processFiles { store := ({} : MemoryStore) } others = (.ok (), other))
    {root : Declaration} (member : root ∈ rootsOf files) :
    other.store.get? root.type.moduleFile = session.store.get? root.type.moduleFile := by
  have otherWellFormed := wellFormed.perm perm
  have otherNameFree : ClientNameFree (rootsOf others) := fun root member =>
    clientNameFree root (perm.mem_iff.mpr member)
  have sameTable := wellFormed.find?_knowing_perm perm
  cases data : root.isService with
  | false =>
    have otherUnmarked : UnmarkedTexts (rootsOf others) := by
      intro part declared
      obtain ⟨top, listed, inside⟩ := Declaration.mem_flattenAll.mp declared
      exact unmarkedTexts part
        (Declaration.mem_flattenAll.mpr ⟨top, perm.mem_iff.mpr listed, inside⟩)
    have sameSlots : (knowing (rootsOf others)).slotText = (knowing (rootsOf files)).slotText :=
      funext fun type => KnownTypes.slotText_congr (sameTable type).symm
    rw [get?_type_eq wellFormed clientNameFree unmarkedTexts ran member data,
      get?_type_eq otherWellFormed otherNameFree otherUnmarked otherRan (perm.mem_iff.mp member)
        data, sameSlots]
  | true =>
    obtain ⟨service, rfl⟩ := Declaration.isService_iff.mp data
    obtain ⟨item, written, content⟩ := get?_service_eq wellFormed clientNameFree ran member
    obtain ⟨otherItem, otherWritten, otherContent⟩ :=
      get?_service_eq otherWellFormed otherNameFree otherRan (perm.mem_iff.mp member)
    have again := KnownTypes.serviceModule_of_find? otherWritten fun type declaration found =>
      (sameTable type).trans found
    rw [written, Except.ok.injEq] at again
    rw [← again] at otherContent
    exact otherContent.trans content.symm

end

end Session

/-- After a run over well-formed schema files, the file of every type and of every service holds
exactly what would be written with all their declarations known from the start. Therefore a run
over the same declarations in any order, spread over files in any way, leaves the same texts. -/
theorem processFiles_output_eq_direct {files : List SchemaFile} {session : Session MemoryStore}
    (wellFormed : WellFormed (rootsOf files)) (clientNameFree : ClientNameFree (rootsOf files))
    (unmarkedTexts : UnmarkedTexts (rootsOf files))
    (ran : Session.processFiles { store := ({} : MemoryStore) } files = (.ok (), session)) :
    (∀ root ∈ rootsOf files, root.isService = false →
      ∃ item, (KnownTypes.initial.register (rootsOf files)).known.typeModule root = .ok item ∧
        session.store.get? root.type.moduleFile = some item.render) ∧
    (∀ service, .service service ∈ rootsOf files →
      ∃ item, (KnownTypes.initial.register (rootsOf files)).known.serviceModule service = .ok item ∧
        session.store.get? service.type.moduleFile = some item.render) ∧
    ∀ others other, (rootsOf files).Perm (rootsOf others) →
      Session.processFiles { store := ({} : MemoryStore) } others = (.ok (), other) →
        ∀ path, other.store.get? path = session.store.get? path := by
  rw [wellFormed.register_initial]
  refine ⟨?_, ?_, ?_⟩
  · intro root member data
    obtain ⟨item, written⟩ := Session.exists_typeModule wellFormed ran member data
    refine ⟨item, written, ?_⟩
    rw [Session.get?_type_eq wellFormed clientNameFree unmarkedTexts ran member data,
      render_eq_fill written]
  · intro service member
    exact Session.get?_service_eq wellFormed clientNameFree ran member
  · intro others other perm otherRan path
    have otherWellFormed := wellFormed.perm perm
    have inOrder := ((Session.processFiles_meets wellFormed).of_ok ran).2
    have otherInOrder := ((Session.processFiles_meets otherWellFormed).of_ok otherRan).2
    have otherNameFree : ClientNameFree (rootsOf others) := fun root member =>
      clientNameFree root (perm.mem_iff.mpr member)
    have modules : ∀ root ∈ rootsOf files,
        other.store.get? root.type.moduleFile = session.store.get? root.type.moduleFile :=
      fun root =>
        Session.get?_module_eq_of_perm wellFormed clientNameFree unmarkedTexts ran perm otherRan
    have clients : ∀ service, .service service ∈ rootsOf files →
        other.store.get? (Service.clientFile service.type) =
          session.store.get? (Service.clientFile service.type) := by
      intro service member
      rw [(inOrder.2 clientNameFree).clients service (List.mem_append_left _ member),
        (otherInOrder.2 otherNameFree).clients service
          (List.mem_append_left _ (perm.mem_iff.mp member))]
    have sessionFiles := inOrder.1.files
    have otherFiles := otherInOrder.1.files
    rw [List.append_nil] at sessionFiles otherFiles
    apply Option.ext
    intro text
    constructor
    · apply otherFiles.get?_of_get?
      · exact fun root member => (modules root (perm.mem_iff.mpr member)).symm
      · exact fun service member => (clients service (perm.mem_iff.mpr member)).symm
    · exact sessionFiles.get?_of_get? modules clients

/-- The survey's types refer to each other across files, and still its output is direct output.
Exchanging the files of its types changes no text. -/
theorem survey_output_eq_direct :
    (∃ session,
      Session.processFiles { store := ({} : MemoryStore) } surveyFiles = (.ok (), session) ∧
      ∀ root ∈ rootsOf surveyFiles, root.isService = false →
        ∃ item, (KnownTypes.initial.register (rootsOf surveyFiles)).known.typeModule root =
            .ok item ∧
          session.store.get? root.type.moduleFile = some item.render) ∧
    ∃ session other,
      Session.processFiles { store := ({} : MemoryStore) } surveyTypes = (.ok (), session) ∧
      Session.processFiles { store := ({} : MemoryStore) } surveyTypes.reverse = (.ok (), other) ∧
      ∀ path, other.store.get? path = session.store.get? path := by
  have typesWellFormed : WellFormed (rootsOf surveyTypes) := by decide
  have perm : surveyTypes.Perm surveyTypes.reverse := (List.reverse_perm surveyTypes).symm
  have rootsPerm : (rootsOf surveyTypes).Perm (rootsOf surveyTypes.reverse) := perm.flatMap_right _
  have typesGenerable : Generable surveyTypes := Generable.survey.of_append_left survey_wellFormed
  obtain ⟨session, ran⟩ := (exists_processFiles_iff survey_wellFormed).mpr Generable.survey
  obtain ⟨first, firstRan⟩ := (exists_processFiles_iff typesWellFormed).mpr typesGenerable
  obtain ⟨second, secondRan⟩ := (exists_processFiles_iff (typesWellFormed.perm rootsPerm)).mpr
    (typesGenerable.perm perm (by decide))
  refine ⟨⟨session, ran, ?_⟩, first, second, firstRan, secondRan, ?_⟩
  · exact (processFiles_output_eq_direct survey_wellFormed survey_clientNameFree survey_unmarkedTexts
      ran).1
  · exact (processFiles_output_eq_direct typesWellFormed (by decide) (by decide +kernel)
      firstRan).2.2 _ second rootsPerm secondRan

end Typescribe
