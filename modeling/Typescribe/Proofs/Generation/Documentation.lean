import Typescribe.Proofs.Generation.Reach
import Typescribe.Proofs.Generation.UndocumentedModules

/-!
# Documentation does not influence code

A run over schema files and the run over the same files without documentation go side by side,
whether they succeed or fail: they know the same types, record the same references and write the
same files, and the texts of each file are fillings of two templates with the same code. So runs
over schema files that differ in documentation alone come to the same, comments apart.
-/

namespace Typescribe

open Text Placeholder

/-! ## What is called for and what is replaced -/

/-- What a file calls for is among its declarations. -/
theorem KnownTypes.mem_declarations_of_called {known : KnownTypes} {file : SchemaFile}
    {root : Declaration} (called : root ∈ (known.calledFor file).map Emission.root) :
    root ∈ file.declarations := by
  rw [calledFor, List.map_map] at called
  obtain ⟨same, listed, rfl⟩ := List.mem_map.mp called
  exact (of_mem_newRoots (Session.mem_dataTypes_append_services.mp listed)).1

/-- Files without documentation call for the same, without documentation. -/
theorem KnownTypes.map_root_calledFor_undocumented (known : KnownTypes) (file : SchemaFile) :
    (known.undocumented.calledFor file.undocumented).map Emission.root =
      ((known.calledFor file).map Emission.root).map Declaration.undocumented := by
  let roots : SchemaFile :=
    { file with declarations := (known.register file.declarations).newRoots }
  have plainRoots : { file.undocumented with
      declarations := (known.undocumented.register file.undocumented.declarations).newRoots } =
      roots.undocumented := by
    rw [SchemaFile.undocumented, register_undocumented]
    rfl
  rw [calledFor, calledFor, plainRoots, SchemaFile.dataTypes_undocumented,
    SchemaFile.services_undocumented]
  simp only [List.map_map, List.map_append]
  rfl

theorem replacement_undocumented (declaration : Declaration) :
    replacement declaration.undocumented = replacement declaration := by
  cases declaration <;> rfl

namespace References

theorem replacementsFor_undocumented (referenced : List TypeName) (newTypes : List Declaration) :
    replacementsFor referenced (newTypes.map Declaration.undocumented) =
      replacementsFor referenced newTypes := by
  rw [replacementsFor, replacementsFor, List.filter_map, List.mapM_map]
  simp only [Function.comp_def, replacement_undocumented, Declaration.type_undocumented]

theorem plan_undocumented (references : References) (newTypes : List Declaration) :
    references.plan (newTypes.map Declaration.undocumented) = references.plan newTypes := by
  rw [plan, plan]
  generalize ([] : List Patch) = planned
  induction references.unresolved generalizing planned with
  | nil => rfl
  | cons entry rest ih =>
    obtain ⟨declaring, referenced⟩ := entry
    rw [planFrom, planFrom, replacementsFor_undocumented, List.any_map]
    simp only [Function.comp_def, Declaration.type_undocumented, ih]

end References

/-- What replaces the token of a type is settled. -/
theorem settled_replacement {declaration : Declaration} {text : String}
    (braceless : Braceless declaration.type.text.toList)
    (given : replacement declaration = .ok text) : Settled text.toList := by
  have found : KnownTypes.find? ⟨[declaration]⟩ declaration.type = some declaration := by
    simp [KnownTypes.find?]
  have names : KnownTypes.BracelessNames ⟨[declaration]⟩ :=
    List.forall_mem_singleton.mpr braceless
  rw [KnownTypes.toList_replacement found given]
  exact names.settled_slotText (by simp [KnownTypes.contains, found])

theorem References.settled_of_mem_plan {references : References} {newTypes : List Declaration}
    {patches : List Patch} (planned : references.plan newTypes = .ok patches)
    (braceless : ∀ declaration ∈ newTypes, Braceless declaration.type.text.toList) {path : Path} :
    ∀ entry ∈ Patch.replacementsAt path patches,
      Braceless entry.1.text.toList ∧ Settled entry.2.toList := by
  intro entry listed
  obtain ⟨-, -, declaration, isNew, -, given, same⟩ := (mem_replacementsAt_plan planned).mp listed
  rw [← same]
  exact ⟨braceless declaration isNew, settled_replacement (braceless declaration isNew) given⟩

/-! ## Counterparts -/

/-- Texts that fill the slots of two templates with the same. The templates have the same code
whatever fills them, since patching fills further slots later on. -/
inductive Counterparts : String → String → Prop where
  | fill (value : TypeName → List Char) {template plain : Template} (steady : Template.Steady value)
      (sound : template.Sound) (plainSound : plain.Sound) (slots : plain.slots = template.slots)
      (code : ∀ other, SameCode (template.fill other) (plain.fill other)) :
      Counterparts (String.ofList (template.fill value)) (String.ofList (plain.fill value))

namespace Counterparts

variable {text plain : String}

theorem of_settled (settled : Settled text.toList) (plainSettled : Settled plain.toList)
    (code : SameCode text.toList plain.toList) : Counterparts text plain := by
  have filled (text : String) : String.ofList
      (Template.fill (fun type => tokenChars type.text.toList) [.text text.toList]) = text := by
    simp [Piece.fill]
  rw [← filled text, ← filled plain]
  exact .fill _ (fun _ => .inl rfl) (.text settled .nil) (.text plainSettled .nil) rfl
    (by simpa [Piece.fill] using code)

theorem codeLines_eq (counterparts : Counterparts text plain) :
    codeLines plain.toList = codeLines text.toList := by
  obtain ⟨value, -, -, -, -, code⟩ := counterparts
  rw [String.toList_ofList, String.toList_ofList]
  exact (code value).codeLines.symm

theorem residual_eq (counterparts : Counterparts text plain) : residual plain = residual text := by
  obtain ⟨value, steady, sound, plainSound, slots, -⟩ := counterparts
  rw [Template.residual_fill sound steady, Template.residual_fill plainSound steady, slots]

/-- Patching keeps counterparts. -/
theorem apply (counterparts : Counterparts text plain) (path : Path)
    {replacements : List (TypeName × String)}
    (entries : ∀ entry ∈ replacements, Braceless entry.1.text.toList ∧ Settled entry.2.toList) :
    Counterparts (Patch.apply ⟨path, replacements⟩ text)
      (Patch.apply ⟨path, replacements⟩ plain) := by
  obtain ⟨value, steady, sound, plainSound, slots, code⟩ := counterparts
  rw [Patch.apply, Patch.apply, String.toList_ofList, String.toList_ofList]
  induction replacements generalizing value with
  | nil => exact .fill value steady sound plainSound slots code
  | cons entry rest ih =>
    obtain ⟨⟨braceless, settled⟩, later⟩ := List.forall_mem_cons.mp entries
    rw [List.foldl_cons, List.foldl_cons, Template.replaceAll_fill sound steady braceless,
      Template.replaceAll_fill plainSound steady braceless]
    exact ih later _ (steady.supply entry.1 settled)

end Counterparts

/-! ## Side by side -/

namespace Session

/-- A session and one that was given the same without documentation. -/
structure Undocumented (left right : Session MemoryStore) : Prop where
  known : right.known = left.known.undocumented
  braceless : left.known.BracelessNames
  references : right.references = left.references
  located : ∀ entry ∈ left.references.modules, (left.store.get? entry.2).isSome = true
  paths : right.store.paths = left.store.paths
  outputs : left.outputs.map Prod.fst = left.store.paths
  plainOutputs : right.outputs.map Prod.fst = right.store.paths
  texts : ∀ path, Option.Rel Counterparts (left.store.get? path) (right.store.get? path)

namespace Undocumented

variable {left right : Session MemoryStore} (beside : Undocumented left right)
include beside

/-- Writing counterparts succeeds in both sessions. -/
theorem write (path : Path) {item plain : TypeScript.Module}
    (counterparts : Counterparts item.render plain.render) :
    ∃ first second, left.write path item = (.ok (), first) ∧
      right.write path plain = (.ok (), second) ∧ Undocumented first second ∧
      (first.store.get? path).isSome = true := by
  rw [write_eq, write_eq]
  refine ⟨_, _, rfl, rfl, ⟨beside.known, beside.braceless, beside.references, ?_, ?_, ?_, ?_, ?_⟩,
    ?_⟩
  · exact fun entry listed => MemoryStore.isSome_get?_put (beside.located entry listed) _ _
  · simp only [MemoryStore.paths_put, beside.paths]
  · simp only [MemoryStore.paths_put, paths_noteOutput, beside.outputs]
  · simp only [MemoryStore.paths_put, paths_noteOutput, beside.plainOutputs]
  · intro other
    simp only [MemoryStore.get?_put]
    split
    · exact .some counterparts
    · exact beside.texts other
  · simp only [MemoryStore.get?_put_self, Option.isSome_some]

theorem isSome_get? (path : Path) :
    (right.store.get? path).isSome = (left.store.get? path).isSome := by
  rw [Bool.eq_iff_iff, MemoryStore.get?_isSome_iff, MemoryStore.get?_isSome_iff, beside.paths]

theorem withReferences (references : References)
    (located : ∀ entry ∈ references.modules, (left.store.get? entry.2).isSome = true) :
    Undocumented { left with references } { right with references } :=
  { beside with references := rfl, located }

theorem patch {newTypes : List Declaration}
    (braceless : ∀ declaration ∈ newTypes, Braceless declaration.type.text.toList) :
    Agree Undocumented (left.patch newTypes)
      (right.patch (newTypes.map Declaration.undocumented)) := by
  have samePlan : right.references.plan (newTypes.map Declaration.undocumented) =
      left.references.plan newTypes := by
    rw [beside.references, References.plan_undocumented]
  cases planned : left.references.plan newTypes with
  | error reason =>
    rw [patch_of_error planned, patch_of_error (samePlan.trans planned)]
    exact ⟨rfl, beside⟩
  | ok patches =>
    have held : ∀ patch ∈ patches, (left.store.get? patch.path).isSome = true := by
      intro patch member
      obtain ⟨declaring, -, -, file⟩ := References.path_of_mem_plan planned member
      exact beside.located (declaring.root, patch.path) (References.mem_modules_of_module? file)
    obtain ⟨first, patched, known, references, paths, outputs, contents⟩ :=
      patch_eq planned held beside.outputs
    obtain ⟨second, plainPatched, plainKnown, plainReferences, plainPaths, plainOutputs,
      plainContents⟩ := patch_eq (samePlan.trans planned)
        (fun patch member => (beside.isSome_get? _).trans (held patch member)) beside.plainOutputs
    rw [patched, plainPatched]
    refine ⟨rfl, ⟨?_, ?_, ?_, ?_, ?_, ?_, ?_, fun path => ?_⟩⟩
    · rw [plainKnown, beside.known, known]
    · exact known ▸ beside.braceless
    · rw [plainReferences, beside.references, references]
    · intro entry listed
      rw [references] at listed
      rw [contents, Option.isSome_map]
      exact beside.located entry listed
    · rw [plainPaths, beside.paths, paths]
    · rw [outputs, paths, beside.outputs]
    · rw [plainOutputs, plainPaths, beside.plainOutputs]
    · rw [contents, plainContents]
      have related := beside.texts path
      generalize left.store.get? path = text, right.store.get? path = plain at related
      cases related with
      | none => exact .none
      | some counterparts =>
        exact .some (counterparts.apply path (References.settled_of_mem_plan planned braceless))

section

variable {roots : List Declaration} (braceless : BracelessTypes roots)
  (unmarked : UnmarkedTexts roots)
include braceless unmarked

theorem emitType {root : Declaration} (member : root ∈ roots) :
    Agree Undocumented (left.emitType root) (right.emitType root.undocumented) := by
  -- The placeholders are recorded even if the module cannot be made.
  have recorded := beside.withReferences
    (left.references.insertAll (left.known.placeholdersOf root.flatten))
    (by rw [References.modules_insertAll]; exact beside.located)
  rw [beside.known] at recorded
  rw [Session.emitType, Session.emitType, beside.known, beside.references,
    Declaration.flatten_undocumented, KnownTypes.placeholdersOf_undocumented,
    Declaration.type_undocumented]
  dsimp only
  rcases (left.known.typeModule_undocumented root).error_or_ok with
    ⟨reason, failed, plainFailed⟩ | ⟨item, plain, made, plainMade, -⟩
  · rw [failed, plainFailed]
    exact ⟨rfl, recorded⟩
  · have counterparts : Counterparts item.render plain.render := by
      rw [render_eq_fill made, render_eq_fill plainMade, KnownTypes.slotText_undocumented]
      refine .fill _ beside.braceless.steady_slotText (braceless.sound_template unmarked member)
        ?_ ?_ fun other => root.sameCode_template other
      · exact (bracelessTypes_undocumented.mpr braceless).sound_template unmarked.undocumented
          (List.mem_map_of_mem member)
      · rw [slots_template, slots_template, Declaration.referencedTypes_undocumented]
    -- Nothing depends on where the module goes, as long as it goes to the same path.
    generalize root.type.moduleFile = path
    obtain ⟨first, second, written, plainWritten, after, held⟩ := recorded.write path counterparts
    rw [made, plainMade]
    dsimp only
    rw [written, plainWritten]
    dsimp only
    rw [after.references]
    refine ⟨rfl, after.withReferences _ fun entry listed => ?_⟩
    rcases List.mem_cons.mp listed with rfl | listed
    · exact held
    · exact after.located entry listed

theorem emitService {service : Service} (member : .service service ∈ roots) :
    Agree Undocumented (left.emitService service) (right.emitService service.undocumented) := by
  have sameType : service.undocumented.type = service.type := rfl
  rw [Session.emitService, Session.emitService, beside.known, sameType]
  rcases (left.known.serviceModule_undocumented service).error_or_ok with
    ⟨reason, failed, plainFailed⟩ | ⟨item, plain, made, plainMade, code⟩
  · rw [failed, plainFailed]
    exact ⟨rfl, beside⟩
  · have counterparts : Counterparts item.render plain.render :=
      .of_settled (braceless.settled_serviceModule unmarked member made)
        ((bracelessTypes_undocumented.mpr braceless).settled_serviceModule unmarked.undocumented
          (List.mem_map_of_mem member) plainMade) code
    have client : Counterparts Service.clientModule.render Service.clientModule.render :=
      .of_settled Service.settled_clientModule Service.settled_clientModule
        (.refl (TypeScript.Module.endsLine_render _))
    obtain ⟨first, second, written, plainWritten, after, -⟩ :=
      beside.write service.type.moduleFile counterparts
    obtain ⟨third, fourth, added, plainAdded, afterBoth, -⟩ :=
      after.write (Service.clientFile service.type) client
    rw [made, plainMade]
    dsimp only
    rw [written, plainWritten]
    dsimp only
    rw [added, plainAdded]
    exact ⟨rfl, afterBoth⟩

theorem emit {root : Declaration} (member : root ∈ roots) :
    Agree Undocumented (left.emit root) (right.emit root.undocumented) := by
  cases root with
  | record head nested => exact beside.emitType braceless unmarked member
  | enumeration body => exact beside.emitType braceless unmarked member
  | service body => exact beside.emitService braceless unmarked member

theorem processFile {file : SchemaFile} (within : file.declarations ⊆ roots) :
    Agree Undocumented (left.processFile file) (right.processFile file.undocumented) := by
  have registered := left.known.register_undocumented file.declarations
  have newNames : ∀ declaration ∈ (left.known.register file.declarations).newTypes,
      Braceless declaration.type.text.toList := by
    intro declaration isNew
    obtain ⟨root, member, inside, -⟩ := KnownTypes.of_mem_newTypes isNew
    exact braceless declaration (Declaration.mem_flattenAll.mpr ⟨root, within member, inside⟩) _
      declaration.type_mem_mentionedTypes
  have known : Undocumented
      { left with known := (left.known.register file.declarations).known }
      { right with known := (left.known.register file.declarations).known.undocumented } := by
    refine { beside with known := rfl, braceless := ?_ }
    rw [KnownTypes.BracelessNames, KnownTypes.declarations_register, List.forall_mem_append]
    exact ⟨beside.braceless, newNames⟩
  rw [processFile_emit, processFile_emit, beside.known, KnownTypes.map_root_calledFor_undocumented,
    SchemaFile.undocumented, registered, forEach_map Session.emit Declaration.undocumented]
  refine andThen_agree (forEach_agree (fun root called left right beside => ?_) known)
    fun left right beside => beside.patch newNames
  exact beside.emit braceless unmarked (within (KnownTypes.mem_declarations_of_called called))

end

end Undocumented

/-- A run and the run without documentation end alike and leave sessions side by side. -/
theorem processFiles_undocumented {files : List SchemaFile}
    (braceless : BracelessTypes (rootsOf files)) (unmarked : UnmarkedTexts (rootsOf files)) :
    Agree Undocumented (Session.processFiles { store := ({} : MemoryStore) } files)
      (Session.processFiles { store := ({} : MemoryStore) }
        (files.map SchemaFile.undocumented)) := by
  have start : Undocumented { store := ({} : MemoryStore) } { store := {} } :=
    ⟨rfl, List.forall_mem_singleton.mpr TypeName.timestamp_braceless, rfl,
      fun _ member => absurd member List.not_mem_nil, rfl, rfl, rfl, fun _ => .none⟩
  rw [processFiles, processFiles, forEach_map]
  refine forEach_agree (fun file member left right beside => ?_) start
  exact beside.processFile braceless unmarked fun root declared =>
    List.mem_flatMap.mpr ⟨file, member, declared⟩

namespace Undocumented

variable {left right : Session MemoryStore} (beside : Undocumented left right)
include beside

/-- What counterparts have in common can be read from either store. -/
theorem map_get? {α : Type} {view : String → α}
    (same : ∀ {text plain}, Counterparts text plain → view plain = view text) (path : Path) :
    (right.store.get? path).map view = (left.store.get? path).map view := by
  have related := beside.texts path
  generalize left.store.get? path = text, right.store.get? path = plain at related
  cases related with
  | none => rfl
  | some counterparts => exact congrArg some (same counterparts)

theorem codeLines_get? (path : Path) :
    (right.store.get? path).map (fun text => codeLines text.toList) =
      (left.store.get? path).map fun text => codeLines text.toList :=
  beside.map_get? Counterparts.codeLines_eq path

theorem tokensAt_eq (path : Path) : right.store.tokensAt path = left.store.tokensAt path := by
  rw [MemoryStore.tokensAt, MemoryStore.tokensAt, beside.map_get? Counterparts.residual_eq]

theorem paths_outputs : right.outputs.map Prod.fst = left.outputs.map Prod.fst := by
  rw [beside.plainOutputs, beside.paths, beside.outputs]

theorem finish : ∃ summary other, left.finish = .ok summary ∧ right.finish = .ok other ∧
    other.unresolved = summary.unresolved := by
  refine ⟨_, _, summarize_eq_ok ?_, summarize_eq_ok ?_, ?_⟩
  · rw [beside.outputs]
    exact fun path member => MemoryStore.get?_isSome_iff.mpr ⟨path, member, path.same_refl⟩
  · rw [beside.plainOutputs]
    exact fun path member => MemoryStore.get?_isSome_iff.mpr ⟨path, member, path.same_refl⟩
  · simp only [beside.paths_outputs, beside.tokensAt_eq]

end Undocumented

end Session

/-- Documentation influences nothing but comments. Runs over schema files that differ in
documentation alone end alike, write the same files in the same order, leave the same placeholders,
and each file has the same lines in both but for comment lines. -/
theorem documentation_inert {files others : List SchemaFile}
    (same : files.map SchemaFile.undocumented = others.map SchemaFile.undocumented)
    (braceless : BracelessTypes (rootsOf files)) (unmarked : UnmarkedTexts (rootsOf files))
    (othersUnmarked : UnmarkedTexts (rootsOf others)) :
    let first := Session.processFiles { store := ({} : MemoryStore) } files
    let second := Session.processFiles { store := ({} : MemoryStore) } others
    second.1 = first.1 ∧ second.2.store.paths = first.2.store.paths ∧
      (∀ path, (second.2.store.get? path).map (fun text => codeLines text.toList) =
        (first.2.store.get? path).map fun text => codeLines text.toList) ∧
      ∃ summary other, first.2.finish = .ok summary ∧ second.2.finish = .ok other ∧
        other.unresolved = summary.unresolved := by
  have othersBraceless : BracelessTypes (rootsOf others) := by
    rw [← bracelessTypes_undocumented, ← rootsOf_undocumented, ← same, rootsOf_undocumented,
      bracelessTypes_undocumented]
    exact braceless
  obtain ⟨result, left, plain, ran, plainRan, beside⟩ :=
    (Session.processFiles_undocumented braceless unmarked).exists_answer
  obtain ⟨otherResult, right, otherPlain, otherRan, otherPlainRan, otherBeside⟩ :=
    (Session.processFiles_undocumented othersBraceless othersUnmarked).exists_answer
  -- Both runs are compared with the one over the files without documentation.
  rw [← same, plainRan] at otherPlainRan
  obtain ⟨rfl, rfl⟩ := Prod.mk.inj otherPlainRan
  dsimp only
  rw [ran, otherRan]
  refine ⟨rfl, otherBeside.paths.symm.trans beside.paths, fun path => ?_, ?_⟩
  · exact (otherBeside.codeLines_get? path).symm.trans (beside.codeLines_get? path)
  · obtain ⟨summary, plainSummary, finished, plainFinished, unresolved⟩ := beside.finish
    obtain ⟨other, otherPlainSummary, otherFinished, otherPlainFinished, otherUnresolved⟩ :=
      otherBeside.finish
    have samePlain := Except.ok.inj (plainFinished.symm.trans otherPlainFinished)
    refine ⟨summary, other, finished, otherFinished, ?_⟩
    rw [← otherUnresolved, ← samePlain, unresolved]

/-- A nest whose eggs a later file declares, and a service about it, with the same documentation on
everything. -/
def documentedFiles (documentation : String) : List SchemaFile :=
  [{ name := "nest"
     declarations := [.record
      { type := ⟨"dinos.Nest"⟩
        documentation
        fields := [{ name := "egg", type := ⟨"dinos.Egg"⟩, documentation },
          { name := "shell", type := ⟨"dinos.Shell"⟩, documentation }] } []] },
   { name := "egg"
     declarations := [.record { type := ⟨"dinos.Egg"⟩, documentation } [],
      .service
        { type := ⟨"dinos.Nests"⟩
          documentation
          rpcs := [{
            name := "Watch"
            requestType := ⟨"dinos.Nest"⟩
            responseType := ⟨"dinos.Egg"⟩
            documentation }] }] }]

/-- Documentation over two lines, the second of which looks like code, is as good as none. -/
theorem documentedFiles_inert :
    let first := Session.processFiles { store := ({} : MemoryStore) }
      (documentedFiles "About {{field}}\nexport default class Egg {}")
    let second := Session.processFiles { store := ({} : MemoryStore) } (documentedFiles "")
    second.1 = first.1 ∧ second.2.store.paths = first.2.store.paths ∧
      (∀ path, (second.2.store.get? path).map (fun text => codeLines text.toList) =
        (first.2.store.get? path).map fun text => codeLines text.toList) ∧
      ∃ summary other, first.2.finish = .ok summary ∧ second.2.finish = .ok other ∧
        other.unresolved = summary.unresolved :=
  documentation_inert rfl (by decide) (by decide +kernel) (by decide)

end Typescribe
