import Typescribe.Proofs.Generation.Collisions
import Typescribe.Proofs.Generation.Report
import Typescribe.Proofs.Path

/-!
# User texts are not taken for placeholders

Documentation, names and defaults are written into the same text as placeholders are, and
placeholders are found again by searching it. Where the texts of a declaration do not hold the mark
of a placeholder, its file is left as it was drafted except for the placeholders that were written
for fields, and nothing else is reported. A text that does hold a placeholder is taken for one.
-/

namespace Typescribe

open Placeholder

section

variable {roots : List Declaration} {root : Declaration}

theorem Declaration.flattenAll_singleton_subset (member : root ∈ roots) :
    flattenAll [root] ⊆ flattenAll roots := by
  intro declaration declared
  obtain ⟨other, listed, inside⟩ := mem_flattenAll.mp declared
  rw [List.mem_singleton.mp listed] at inside
  exact mem_flattenAll.mpr ⟨root, member, inside⟩

theorem BracelessTypes.singleton (braceless : BracelessTypes roots) (member : root ∈ roots) :
    BracelessTypes [root] := fun declaration declared =>
  braceless declaration (Declaration.flattenAll_singleton_subset member declared)

theorem UnmarkedTexts.singleton (unmarked : UnmarkedTexts roots) (member : root ∈ roots) :
    UnmarkedTexts [root] := fun declaration declared =>
  unmarked declaration (Declaration.flattenAll_singleton_subset member declared)

end

theorem BracelessTypes.bracelessNames {files : List SchemaFile}
    (braceless : BracelessTypes (rootsOf files)) :
    (KnownTypes.initial.registerFiles files).BracelessNames := by
  intro declaration listed
  rcases of_mem_registerFiles listed with isTimestamp | ⟨root, member, inside, -⟩
  · rw [List.mem_singleton.mp isTimestamp]
    exact TypeName.timestamp_braceless
  · have declared := Declaration.mem_flattenAll.mpr ⟨root, member, inside⟩
    exact braceless declaration declared _ declaration.type_mem_mentionedTypes

/-- What a file holds in place of a draft that user texts cannot interfere with. -/
inductive Emission.Preserves (emission : Emission) (known : KnownTypes) (draft : String) :
    String → Prop where
  /-- The files of a service stay as they are. They hold no placeholder. -/
  | service (isService : emission.root.isService = true)
      (noneLeft : Placeholder.residual draft = []) :
      Preserves emission known draft draft
  /-- In the module of a type, the placeholders of fields may be replaced. All else stays, and the
  placeholders that are found in the file are those of fields that were not replaced. -/
  | type (data : emission.root.isService = false) (value : TypeName → List Char)
      (drafted :
        draft = String.ofList (Template.fill emission.known.slotText emission.root.template))
      (slots : ∀ type, value type = emission.known.slotText type ∨
        emission.known.contains type = false ∧ known.contains type = true ∧
          value type = known.slotText type)
      (left : Placeholder.residual (String.ofList (Template.fill value emission.root.template)) =
        emission.root.referencedTypes.filter fun type =>
          value type = tokenChars type.text.toList) :
      Preserves emission known draft
        (String.ofList (Template.fill value emission.root.template))

namespace Emission

variable {emission : Emission} {known : KnownTypes} {replacements : List (TypeName × String)}
  {path : Path}

theorem residual_of_settled {text : String} (settled : Settled text.toList) :
    Placeholder.residual text = [] := by
  rw [Placeholder.residual, settled.residualChars_eq_nil, List.map_nil]

theorem settled_draft {draft : Path × String} {file : Path} {text : String}
    (settled : Settled text.toList) (isDraft : draft = (file, text)) : Settled draft.2.toList := by
  subst isDraft
  exact settled

theorem preserves_of_settled {draft : String} (isService : emission.root.isService = true)
    (settled : Settled draft.toList) :
    emission.Preserves known draft (Patch.apply ⟨path, replacements⟩ draft) := by
  rw [Patch.apply_of_settled _ settled]
  exact .service isService (residual_of_settled settled)

/-- Replacements in the module of a type leave everything but placeholders of fields. -/
theorem preserves_module {item : TypeScript.Module} (data : emission.root.isService = false)
    (sound : emission.root.template.Sound) (before : emission.known.BracelessNames)
    (braceless : known.BracelessNames)
    (distinct : (known.declarations.map Declaration.type).Nodup)
    (replaces : ∀ entry ∈ replacements, known.Replaces entry)
    (made : emission.module? = .ok item) :
    emission.Preserves known item.render (Patch.apply ⟨path, replacements⟩ item.render) := by
  have drafted := render_eq_fill ((module?_of_data data).symm.trans made)
  have isKnown : ∀ type ∈ replacements.map Prod.fst, known.contains type = true := by
    intro type listed
    obtain ⟨entry, member, rfl⟩ := List.mem_map.mp listed
    obtain ⟨declaration, declared, same, -⟩ := replaces entry member
    exact KnownTypes.contains_iff.mpr ⟨declaration, declared, same⟩
  have entries : ∀ entry ∈ replacements, Braceless entry.1.text.toList ∧
      entry.2.toList = known.slotText entry.1 ∧ Settled (known.slotText entry.1) := by
    intro entry listed
    have contained := isKnown entry.1 (List.mem_map_of_mem listed)
    obtain ⟨declaration, declared, same, given⟩ := replaces entry listed
    have found := KnownTypes.find?_of_mem distinct declared
    rw [← same] at contained ⊢
    exact ⟨braceless declaration declared, KnownTypes.toList_replacement found given,
      braceless.settled_slotText contained⟩
  rw [drafted, Template.apply_fill sound before.steady_slotText ⟨path, replacements⟩ entries]
  refine .type data _ rfl (fun type => ?_) ?_
  · dsimp only
    split
    next replaced =>
      exact .inr ⟨before.slotText_eq_token_iff.mp replaced.1, isKnown type replaced.2, rfl⟩
    next => exact .inl rfl
  · rw [Template.residual_fill sound, slots_template]
    intro type
    dsimp only
    split
    next replaced => exact .inr (braceless.settled_slotText (isKnown type replaced.2))
    next => exact before.steady_slotText type

/-- The placeholders that are left were written for fields, before their types were known. -/
theorem Preserves.of_mem_residual {draft text : String} {type : TypeName}
    (preserves : emission.Preserves known draft text) (before : emission.known.BracelessNames)
    (isLeft : type ∈ Placeholder.residual text) :
    type ∈ emission.root.referencedTypes ∧ emission.known.contains type = false := by
  cases preserves with
  | service _ noneLeft =>
    rw [noneLeft] at isLeft
    exact absurd isLeft List.not_mem_nil
  | type _ value _ slots left =>
    rw [left, List.mem_filter, decide_eq_true_iff] at isLeft
    obtain ⟨referenced, isToken⟩ := isLeft
    refine ⟨referenced, ?_⟩
    rcases slots type with kept | ⟨unknown, -⟩
    · exact before.slotText_eq_token_iff.mp (kept.symm.trans isToken)
    · exact unknown

/-- There are placeholders in modules only. -/
theorem same_moduleFile_of_residual {draft : Path × String} {type : TypeName}
    (isDraft : draft ∈ emission.drafts)
    (isLeft : type ∈ Placeholder.residual (Patch.apply ⟨path, replacements⟩ draft.2)) :
    draft.1 = emission.root.type.moduleFile := by
  rcases mem_drafts isDraft with ⟨item, -, isModule⟩ | ⟨service, -, isClient⟩
  · rw [isModule]
  · have settled := settled_draft Service.settled_clientModule isClient
    rw [Patch.apply_of_settled _ settled, residual_of_settled settled] at isLeft
    exact absurd isLeft List.not_mem_nil

end Emission

section

variable {files : List SchemaFile} {session : Session MemoryStore} {path : Path} {text : String}

/-- Every file goes back to the last draft for it, by replacements of known types. -/
theorem exists_draft
    (ran : Session.processFiles { store := ({} : MemoryStore) } files = (.ok (), session))
    (content : session.store.get? path = some text) :
    ∃ emission ∈ emissions .initial files, ∃ draft ∈ emission.drafts,
      draft.1.same path = true ∧
      lastDraft? path ((emissions .initial files).flatMap Emission.drafts) = some draft.2 ∧
      emission.known.declarations ⊆ session.known.declarations ∧
      (session.known.declarations.map Declaration.type).Nodup ∧
      ∃ replacements, (∀ entry ∈ replacements, session.known.Replaces entry) ∧
        text = Patch.apply ⟨path, replacements⟩ draft.2 := by
  obtain ⟨logged, reached, -, stored, known, -⟩ := Session.exists_history ran
  obtain ⟨replacements, replaces, -, held⟩ := reached.holds path
  rw [← stored, content, eq_comm, Option.map_eq_some_iff] at held
  obtain ⟨last, isLast, applied⟩ := held
  obtain ⟨draft, drafted, same, rfl⟩ := exists_mem_of_lastDraft? isLast
  obtain ⟨emission, member, isDraft⟩ := List.mem_flatMap.mp drafted
  rw [known]
  exact ⟨emission, member, draft, isDraft, same, isLast, reached.known_subset emission member,
    reached.distinct, replacements, replaces, applied.symm⟩

/-- What is reported is found in files. -/
theorem exists_finish
    (ran : Session.processFiles { store := ({} : MemoryStore) } files = (.ok (), session)) :
    ∃ summary, session.finish = .ok summary ∧ ∀ reference ∈ summary.unresolved, ∃ path text,
      session.store.get? path = some text ∧ reference.file = path.shown ∧
        reference.type ∈ Placeholder.residual text := by
  have held : ∀ path ∈ session.outputs.map Prod.fst, (session.store.get? path).isSome = true := by
    intro path member
    rw [Session.outputs_eq_paths ran] at member
    exact MemoryStore.get?_isSome_iff.mpr ⟨path, member, Path.same_refl path⟩
  refine ⟨_, Session.summarize_eq_ok held, fun reference listed => ?_⟩
  obtain ⟨path, member, found⟩ := List.mem_flatMap.mp listed
  obtain ⟨type, isToken, rfl⟩ := List.mem_map.mp found
  obtain ⟨text, content⟩ := Option.isSome_iff_exists.mp (held path member)
  rw [MemoryStore.tokensAt_eq content] at isToken
  exact ⟨path, text, content, rfl, isToken⟩

/-- A draft is preserved if no text of its declaration holds a mark. -/
theorem preserves_draft {emission : Emission} {known : KnownTypes} {draft : Path × String}
    {replacements : List (TypeName × String)} (isDraft : draft ∈ emission.drafts)
    (bracelessTypes : BracelessTypes [emission.root])
    (unmarkedTexts : UnmarkedTexts [emission.root]) (braceless : known.BracelessNames)
    (subset : emission.known.declarations ⊆ known.declarations)
    (distinct : (known.declarations.map Declaration.type).Nodup)
    (replaces : ∀ entry ∈ replacements, known.Replaces entry) (path : Path) :
    emission.Preserves known draft.2 (Patch.apply ⟨path, replacements⟩ draft.2) := by
  have member : emission.root ∈ [emission.root] := List.mem_singleton_self _
  rcases Emission.mem_drafts isDraft with ⟨item, made, rfl⟩ | ⟨service, isRoot, isClient⟩
  · cases kind : emission.root.isService with
    | true =>
      obtain ⟨service, isRoot⟩ := Declaration.isService_iff.mp kind
      refine Emission.preserves_of_settled kind ?_
      rw [isRoot] at bracelessTypes unmarkedTexts member
      have written : emission.known.serviceModule service = .ok item := by
        rw [Emission.module?, isRoot] at made
        exact made
      exact bracelessTypes.settled_serviceModule unmarkedTexts member written
    | false =>
      exact Emission.preserves_module kind (bracelessTypes.sound_template unmarkedTexts member)
        (fun declaration listed => braceless declaration (subset listed)) braceless distinct
        replaces made
  · exact Emission.preserves_of_settled (Declaration.isService_iff.mpr ⟨service, isRoot⟩)
      (Emission.settled_draft Service.settled_clientModule isClient)

/-- A file that was drafted for a declaration whose texts hold no mark is left as it was drafted,
except for placeholders that were written for fields of types not known then. What is reported as
unresolved about the module of such a declaration are placeholders of its fields. -/
theorem user_texts_kept (bracelessTypes : BracelessTypes (rootsOf files))
    (ran : Session.processFiles { store := ({} : MemoryStore) } files = (.ok (), session)) :
    (∀ path text, session.store.get? path = some text →
      ∃ emission ∈ emissions .initial files, ∃ draft ∈ emission.drafts,
        draft.1.same path = true ∧
        lastDraft? path ((emissions .initial files).flatMap Emission.drafts) = some draft.2 ∧
        (UnmarkedTexts [emission.root] → emission.Preserves session.known draft.2 text)) ∧
    ∃ summary, session.finish = .ok summary ∧ ∀ reference ∈ summary.unresolved,
      ∃ emission ∈ emissions .initial files,
        reference.file = emission.root.type.moduleFile.shown ∧
        (UnmarkedTexts [emission.root] → reference.type ∈ emission.root.referencedTypes ∧
          emission.known.contains reference.type = false) := by
  obtain ⟨-, -, -, -, -, registered⟩ := Session.exists_history ran
  have braceless : session.known.BracelessNames := registered ▸ bracelessTypes.bracelessNames
  have preserved : ∀ path text, session.store.get? path = some text →
      ∃ emission ∈ emissions .initial files, ∃ draft ∈ emission.drafts,
        draft.1.same path = true ∧
        lastDraft? path ((emissions .initial files).flatMap Emission.drafts) = some draft.2 ∧
        emission.known.BracelessNames ∧
        (∀ type ∈ Placeholder.residual text, draft.1 = emission.root.type.moduleFile) ∧
        (UnmarkedTexts [emission.root] → emission.Preserves session.known draft.2 text) := by
    intro path text content
    obtain ⟨emission, member, draft, isDraft, same, isLast, subset, distinct, replacements,
      replaces, rfl⟩ := exists_draft ran content
    exact ⟨emission, member, draft, isDraft, same, isLast,
      fun declaration listed => braceless declaration (subset listed),
      fun type => Emission.same_moduleFile_of_residual isDraft,
      fun unmarkedTexts => preserves_draft isDraft
        (bracelessTypes.singleton (of_mem_emissions member).1) unmarkedTexts braceless subset
        distinct replaces path⟩
  constructor
  · intro path text content
    obtain ⟨emission, member, draft, isDraft, same, isLast, -, -, preserves⟩ :=
      preserved path text content
    exact ⟨emission, member, draft, isDraft, same, isLast, preserves⟩
  · obtain ⟨summary, finished, reported⟩ := exists_finish ran
    refine ⟨summary, finished, fun reference listed => ?_⟩
    obtain ⟨path, text, content, file, isLeft⟩ := reported reference listed
    obtain ⟨emission, member, draft, -, same, -, before, isModule, preserves⟩ :=
      preserved path text content
    refine ⟨emission, member, ?_, fun unmarkedTexts =>
      (preserves unmarkedTexts).of_mem_residual before isLeft⟩
    rw [file, ← isModule _ isLeft, Path.shown_congr same]

end

/-- A record with texts that are not quite placeholders, a reference to a type that a later file
declares, and one to a type that none does. -/
def labelFiles : List SchemaFile :=
  [{ name := "label"
     declarations := [.record
      { type := ⟨"dinos.Label"⟩
        documentation := "Not \x7b\x7bdecorator:dinos.Egg\x7d\x7d nor \x7bfieldDecorator\x7d."
        fields := [{ name := "egg", type := ⟨"dinos.Egg"⟩ },
          { name := "shell", type := ⟨"dinos.Shell"⟩ },
          { name := "note"
            type := ⟨"string"⟩
            defaultValue := some "\x7b\x7bEgg\x7d\x7d" }] } []] },
   { name := "egg", declarations := [.record { type := ⟨"dinos.Egg"⟩ } []] }]

theorem label_wellFormed : WellFormed (rootsOf labelFiles) := by decide

theorem label_generable : Generable labelFiles where
  fieldsNamed := by decide
  noServiceFields := by decide
  messagesDeclared _ _ _ split service member :=
    absurd member (Generable.not_mem_services (by decide) split service)

/-- The texts of the label are kept, and what is reported are references of its fields. -/
theorem label_texts_kept : ∃ session,
    Session.processFiles { store := ({} : MemoryStore) } labelFiles = (.ok (), session) ∧
    (∀ path text, session.store.get? path = some text →
      ∃ emission ∈ emissions .initial labelFiles, ∃ draft ∈ emission.drafts,
        draft.1.same path = true ∧ emission.Preserves session.known draft.2 text) ∧
    ∃ summary, session.finish = .ok summary ∧ ∀ reference ∈ summary.unresolved,
      ∃ emission ∈ emissions .initial labelFiles,
        reference.type ∈ emission.root.referencedTypes := by
  have unmarked : UnmarkedTexts (rootsOf labelFiles) := by decide +kernel
  have unmarkedAt : ∀ emission ∈ emissions .initial labelFiles, UnmarkedTexts [emission.root] :=
    fun emission member => unmarked.singleton (of_mem_emissions member).1
  obtain ⟨session, ran⟩ := (exists_processFiles_iff label_wellFormed).mpr label_generable
  obtain ⟨kept, summary, finished, reported⟩ := user_texts_kept (by decide) ran
  refine ⟨session, ran, fun path text content => ?_, summary, finished, fun reference listed => ?_⟩
  · obtain ⟨emission, member, draft, isDraft, same, -, preserves⟩ := kept path text content
    exact ⟨emission, member, draft, isDraft, same, preserves (unmarkedAt emission member)⟩
  · obtain ⟨emission, member, -, ofField⟩ := reported reference listed
    exact ⟨emission, member, (ofField (unmarkedAt emission member)).1⟩

/-- A record that documents placeholders, one of them for the type of its own field. -/
def manualFiles : List SchemaFile :=
  [{ name := "nest"
     declarations := [.record
      { type := ⟨"a.Nest"⟩
        documentation :=
          "\x7b\x7bfieldDecorator:a.Egg\x7d\x7d \x7b\x7bfieldDecorator:a.Shell\x7d\x7d"
        fields := [{ name := "egg", type := ⟨"a.Egg"⟩ }] } []] },
   { name := "egg", declarations := [.record { type := ⟨"a.Egg"⟩ } []] }]

/-- The first placeholder in the documentation is replaced along with that of the field, so that the
rest of the line is no comment any more. The second one is reported, though no field refers to its
type. -/
theorem manual_documentation_mistaken :
    let run := Session.run ({} : MemoryStore) manualFiles
    BracelessTypes (rootsOf manualFiles) ∧
    run.2.store.get? ⟨"a/Nest.ts"⟩ = some (String.intercalate "\n"
      ["import \x7b Type \x7d from \"class-transformer\"",
        "import Egg from \"./Egg\"",
        "",
        "// @Type(() => Egg)",
        "   \x7b\x7bfieldDecorator:a.Shell\x7d\x7d",
        "export default class Nest \x7b",
        "  @Type(() => Egg)",
        "  egg: Egg",
        "",
        "  constructor(",
        "    egg: Egg",
        "  ) \x7b",
        "    this.egg = egg",
        "  \x7d",
        "\x7d",
        ""]) ∧
    run.1 = .ok
      { written := ["a/Nest.ts", "a/Egg.ts"]
        unchanged := []
        unresolved := [⟨"a/Nest.ts", ⟨"a.Shell"⟩⟩] } := by
  decide +kernel

end Typescribe
