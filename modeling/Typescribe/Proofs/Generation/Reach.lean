import Typescribe.Proofs.Generation.FirstDeclaration

/-!
# What a run asks of its store

A run reads, looks for and writes the files of the top-level declarations that it is given, and
asks its store for nothing else. So two runs over stores that answer alike at these paths do the
same, whatever the stores answer elsewhere and whether or not they refuse requests, and a relation
between the stores that survives writing to these paths survives the runs.
-/

namespace Typescribe

variable {σ τ α : Type} {asked : Path → Prop} {relates : σ → τ → Prop}

/-- Related stores answer alike at the given paths, and stay related when a text is put there. -/
structure Store.Follows [Store σ] [Store τ] (asked : Path → Prop) (relates : σ → τ → Prop) :
    Prop where
  read : ∀ {first second}, relates first second → ∀ path, asked path →
    Store.read second path = Store.read first path
  holds : ∀ {first second}, relates first second → ∀ path, asked path →
    Store.holds second path = Store.holds first path
  write : ∀ {first second}, relates first second → ∀ path, asked path → ∀ text,
    Agree relates (Store.write first path text) (Store.write second path text)

/-- Two kinds of stores that answer alike at a path. -/
def Store.AlikeAt (first second : Store σ) (path : Path) : Prop :=
  ∀ store, second.read store path = first.read store path ∧
    second.holds store path = first.holds store path ∧
    second.write store path = first.write store path

namespace Store.Follows

variable [Store σ] [Store τ] (follows : Store.Follows asked relates) {first : σ} {second : τ}
  {path : Path}
include follows

theorem overwrite (related : relates first second) (isAsked : asked path) (text : String) :
    Agree relates (Store.overwrite first path text) (Store.overwrite second path text) := by
  obtain ⟨answer, store, other, written, otherWritten, relatedAfter⟩ :=
    (follows.write related path isAsked text).exists_answer
  rw [Store.overwrite, Store.overwrite, written, otherWritten]
  cases answer with
  | error fault => exact ⟨rfl, relatedAfter⟩
  | ok done => exact ⟨rfl, relatedAfter⟩

theorem writeIfChanged (related : relates first second) (isAsked : asked path) (text : String) :
    Agree relates (Store.writeIfChanged first path text)
      (Store.writeIfChanged second path text) := by
  rw [Store.writeIfChanged, Store.writeIfChanged, follows.holds related path isAsked,
    follows.read related path isAsked]
  split
  · split
    · exact ⟨rfl, related⟩
    · split
      · exact ⟨rfl, related⟩
      · exact follows.overwrite related isAsked text
  · exact follows.overwrite related isAsked text

theorem applyPatch (related : relates first second) {patch : Patch} (isAsked : asked patch.path) :
    Agree relates (References.applyPatch first patch) (References.applyPatch second patch) := by
  rw [References.applyPatch, References.applyPatch, follows.read related patch.path isAsked]
  split
  · exact ⟨rfl, related⟩
  next text _ =>
    obtain ⟨answer, store, other, written, otherWritten, relatedAfter⟩ :=
      (follows.writeIfChanged related isAsked (patch.apply text)).exists_answer
    rw [written, otherWritten]
    cases answer with
    | error fault => exact ⟨rfl, relatedAfter⟩
    | ok outcome => exact ⟨rfl, relatedAfter⟩

theorem applyPatches (related : relates first second) {patches : List Patch}
    (areAsked : ∀ patch ∈ patches, asked patch.path) :
    Agree relates (References.applyPatches first patches)
      (References.applyPatches second patches) := by
  induction patches generalizing first second with
  | nil => exact ⟨rfl, related⟩
  | cons patch rest ih =>
    obtain ⟨isAsked, restAsked⟩ := List.forall_mem_cons.mp areAsked
    obtain ⟨answer, store, other, patched, otherPatched, relatedThen⟩ :=
      (follows.applyPatch related isAsked).exists_answer
    rw [References.applyPatches, References.applyPatches, patched, otherPatched]
    cases answer with
    | error reason => exact ⟨rfl, relatedThen⟩
    | ok outcome =>
      obtain ⟨answers, after, otherAfter, later, otherLater, relatedAfter⟩ :=
        (ih relatedThen restAsked).exists_answer
      dsimp only
      rw [later, otherLater]
      cases answers with
      | error reason => exact ⟨rfl, relatedAfter⟩
      | ok changed => exact ⟨rfl, relatedAfter⟩

end Store.Follows

namespace Session

/-- Related stores with the same outputs. -/
def tied (relates : σ → τ → Prop) : StoreRelation σ τ :=
  fun first outputs second others => others = outputs ∧ relates first second

namespace AbreastOn

variable {left : Session σ} {right : Session τ}

theorem note_tied (abreast : AbreastOn asked (tied relates) left right) (path : Path)
    (outcome : WriteOutcome) :
    AbreastOn asked (tied relates) (left.note path outcome) (right.note path outcome) where
  known := abreast.known
  references := abreast.references
  located entry listed := (abreast.located entry listed).imp_left fun noted => noted.noteOutput _ _
  related := ⟨congrArg (noteOutput path outcome) abreast.related.1, abreast.related.2⟩

theorem foldl_note_tied (abreast : AbreastOn asked (tied relates) left right) (paths : List Path) :
    AbreastOn asked (tied relates)
      (paths.foldl (fun session path => session.note path .written) left)
      (paths.foldl (fun session path => session.note path .written) right) := by
  induction paths generalizing left right with
  | nil => exact abreast
  | cons path rest ih => exact ih (abreast.note_tied path .written)

theorem withStore_tied (abreast : AbreastOn asked (tied relates) left right) {store : σ}
    {other : τ} (related : relates store other) :
    AbreastOn asked (tied relates) { left with store } { right with store := other } :=
  ⟨abreast.known, abreast.references, abreast.located, abreast.related.1, related⟩

variable [Store σ] [Store τ] (follows : Store.Follows asked relates)
include follows

theorem write_tied (abreast : AbreastOn asked (tied relates) left right) {path : Path}
    (isAsked : asked path) (item : TypeScript.Module) :
    InStep asked (tied relates) (left.write path item) (right.write path item) ∧
      ((left.write path item).1 = .ok () → Notes (left.write path item).2.outputs path) := by
  obtain ⟨answer, store, other, written, otherWritten, related⟩ :=
    (follows.writeIfChanged abreast.related.2 isAsked item.render).exists_answer
  rw [Session.write, Session.write, written, otherWritten]
  cases answer with
  | error fault => exact ⟨⟨rfl, abreast.withStore_tied related⟩, by simp⟩
  | ok outcome =>
    exact ⟨⟨rfl, (abreast.withStore_tied related).note_tied path outcome⟩,
      fun _ => notes_noteOutput_self _ _ _⟩

theorem patch_tied (abreast : AbreastOn asked (tied relates) left right)
    (newTypes : List Declaration) :
    InStep asked (tied relates) (left.patch newTypes) (right.patch newTypes) := by
  cases planned : left.references.plan newTypes with
  | error reason =>
    rw [patch_of_error planned, patch_of_error (abreast.references ▸ planned)]
    exact ⟨rfl, abreast⟩
  | ok patches =>
    have otherPlanned : right.references.plan newTypes = .ok patches :=
      abreast.references ▸ planned
    have areAsked : ∀ patch ∈ patches, asked patch.path := by
      intro patch member
      obtain ⟨declaring, -, -, file⟩ := References.path_of_mem_plan planned member
      exact (abreast.located (declaring.root, patch.path)
        (References.mem_modules_of_module? file)).2
    obtain ⟨answer, store, other, patched, otherPatched, related⟩ :=
      (follows.applyPatches abreast.related.2 areAsked).exists_answer
    rw [Session.patch, Session.patch, References.resolve, References.resolve, planned, otherPlanned]
    dsimp only
    rw [patched, otherPatched]
    cases answer with
    | error reason => exact ⟨rfl, abreast.withStore_tied related⟩
    | ok changed => exact ⟨rfl, (abreast.withStore_tied related).foldl_note_tied changed⟩

end AbreastOn

theorem keepsPace_tied [Store σ] [Store τ] (follows : Store.Follows asked relates) :
    KeepsPace asked (tied relates) where
  write abreast _ isAsked item := abreast.write_tied follows isAsked item
  patch abreast := abreast.patch_tied follows

/-- Two runs over stores that answer alike where they are asked do the same. -/
theorem AbreastOn.processFiles_tied [Store σ] [Store τ] (follows : Store.Follows asked relates)
    {left : Session σ} {right : Session τ} (abreast : AbreastOn asked (tied relates) left right)
    {files : List SchemaFile} (areAsked : ∀ root ∈ rootsOf files, ∀ path ∈ root.files, asked path) :
    InStep asked (tied relates) (left.processFiles files) (right.processFiles files) := by
  refine (keepsPace_tied follows).processFiles abreast (fun root declared => ?_)
    fun service declared => ?_
  · exact areAsked root declared _ root.moduleFile_mem_files
  · exact areAsked (.service service) declared _ (List.mem_cons_of_mem _ List.mem_cons_self)

/-- Steps over stores of one type that stay equal are equal. -/
theorem InStep.eq_of_tied {first second : Outcome σ α}
    (inStep : InStep asked (tied Eq) first second) : second = first := by
  obtain ⟨result, left, right, rfl, rfl, abreast⟩ := inStep.exists_result
  cases left
  cases right
  obtain ⟨known, references, -, outputs, stores⟩ := abreast
  simp_all

/-- A run does not depend on what a store does elsewhere than at the files of its declarations. -/
theorem processFiles_of_alike {first second : Store σ} {files : List SchemaFile}
    (alike : ∀ root ∈ rootsOf files, ∀ path ∈ root.files, first.AlikeAt second path) (store : σ) :
    @Session.processFiles σ second { store } files =
      @Session.processFiles σ first { store } files := by
  have follows : @Store.Follows σ σ first second (first.AlikeAt second) Eq := by
    refine @Store.Follows.mk σ σ first second _ _ ?_ ?_ ?_
    · rintro store - rfl path same
      exact (same store).1
    · rintro store - rfl path same
      exact (same store).2.1
    · rintro store - rfl path same text
      have written := congrFun (same store).2.2 text
      exact ⟨congrArg Prod.fst written, congrArg Prod.snd written.symm⟩
  have abreast : AbreastOn (first.AlikeAt second) (tied Eq) { store : Session σ } { store } :=
    ⟨rfl, rfl, fun _ member => absurd member List.not_mem_nil, rfl, rfl⟩
  have inStep := @AbreastOn.processFiles_tied σ σ _ _ first second follows _ _ abreast files alike
  exact inStep.eq_of_tied

end Session

end Typescribe
