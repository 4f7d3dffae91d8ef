import Typescribe.Proofs.Generation.Lockstep
import Typescribe.Proofs.Generation.Report

/-!
# What a store held before plays no part

A run over a memory store that already holds files does what the same run over an empty store
does. Files are written only where their text differs and are read back for patching, so the two
runs may take different branches; but what is read back was put there by the run itself.
-/

namespace Typescribe

namespace Session

/-- The second store is the first one laid over what was held before, and the first one holds all
outputs. The outputs of both are the same files, whatever each of them came to. -/
structure Overlays (before first : MemoryStore) (outputs : List (Path × WriteOutcome))
    (second : MemoryStore) (others : List (Path × WriteOutcome)) : Prop where
  noted : outputs.map Prod.fst = others.map Prod.fst
  held : ∀ path ∈ outputs.map Prod.fst, (first.get? path).isSome = true
  texts : ∀ path, second.get? path = (first.get? path).or (before.get? path)

namespace Overlays

variable {before first second : MemoryStore} {outputs others : List (Path × WriteOutcome)}

theorem get?_eq (overlays : Overlays before first outputs second others) {path : Path}
    {text : String} (content : first.get? path = some text) : second.get? path = some text := by
  rw [overlays.texts, content, Option.some_or]

theorem exists_text (overlays : Overlays before first outputs second others) {path : Path}
    (noted : Notes outputs path) : ∃ text, first.get? path = some text := by
  obtain ⟨spelled, member, same⟩ := noted
  rw [← Option.isSome_iff_exists, ← MemoryStore.get?_congr same]
  exact overlays.held spelled member

/-- A text put into both stores covers what was there. -/
theorem put (overlays : Overlays before first outputs second others) (path : Path) (text : String)
    (outcome other : WriteOutcome) :
    Overlays before (first.put path text) (noteOutput path outcome outputs)
      (second.put path text) (noteOutput path other others) where
  noted := by rw [paths_noteOutput, paths_noteOutput, overlays.noted]
  held spelled member := by
    rw [paths_noteOutput] at member
    rcases Path.mem_of_mem_enter member with rfl | member
    · rw [MemoryStore.get?_put_self]
      rfl
    · exact MemoryStore.isSome_get?_put (overlays.held spelled member) path text
  texts spelled := by
    rw [MemoryStore.get?_put, MemoryStore.get?_put]
    split
    · rw [Option.some_or]
    · exact overlays.texts spelled

theorem lasting (before : MemoryStore) : Lasting (Overlays before) where
  noted overlays := overlays.noted
  read overlays path _ noted := by
    obtain ⟨text, content⟩ := overlays.exists_text noted
    exact ⟨text, MemoryStore.read_eq_ok content, MemoryStore.read_eq_ok (overlays.get?_eq content)⟩
  write overlays path _ text :=
    ⟨_, _, _, _, MemoryStore.writeIfChanged_eq _ path text,
      MemoryStore.writeIfChanged_eq _ path text, overlays.put path text _ _⟩

/-- Two runs that start with the same files, over nothing and over what was held before. -/
theorem start (before : MemoryStore) :
    Abreast (Overlays before) { store := ({} : MemoryStore) } { store := before } where
  known := rfl
  references := rfl
  located _ member := absurd member List.not_mem_nil
  related :=
    { noted := rfl
      held := fun _ member => absurd member List.not_mem_nil
      texts := fun _ => rfl }

/-- Outputs hold the same tokens in both stores. -/
theorem tokensAt_eq (overlays : Overlays before first outputs second others) {path : Path}
    (member : path ∈ outputs.map Prod.fst) : second.tokensAt path = first.tokensAt path := by
  obtain ⟨text, content⟩ := Option.isSome_iff_exists.mp (overlays.held path member)
  rw [MemoryStore.tokensAt_eq content, MemoryStore.tokensAt_eq (overlays.get?_eq content)]

theorem held_second (overlays : Overlays before first outputs second others) :
    ∀ path ∈ others.map Prod.fst, (second.get? path).isSome = true := by
  intro path member
  rw [← overlays.noted] at member
  obtain ⟨text, content⟩ := Option.isSome_iff_exists.mp (overlays.held path member)
  rw [overlays.get?_eq content]
  rfl

end Overlays

end Session

/-- Taking schema files into a store that holds anything at all gives, file by file, the same
results as into an empty store, failures included. In the end the same references are reported as
unresolved, every path that the run over the empty store wrote has the text that it has there, and
every other path has what it had. -/
theorem processEach_independent (before : MemoryStore) (files : List SchemaFile) :
    let bare := Session.processEach { store := ({} : MemoryStore) } files
    let laid := Session.processEach { store := before } files
    laid.1 = bare.1 ∧
    (∃ summary bareSummary, laid.2.finish = .ok summary ∧ bare.2.finish = .ok bareSummary ∧
      summary.unresolved = bareSummary.unresolved) ∧
    (∀ path text, bare.2.store.get? path = some text → laid.2.store.get? path = some text) ∧
    ∀ path, bare.2.store.get? path = none → laid.2.store.get? path = before.get? path := by
  dsimp only
  obtain ⟨results, abreast⟩ :=
    (Session.Overlays.start before).processEach (Session.Overlays.lasting before) files
  have overlays := abreast.related
  refine ⟨results, ?_, fun path text => overlays.get?_eq, fun path absent => ?_⟩
  · refine ⟨_, _, Session.summarize_eq_ok overlays.held_second,
      Session.summarize_eq_ok overlays.held, ?_⟩
    rw [← overlays.noted]
    refine List.flatMap_congr fun path member => ?_
    rw [overlays.tokensAt_eq member]
  · rw [overlays.texts, absent, Option.none_or]

end Typescribe
