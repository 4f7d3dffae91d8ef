import Typescribe.Proofs.Generation.Independence
import Typescribe.Proofs.Generation.Rewriting

/-!
# Generating again

Generating schema files once more over what they generated changes no text. What the second run
reports depends on how the texts came about: a file that the first run wrote once is reported as
unchanged, and a file that it wrote more than once goes through the same texts again and is
reported as written. These are the modules with forward references.
-/

namespace Typescribe

namespace Session

open Journal (Recorded)

/-- A journal of a run over nothing, beside the same run over a store that holds the final texts
from the start. A file of the second run is unchanged as long as the first run wrote it only once,
and wrote its final text. -/
structure Accounts (final : MemoryStore) (journal : Journal)
    (outputs : List (Path × WriteOutcome)) (store : MemoryStore)
    (others : List (Path × WriteOutcome)) : Prop where
  recorded : Recorded journal outputs
  overlays : Overlays final journal.store outputs store others
  outcomes : ∀ output ∈ others, output.2 = .unchanged ↔
    (journal.writesAt output.1).length = 1 ∧
      journal.store.get? output.1 = final.get? output.1

namespace Accounts

variable {final store : MemoryStore} {journal : Journal}
  {outputs others : List (Path × WriteOutcome)}

/-- One more text in both stores. -/
theorem put (accounts : Accounts final journal outputs store others) (path : Path)
    (text : String) :
    Accounts final (journal.receive path text)
      (noteOutput path
        (if journal.store.get? path = some text then .unchanged else .written) outputs)
      (store.put path text)
      (noteOutput path (if store.get? path = some text then .unchanged else .written)
        others) where
  recorded := accounts.recorded.receive path text
  overlays := by
    rw [Journal.store_receive]
    exact accounts.overlays.put path text _ _
  outcomes output member := by
    have noted := accounts.overlays.noted
    have apart : (others.map Prod.fst).Pairwise fun first second => first.same second = false := by
      rw [← noted, accounts.recorded.noted]
      exact accounts.recorded.apart
    rw [Journal.writesAt_receive, Journal.store_receive, MemoryStore.get?_put]
    rcases of_mem_noteOutput apart member with
      ⟨absent, rfl⟩ | ⟨same, old, listed, isNow⟩ | ⟨different, listed⟩
    · -- The first write of the path: it is unchanged if it has its final text already.
      have fresh : journal.store.get? path = none := by
        cases content : journal.store.get? path with
        | none => rfl
        | some current =>
          refine absurd (accounts.recorded.notes_of_get? content) ?_
          rwa [Notes, noted]
      have unwritten : journal.writesAt path = [] := by
        rw [← List.getLast?_eq_none_iff, accounts.recorded.latest, fresh]
      have covered : store.get? path = final.get? path := by
        rw [accounts.overlays.texts, fresh, Option.none_or]
      rw [unwritten, covered, fresh, Path.same_refl]
      by_cases already : final.get? path = some text
      · simp [already]
      · simpa [already] using Ne.symm already
    · have isNoted : Notes outputs path := by
        rw [Notes, noted]
        exact ⟨output.1, List.mem_map.mpr ⟨_, listed, rfl⟩, same⟩
      obtain ⟨current, content⟩ := accounts.recorded.exists_text isNoted
      have before := accounts.outcomes _ listed
      have samePath : path.same output.1 = true := by rw [Path.same_comm, same]
      rw [MemoryStore.get?_congr same, Journal.writesAt_congr same, content] at before
      rw [isNow, accounts.overlays.get?_eq content, samePath, content, Journal.writesAt_congr same]
      by_cases changed : current = text
      · -- Nothing is written to either store.
        subst changed
        simpa using before
      · -- A second write, whatever the outcome was before.
        have written : journal.writesAt path ≠ [] := by
          rw [Ne, ← List.getLast?_eq_none_iff, accounts.recorded.latest, content]
          exact Option.some_ne_none current
        simp [changed, written]
    · rw [Path.same_comm, different]
      simpa using accounts.outcomes output listed

theorem lasting (final : MemoryStore) : Lasting (Accounts final) where
  noted accounts := accounts.overlays.noted
  read accounts path _ noted := by
    obtain ⟨text, content⟩ := accounts.overlays.exists_text noted
    have covered := accounts.overlays.get?_eq content
    exact ⟨text, MemoryStore.read_eq_ok content, MemoryStore.read_eq_ok covered⟩
  write accounts path _ text :=
    ⟨_, _, _, _, Journal.writeIfChanged_eq _ path text, MemoryStore.writeIfChanged_eq _ path text,
      accounts.put path text⟩

theorem start (final : MemoryStore) :
    Abreast (Accounts final) { store := ({} : Journal) } { store := final } where
  known := rfl
  references := rfl
  located _ member := absurd member List.not_mem_nil
  related :=
    { recorded := Recorded.start
      overlays := (Overlays.start final).related
      outcomes := fun _ member => absurd member List.not_mem_nil }

/-- Once the journal has come to the final texts, an output is unchanged exactly if it was written
once. -/
theorem written_iff (accounts : Accounts journal.store journal outputs store others)
    {output : Path × WriteOutcome} (member : output ∈ others) :
    output.2 = .written ↔ 1 < (journal.writesAt output.1).length := by
  have listed : output.1 ∈ outputs.map Prod.fst := by
    rw [accounts.overlays.noted]
    exact List.mem_map_of_mem member
  have written : journal.writesAt output.1 ≠ [] := by
    rw [Ne, ← List.getLast?_eq_none_iff, accounts.recorded.latest, ← Option.isNone_iff_eq_none,
      ← Option.not_isSome, accounts.overlays.held _ listed]
    decide
  have positive := List.length_pos_iff.mpr written
  have once := accounts.outcomes output member
  rw [and_iff_left rfl] at once
  cases outcome : output.2 with
  | written =>
    rw [outcome] at once
    have notOnce := mt once.mpr (by decide)
    simp only [true_iff]
    omega
  | unchanged =>
    have isOnce := once.mp outcome
    simp [isOnce]

end Accounts

end Session

/-- Generating schema files once more, over the store that generating them left, succeeds and
leaves every text as it is. The report lists as written exactly the files that the first run wrote
more than once, and all others as unchanged. If outputs are apart, only modules with references to
types of later files are among the former, and if the schema is well formed, all of these are. -/
theorem regeneration_report {files : List SchemaFile} {first : Session MemoryStore}
    (ran : Session.processFiles { store := ({} : MemoryStore) } files = (.ok (), first)) :
    (journalOf files).store = first.store ∧
    (∃ second summary,
      Session.processFiles { store := first.store } files = (.ok (), second) ∧
      (∀ path, second.store.get? path = first.store.get? path) ∧
      second.finish = .ok summary ∧
      summary.written = (first.store.paths.filter (rewrites files)).map Path.shown ∧
      summary.unchanged =
        (first.store.paths.filter fun path => !rewrites files path).map Path.shown) ∧
    (WellSpelled (rootsOf files) → PathsApart (generatedRoots files) →
      ∀ path, rewrites files path = true → RefersForward files path) ∧
    (WellFormed (rootsOf files) → ClientNameFree (rootsOf files) →
      UnmarkedTexts (rootsOf files) →
        ∀ path, rewrites files path = true ↔ RefersForward files path) := by
  obtain ⟨logged, loggedRan, isJournal, stored, -⟩ := Session.exists_journal_run ran
  obtain ⟨result, abreast⟩ := (Session.Accounts.start first.store).processFiles
    (Session.Accounts.lasting first.store) files
  rcases rerun : Session.processFiles { store := first.store } files with ⟨again, second⟩
  rw [loggedRan, rerun] at result abreast
  obtain rfl : again = .ok () := result
  have accounts := abreast.related
  dsimp only at accounts
  rw [stored] at accounts
  have paths : second.outputs.map Prod.fst = first.store.paths := by
    rw [← accounts.overlays.noted, accounts.recorded.noted, stored]
  have written : ∀ output ∈ second.outputs,
      output.2 = .written ↔ rewrites files output.1 = true := by
    intro output member
    rw [accounts.written_iff member, isJournal, rewrites, decide_eq_true_iff]
  have unchanged : ∀ output ∈ second.outputs,
      output.2 = .unchanged ↔ (!rewrites files output.1) = true := by
    intro output member
    rw [Bool.not_eq_true', ← Bool.not_eq_true, ← written output member]
    cases output.2 <;> simp
  refine ⟨isJournal ▸ stored.symm, ⟨second, _, rfl, fun path => ?_,
    Session.summarize_eq_ok accounts.overlays.held_second, ?_, ?_⟩, ?_, ?_⟩
  · rw [accounts.overlays.texts, Option.or_self, stored]
  · rw [← paths]
    exact Session.listed_eq written
  · rw [← paths]
    exact Session.listed_eq unchanged
  · exact fun wellSpelled apart path => refersForward_of_rewrites ran wellSpelled apart
  · intro wellFormed clientNameFree unmarkedTexts path
    have apart := wellFormed.pathsApart clientNameFree
    exact ⟨refersForward_of_rewrites ran wellFormed.wellSpelled apart,
      rewrites_of_refersForward ran wellFormed clientNameFree unmarkedTexts⟩

/-- The survey is generated, generating it again leaves its texts as they are, and what is written
then are its modules with forward references. -/
theorem survey_regeneration : ∃ first : Session MemoryStore,
    Session.processFiles { store := ({} : MemoryStore) } surveyFiles = (.ok (), first) ∧
    (∃ second summary,
      Session.processFiles { store := first.store } surveyFiles = (.ok (), second) ∧
      (∀ path, second.store.get? path = first.store.get? path) ∧
      second.finish = .ok summary ∧
      summary.written = (first.store.paths.filter (rewrites surveyFiles)).map Path.shown ∧
      summary.unchanged =
        (first.store.paths.filter fun path => !rewrites surveyFiles path).map Path.shown) ∧
    ∀ path, rewrites surveyFiles path = true ↔ RefersForward surveyFiles path := by
  obtain ⟨first, ran⟩ := (exists_processFiles_iff survey_wellFormed).mpr Generable.survey
  obtain ⟨-, report, -, forward⟩ := regeneration_report ran
  exact ⟨first, ran, report,
    forward survey_wellFormed survey_clientNameFree survey_unmarkedTexts⟩

/-- A record with a field of a type that a later file declares. -/
def nestFiles : List SchemaFile :=
  [{ name := "nest"
     declarations := [.record
      { type := ⟨"dinos.Nest"⟩, fields := [{ name := "egg", type := ⟨"dinos.Egg"⟩ }] } []] },
   { name := "egg", declarations := [.record { type := ⟨"dinos.Egg"⟩ } []] }]

/-- The nest is written and then patched, so generating it again reports it as written, though its
text stays the same. -/
theorem nest_rewritten :
    let first := Session.run ({} : MemoryStore) nestFiles
    let second := Session.run first.2.store nestFiles
    first.1.isOk = true ∧ second.2.store = first.2.store ∧ second.1 =
      .ok { written := ["dinos/Nest.ts"], unchanged := ["dinos/Egg.ts"], unresolved := [] } := by
  decide +kernel

end Typescribe
