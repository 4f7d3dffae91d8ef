import Typescribe.Proofs.Generation.Lockstep
import Typescribe.Proofs.Generation.Report

/-!
# A journal of what is written

A journal is a memory store that remembers every write. Generating into a journal is generating
into its memory store, so the journal tells which texts a run wrote to each path, and in which
order; what a path holds is what was written to it last.
-/

namespace Typescribe

/-- A memory store that remembers what was written to it. -/
structure Journal where
  store : MemoryStore := {}
  /-- Every text that was written, with the path, in order. -/
  entries : List (Path × String) := []

namespace Journal

instance : Store Journal where
  read journal path := Store.read journal.store path
  write journal path text :=
    (.ok (), ⟨journal.store.put path text, journal.entries ++ [(path, text)]⟩)
  holds journal path := Store.holds journal.store path

/-- The texts that were written to a path, in order. -/
def writesAt (journal : Journal) (path : Path) : List String :=
  (journal.entries.filter fun entry => entry.1.same path).map Prod.snd

/-- The journal with a text put at a path, which is a write unless exactly that is there. -/
def receive (journal : Journal) (path : Path) (text : String) : Journal :=
  if journal.store.get? path = some text then journal
  else ⟨journal.store.put path text, journal.entries ++ [(path, text)]⟩

variable {journal : Journal} {path other : Path} {text : String}

@[simp] theorem store_receive (journal : Journal) (path : Path) (text : String) :
    (journal.receive path text).store = journal.store.put path text := by
  rw [receive]
  split
  next content => rw [MemoryStore.put_eq_self content]
  next => rfl

theorem writesAt_receive (journal : Journal) (path other : Path) (text : String) :
    (journal.receive path text).writesAt other = journal.writesAt other ++
      if path.same other = true ∧ journal.store.get? path ≠ some text then [text] else [] := by
  rw [receive]
  split
  next content => simp [content]
  next changed =>
    rw [writesAt, List.filter_append, List.map_append, writesAt]
    cases same : path.same other <;> simp [same, changed]

theorem mem_writesAt_receive {written : String} (member : written ∈ journal.writesAt other)
    (path : Path) (text : String) : written ∈ (journal.receive path text).writesAt other := by
  rw [writesAt_receive]
  exact List.mem_append_left _ member

theorem writesAt_congr (same : path.same other = true) :
    journal.writesAt path = journal.writesAt other := by
  have agree : ∀ entry : Path × String, entry.1.same path = entry.1.same other := fun entry => by
    rw [Path.same_comm, Path.same_congr_left same, Path.same_comm]
  rw [writesAt, writesAt]
  simp only [agree]

theorem writeIfChanged_eq (journal : Journal) (path : Path) (text : String) :
    Store.writeIfChanged journal path text =
      (.ok (if journal.store.get? path = some text then .unchanged else .written),
        journal.receive path text) := by
  rw [Store.writeIfChanged, receive]
  cases content : journal.store.get? path with
  | none =>
    have absent : Store.holds journal path = false := congrArg Option.isSome content
    rw [absent]
    rfl
  | some current =>
    have present : Store.holds journal path = true := congrArg Option.isSome content
    have readable : Store.read journal path = .ok current := MemoryStore.read_eq_ok content
    rw [present, readable]
    by_cases same : current = text
    · simp [same]
    · simp only [same, Option.some.injEq, if_true, if_false]
      rfl

/-- What a journal says about its store, and the outputs about both. -/
structure Recorded (journal : Journal) (outputs : List (Path × WriteOutcome)) : Prop where
  /-- The outputs are the files of the store. -/
  noted : outputs.map Prod.fst = journal.store.paths
  /-- No file is listed twice. -/
  apart : journal.store.paths.Pairwise fun first second => first.same second = false
  /-- A path holds what was written to it last, and nothing if nothing was. -/
  latest : ∀ path, (journal.writesAt path).getLast? = journal.store.get? path

namespace Recorded

variable {outputs : List (Path × WriteOutcome)}

theorem start : Recorded {} [] where
  noted := rfl
  apart := List.Pairwise.nil
  latest _ := rfl

theorem notes_of_get? (recorded : Recorded journal outputs)
    (content : journal.store.get? path = some text) : Session.Notes outputs path := by
  rw [Session.Notes, recorded.noted, ← MemoryStore.get?_isSome_iff, content]
  rfl

/-- Whatever was written to is an output. -/
theorem notes_of_mem_writesAt (recorded : Recorded journal outputs)
    (written : text ∈ journal.writesAt path) : Session.Notes outputs path := by
  cases content : journal.store.get? path with
  | some current => exact recorded.notes_of_get? content
  | none =>
    rw [← recorded.latest, List.getLast?_eq_none_iff] at content
    rw [content] at written
    exact absurd written List.not_mem_nil

theorem exists_text (recorded : Recorded journal outputs) (noted : Session.Notes outputs path) :
    ∃ text, journal.store.get? path = some text := by
  rw [Session.Notes, recorded.noted, ← MemoryStore.get?_isSome_iff] at noted
  exact Option.isSome_iff_exists.mp noted

/-- Putting a text keeps the journal in order. -/
theorem receive (recorded : Recorded journal outputs) (path : Path) (text : String) :
    Recorded (journal.receive path text)
      (Session.noteOutput path
        (if journal.store.get? path = some text then .unchanged else .written) outputs) where
  noted := by
    rw [Session.paths_noteOutput, recorded.noted, store_receive, MemoryStore.paths_put]
  apart := by
    rw [store_receive, MemoryStore.paths_put]
    exact Path.pairwise_enter recorded.apart path
  latest other := by
    rw [writesAt_receive, store_receive, MemoryStore.get?_put]
    by_cases same : path.same other = true
    · rw [if_pos same]
      by_cases content : journal.store.get? path = some text
      · rw [if_neg fun changed => changed.2 content, List.append_nil, recorded.latest,
          ← MemoryStore.get?_congr same, content]
      · rw [if_pos ⟨same, content⟩, List.getLast?_concat]
    · rw [if_neg same, if_neg fun changed => same changed.1, List.append_nil, recorded.latest]

/-- A text that was put was written, now or before. -/
theorem mem_writesAt_receive_self (recorded : Recorded journal outputs) (path : Path)
    (text : String) : text ∈ (journal.receive path text).writesAt path := by
  apply List.mem_of_getLast?
  rw [(recorded.receive path text).latest, store_receive, MemoryStore.get?_put_self]

end Recorded

/-- A journal and a memory store that hold the same files. -/
structure Keeps (journal : Journal) (outputs : List (Path × WriteOutcome)) (store : MemoryStore)
    (others : List (Path × WriteOutcome)) : Prop where
  recorded : Recorded journal outputs
  store_eq : store = journal.store
  outputs_eq : others = outputs

theorem Keeps.lasting : Session.Lasting Keeps where
  noted keeps := by rw [keeps.outputs_eq]
  read keeps path _ noted := by
    obtain ⟨text, content⟩ := keeps.recorded.exists_text noted
    have readable := MemoryStore.read_eq_ok content
    exact ⟨text, readable, keeps.store_eq ▸ readable⟩
  write {journal _ _ _} keeps path _ text := by
    obtain ⟨recorded, rfl, rfl⟩ := keeps
    exact ⟨_, _, _, _, writeIfChanged_eq journal path text,
      MemoryStore.writeIfChanged_eq _ path text, recorded.receive path text,
      (store_receive journal path text).symm, rfl⟩

theorem Keeps.start :
    Session.Abreast Keeps { store := ({} : Journal) } { store := ({} : MemoryStore) } where
  known := rfl
  references := rfl
  located _ member := absurd member List.not_mem_nil
  related := ⟨Recorded.start, rfl, rfl⟩

end Journal

/-- The journal of generating schema files into an empty store. -/
def journalOf (files : List SchemaFile) : Journal :=
  (Session.processFiles { store := ({} : Journal) } files).2.store

namespace Session

variable {files : List SchemaFile} {session : Session MemoryStore}

/-- A run over a memory store that starts out empty is the same run over a journal. -/
theorem exists_journal_run
    (ran : processFiles { store := ({} : MemoryStore) } files = (.ok (), session)) :
    ∃ logged : Session Journal,
      processFiles { store := ({} : Journal) } files = (.ok (), logged) ∧
      logged.store = journalOf files ∧ session.store = logged.store.store ∧
      session.known = logged.known ∧ Journal.Recorded logged.store logged.outputs := by
  obtain ⟨result, abreast⟩ := Journal.Keeps.start.processFiles Journal.Keeps.lasting files
  rw [ran] at result abreast
  exact ⟨_, Prod.ext result.symm rfl, rfl, abreast.related.store_eq, abreast.known,
    abreast.related.recorded⟩

/-- The outputs of a run over an empty store are the files of the store. -/
theorem outputs_eq_paths
    (ran : processFiles { store := ({} : MemoryStore) } files = (.ok (), session)) :
    session.outputs.map Prod.fst = session.store.paths := by
  obtain ⟨-, abreast⟩ := Journal.Keeps.start.processFiles Journal.Keeps.lasting files
  rw [ran] at abreast
  have keeps := abreast.related
  rw [keeps.outputs_eq, keeps.store_eq, keeps.recorded.noted]

end Session

end Typescribe
