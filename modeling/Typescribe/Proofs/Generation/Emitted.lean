import Typescribe.Proofs.Generation.History

/-!
# Which known types are emitted

A declaration is registered together with everything nested in it, type by type, but a module is
generated only for a top-level declaration whose own type is new. So a type is known and yet
declared by no module if it is nested in a declaration that repeats a known top-level type, and the
declaration that counts for that type does not hold it.
-/

namespace Typescribe

/-- The layouts of a module are those of everything that its declaration holds. -/
theorem KnownTypes.exists_layout {known : KnownTypes} {root part : Declaration}
    {item : TypeScript.Module} (written : known.typeModule root = .ok item)
    (inside : part ∈ root.flatten) :
    ∃ layout ∈ item.declarations, known.declarationFragments part = .ok layout := by
  obtain ⟨layouts, made, rest⟩ := bind_eq_ok.mp written
  obtain ⟨imports, -, rest⟩ := bind_eq_ok.mp rest
  obtain rfl := pure_eq_ok.mp rest
  exact exists_mem_of_mapM made inside

/-- Generating schema files writes, to the file of the declared type, a module that holds what is
written for exactly this declaration. -/
def Emits (files : List SchemaFile) (declaration : Declaration) : Prop :=
  ∃ emission ∈ emissions .initial files, declaration ∈ emission.root.flatten ∧
    ∃ item layout, emission.known.typeModule emission.root = .ok item ∧
      emission.known.declarationFragments declaration = .ok layout ∧
      layout ∈ item.declarations ∧
      item.render ∈ (journalOf files).writesAt declaration.type.moduleFile

section

variable {files : List SchemaFile} {session : Session MemoryStore} {emission : Emission}
  {root declaration : Declaration} (wellSpelled : WellSpelled (rootsOf files))
  (ran : Session.processFiles { store := ({} : MemoryStore) } files = (.ok (), session))

include wellSpelled ran

/-- An emission writes everything that its declaration holds. -/
theorem emits_of_emission (member : emission ∈ emissions .initial files)
    (inside : declaration ∈ emission.root.flatten) (data : declaration.isService = false) :
    Emits files declaration := by
  obtain ⟨logged, reached, isJournal, -⟩ := Session.exists_history ran
  obtain ⟨item, made, written⟩ := reached.written emission member
  have declared := (of_mem_emissions member).1
  have rootData : emission.root.isService = false := by
    rw [← Bool.not_eq_true, Declaration.isService_iff]
    rintro ⟨body, isService⟩
    rw [isService, Declaration.flatten, List.mem_singleton] at inside
    rw [inside] at data
    cases data
  rw [Emission.module?_of_data rootData] at made
  have sameFile : declaration.type.moduleFile = emission.root.type.moduleFile := by
    rw [TypeName.moduleFile, TypeName.moduleFile, wellSpelled.root_eq declared inside,
      wellSpelled.root_eq declared emission.root.self_mem_flatten]
  obtain ⟨layout, listed, laidOut⟩ := KnownTypes.exists_layout made inside
  refine ⟨emission, member, inside, item, layout, made, laidOut, listed, ?_⟩
  rw [sameFile, ← isJournal]
  exact written

/-- A known type other than the timestamp lies in a declaration of its root. -/
theorem exists_home_of_known (isKnown : declaration ∈ session.known.declarations)
    (other : declaration.type ≠ timestamp) :
    ∃ home ∈ rootsOf files, declaration ∈ home.flatten ∧ declaration.type.root = home.type := by
  obtain ⟨-, -, -, -, -, registered⟩ := Session.exists_history ran
  rw [registered] at isKnown
  rcases of_mem_registerFiles isKnown with isInitial | ⟨home, declared, inside, -⟩
  · rw [KnownTypes.initial, List.mem_singleton] at isInitial
    rw [isInitial] at other
    exact absurd rfl other
  · exact ⟨home, declared, inside, wellSpelled.root_eq declared inside⟩

/-- A declaration that counts for a top-level type is emitted, the timestamp apart. -/
theorem exists_emission_of_find? {type : TypeName} (isRoot : type.isRoot = true)
    (found : session.known.find? type = some root) :
    root = .record { type := timestamp } [] ∨
      ∃ emission ∈ emissions .initial files, emission.root = root := by
  obtain ⟨-, -, -, -, -, registered⟩ := Session.exists_history ran
  have same : root.type = type := by simpa using List.find?_some found
  have listed := List.mem_of_find?_eq_some found
  rw [registered] at listed
  rcases of_mem_registerFiles listed with isInitial | ⟨home, declared, inside, emitted⟩
  · exact .inl (List.mem_singleton.mp isInitial)
  · exact .inr (emitted ((wellSpelled.isRoot_iff declared inside).mp (same ▸ isRoot)))

end

/-- A record or enumeration that a run knows, the timestamp apart, is emitted exactly if the
declaration that counts for the top-level type around it holds it. This is so for all of them if
top-level declarations of one type agree and none is of the timestamp. -/
theorem known_emitted_iff {files : List SchemaFile} {session : Session MemoryStore}
    (wellSpelled : WellSpelled (rootsOf files))
    (ran : Session.processFiles { store := ({} : MemoryStore) } files = (.ok (), session))
    {declaration : Declaration} (isKnown : declaration ∈ session.known.declarations)
    (data : declaration.isService = false) (other : declaration.type ≠ timestamp) :
    (Emits files declaration ↔
      ∃ root, session.known.find? declaration.type.root = some root ∧
        declaration ∈ root.flatten) ∧
    ((∀ first ∈ rootsOf files, ∀ second ∈ rootsOf files,
        first.type = second.type → first = second) →
      (∀ root ∈ rootsOf files, root.type ≠ timestamp) → Emits files declaration) := by
  obtain ⟨home, declared, inHome, isHome⟩ := exists_home_of_known wellSpelled ran isKnown other
  have isRoot : declaration.type.root.isRoot = true := isHome ▸ wellSpelled.topLevel home declared
  have emitted : (∃ root, session.known.find? declaration.type.root = some root ∧
      declaration ∈ root.flatten) → Emits files declaration := by
    rintro ⟨root, found, inside⟩
    rcases exists_emission_of_find? wellSpelled ran isRoot found with
      rfl | ⟨emission, member, rfl⟩
    · rw [List.mem_singleton.mp inside] at other
      exact absurd rfl other
    · exact emits_of_emission wellSpelled ran member inside data
  obtain ⟨-, -, -, -, -, registered⟩ := Session.exists_history ran
  refine ⟨⟨?_, emitted⟩, fun agree noTimestamp => ?_⟩
  · rintro ⟨emission, member, inside, -⟩
    obtain ⟨emittedRoot, found⟩ := of_mem_emissions member
    refine ⟨emission.root, ?_, inside⟩
    rw [wellSpelled.root_eq emittedRoot inside, registered]
    exact found
  · obtain ⟨root, found⟩ := KnownTypes.exists_find?_registerFiles declared
    rw [← registered, ← isHome] at found
    have same : root.type = home.type := by simpa [isHome] using List.find?_some found
    rcases exists_emission_of_find? wellSpelled ran isRoot found with
      rfl | ⟨emission, member, rfl⟩
    · exact absurd same.symm (noTimestamp home declared)
    · have isSame := agree emission.root (of_mem_emissions member).1 home declared same
      exact emitted ⟨emission.root, found, isSame ▸ inHome⟩

/-- A record without anything inside. -/
def shelf : Declaration :=
  .record { type := ⟨"library.Shelf"⟩ } []

/-- A record that only a repeated declaration of the shelf holds. -/
def row : Declaration :=
  .record { type := ⟨"library.Shelf.Row"⟩ } []

/-- Two schema files that declare the shelf, the second one with a row in it. -/
def shelfFiles : List SchemaFile :=
  [{ name := "shelf", declarations := [shelf] },
   { name := "rows", declarations := [.record { type := ⟨"library.Shelf"⟩ } [row]] }]

theorem shelf_wellSpelled : WellSpelled (rootsOf shelfFiles) := by decide

theorem shelf_registerFiles : KnownTypes.initial.registerFiles shelfFiles =
    ⟨[.record { type := timestamp } [], shelf, row]⟩ := rfl

/-- Both files are taken, and what is known afterwards is the shelf and the row. -/
theorem exists_shelf_run : ∃ session,
    Session.processFiles { store := ({} : MemoryStore) } shelfFiles = (.ok (), session) ∧
    session.known.declarations = [.record { type := timestamp } [], shelf, row] ∧
    session.store.files = [(⟨"library/Shelf.ts"⟩, "export default class Shelf {}\n")] := by
  have evaluated :
      (Session.processFiles { store := ({} : MemoryStore) } shelfFiles).1 = .ok () ∧
      (Session.processFiles { store := ({} : MemoryStore) } shelfFiles).2.store.files =
        [(⟨"library/Shelf.ts"⟩, "export default class Shelf {}\n")] := by decide +kernel
  have ran : Session.processFiles { store := ({} : MemoryStore) } shelfFiles =
      (.ok (), (Session.processFiles { store := ({} : MemoryStore) } shelfFiles).2) :=
    Prod.ext evaluated.1 rfl
  obtain ⟨-, -, -, -, -, registered⟩ := Session.exists_history ran
  rw [shelf_registerFiles] at registered
  exact ⟨_, ran, by rw [registered], evaluated.2⟩

/-- The shelf is known from its first declaration, and emitted from it. -/
theorem shelf_emitted : ∃ session,
    Session.processFiles { store := ({} : MemoryStore) } shelfFiles = (.ok (), session) ∧
    WellSpelled (rootsOf shelfFiles) ∧ shelf ∈ session.known.declarations ∧
    shelf.isService = false ∧ shelf.type ≠ timestamp ∧ Emits shelfFiles shelf := by
  obtain ⟨session, ran, known, -⟩ := exists_shelf_run
  have isKnown : shelf ∈ session.known.declarations := by simp [known]
  have counts : session.known.find? shelf.type.root = some shelf := by
    rw [KnownTypes.find?, known]
    rfl
  refine ⟨session, ran, shelf_wellSpelled, isKnown, rfl, by decide, ?_⟩
  exact (known_emitted_iff shelf_wellSpelled ran isKnown rfl (by decide)).1.mpr
    ⟨shelf, counts, shelf.self_mem_flatten⟩

/-- The row is known, but the only file was written for the shelf that has none. -/
theorem row_not_emitted : ∃ session,
    Session.processFiles { store := ({} : MemoryStore) } shelfFiles = (.ok (), session) ∧
    row ∈ session.known.declarations ∧ ¬ Emits shelfFiles row ∧
    session.store.files = [(⟨"library/Shelf.ts"⟩, "export default class Shelf {}\n")] := by
  obtain ⟨session, ran, known, files⟩ := exists_shelf_run
  refine ⟨session, ran, by simp [known], ?_, files⟩
  rintro ⟨emission, member, inside, -⟩
  obtain ⟨declared, found⟩ := of_mem_emissions member
  rw [← shelf_wellSpelled.root_eq declared inside, shelf_registerFiles] at found
  have isShelf : shelf = emission.root := Option.some.inj found
  rw [← isShelf] at inside
  exact absurd (congrArg Declaration.type (List.mem_singleton.mp inside)) (by decide)

end Typescribe
