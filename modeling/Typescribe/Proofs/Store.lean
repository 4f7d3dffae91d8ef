import Typescribe.Generation.Run

/-!
# What a memory store holds

A memory store is seen through `get?`. Putting a text changes the view at one path, wherever that
path is spelled differently, and the order of the files shows when each was first written. Writing
to a memory store never fails.
-/

namespace Typescribe

namespace Path

variable {left middle right : Path}

theorem same_iff : left.same right = true ↔ left.steps = right.steps := by
  rw [same, beq_iff_eq]

@[simp] theorem same_refl (path : Path) : path.same path = true :=
  same_iff.mpr rfl

theorem same_comm : left.same right = right.same left := by
  rw [Bool.eq_iff_iff, same_iff, same_iff]
  exact eq_comm

/-- Two spellings of one path are the same as the same paths. -/
theorem same_congr_left (same : left.same middle = true) : left.same right = middle.same right := by
  rw [Bool.eq_iff_iff, same_iff, same_iff, same_iff.mp same]

/-- A list of paths with one more at the end, unless some spelling of it is there. -/
def enter (path : Path) : List Path → List Path
  | [] => [path]
  | held :: rest => if held.same path then held :: rest else held :: enter path rest

theorem mem_of_mem_enter {path held : Path} {entered : List Path}
    (member : held ∈ enter path entered) : held = path ∨ held ∈ entered := by
  induction entered with
  | nil => exact .inl (List.mem_singleton.mp member)
  | cons first rest ih =>
    rw [enter] at member
    split at member
    · exact .inr member
    · rcases List.mem_cons.mp member with rfl | member
      · exact .inr List.mem_cons_self
      · exact (ih member).imp_right (List.mem_cons_of_mem first)

theorem mem_enter_of_mem {held : Path} {entered : List Path} (member : held ∈ entered)
    (path : Path) : held ∈ enter path entered := by
  induction entered with
  | nil => exact absurd member List.not_mem_nil
  | cons first rest ih =>
    rw [enter]
    split
    · exact member
    · exact (List.mem_cons.mp member).elim (fun same => same ▸ List.mem_cons_self)
        fun later => List.mem_cons_of_mem first (ih later)

/-- A path that was entered is there, in the spelling that came first. -/
theorem exists_mem_enter (path : Path) (entered : List Path) :
    ∃ held ∈ enter path entered, held.same path = true := by
  induction entered with
  | nil => exact ⟨path, List.mem_singleton_self path, same_refl path⟩
  | cons first rest ih =>
    rw [enter]
    split
    next same => exact ⟨first, List.mem_cons_self, same⟩
    next =>
      obtain ⟨held, member, same⟩ := ih
      exact ⟨held, List.mem_cons_of_mem first member, same⟩

/-- A path that is there in some spelling is not entered again. -/
theorem enter_eq_self {path : Path} {entered : List Path}
    (present : ∃ held ∈ entered, held.same path = true) : enter path entered = entered := by
  induction entered with
  | nil =>
    obtain ⟨held, member, -⟩ := present
    exact absurd member List.not_mem_nil
  | cons first rest ih =>
    rw [enter]
    split
    · rfl
    next different =>
      obtain ⟨held, member, same⟩ := present
      rcases List.mem_cons.mp member with rfl | member
      · exact absurd same different
      · rw [ih ⟨held, member, same⟩]

/-- No path is entered twice, however it is spelled. -/
theorem pairwise_enter {entered : List Path}
    (apart : entered.Pairwise fun first second => first.same second = false) (path : Path) :
    (enter path entered).Pairwise fun first second => first.same second = false := by
  induction entered with
  | nil => exact List.pairwise_singleton _ _
  | cons first rest ih =>
    rw [enter]
    split
    · exact apart
    next different =>
      obtain ⟨apartFirst, apartRest⟩ := List.pairwise_cons.mp apart
      refine List.pairwise_cons.mpr ⟨fun other member => ?_, ih apartRest⟩
      rcases mem_of_mem_enter member with rfl | member
      · exact Bool.not_eq_true _ ▸ different
      · exact apartFirst other member

end Path

namespace MemoryStore

variable {store : MemoryStore} {path other : Path} {text : String}

/-- The paths at which a store holds something, in the order of first writing. -/
def paths (store : MemoryStore) : List Path :=
  store.files.map Prod.fst

@[simp] theorem get?_empty (path : Path) : ({} : MemoryStore).get? path = none := rfl

theorem get?_congr (same : path.same other = true) : store.get? path = store.get? other := by
  rw [get?, get?]
  congr 2
  funext file
  rw [Path.same_comm, Path.same_congr_left same, Path.same_comm]

theorem get?_isSome_iff :
    (store.get? path).isSome = true ↔ ∃ held ∈ store.paths, held.same path = true := by
  rw [get?, Option.isSome_map, List.find?_isSome, paths]
  simp

/-- A text that was put is held at its path, and all other paths are as before. -/
theorem get?_put (store : MemoryStore) (path other : Path) (text : String) :
    (store.put path text).get? other =
      if path.same other then some text else store.get? other := by
  obtain ⟨files⟩ := store
  simp only [get?, put]
  induction files with
  | nil =>
    rw [putFile, List.find?_singleton]
    cases path.same other <;> simp
  | cons file rest ih =>
    rw [putFile]
    by_cases here : file.1.same path = true
    · rw [if_pos here, List.find?_cons, List.find?_cons, Path.same_congr_left here]
      cases path.same other <;> simp
    · rw [if_neg here, List.find?_cons, List.find?_cons]
      cases there : file.1.same other with
      | false => exact ih
      | true =>
        have apart : path.same other = false := by
          rw [← Bool.not_eq_true]
          intro same
          apply here
          rw [Path.same_congr_left there, Path.same_comm, same]
        simp [apart]

theorem get?_put_self (store : MemoryStore) (path : Path) (text : String) :
    (store.put path text).get? path = some text := by
  rw [get?_put, Path.same_refl, if_pos rfl]

theorem isSome_get?_put (held : (store.get? other).isSome = true) (path : Path) (text : String) :
    ((store.put path text).get? other).isSome = true := by
  rw [get?_put]
  split
  · rfl
  · exact held

/-- Putting what is there changes nothing. -/
theorem put_eq_self (held : store.get? path = some text) : store.put path text = store := by
  obtain ⟨files⟩ := store
  rw [put, MemoryStore.mk.injEq]
  rw [get?] at held
  dsimp only at held ⊢
  induction files with
  | nil => simp at held
  | cons file rest ih =>
    rw [List.find?_cons] at held
    rw [putFile]
    cases here : file.1.same path with
    | true =>
      rw [here] at held
      simp only [Option.map_some, Option.some.injEq] at held
      rw [if_pos rfl, ← held]
    | false =>
      rw [here] at held
      rw [if_neg (by decide), ih held]

/-- A path is entered when something is first put there. -/
theorem paths_put (store : MemoryStore) (path : Path) (text : String) :
    (store.put path text).paths = Path.enter path store.paths := by
  obtain ⟨files⟩ := store
  rw [put, paths, paths]
  induction files with
  | nil => rfl
  | cons file rest ih =>
    dsimp only at ih ⊢
    rw [putFile, List.map_cons, Path.enter]
    split
    · rfl
    · rw [List.map_cons, ih]

/-- Putting a text where there is one adds no path. -/
theorem paths_put_of_isSome (held : (store.get? path).isSome = true) (text : String) :
    (store.put path text).paths = store.paths := by
  rw [paths_put, Path.enter_eq_self (get?_isSome_iff.mp held)]

/-- Writing leaves the text at the path and tells whether it was there before. -/
theorem writeIfChanged_eq (store : MemoryStore) (path : Path) (text : String) :
    Store.writeIfChanged store path text =
      (.ok (if store.get? path = some text then .unchanged else .written),
        store.put path text) := by
  have overwrites : Store.overwrite store path text = (.ok .written, store.put path text) := rfl
  rw [Store.writeIfChanged, overwrites]
  cases held : store.get? path with
  | none =>
    have absent : Store.holds store path = false := congrArg Option.isSome held
    rw [absent]
    simp
  | some current =>
    have present : Store.holds store path = true := congrArg Option.isSome held
    have readable : Store.read store path = .ok current := by
      simp only [Store.read, held]
    rw [present, readable]
    by_cases same : current = text
    · subst same
      simp [put_eq_self held]
    · simp [same]

end MemoryStore

namespace Session

/-- Outputs are entered like the files of a store. -/
theorem paths_noteOutput (path : Path) (outcome : WriteOutcome)
    (outputs : List (Path × WriteOutcome)) :
    (noteOutput path outcome outputs).map Prod.fst = Path.enter path (outputs.map Prod.fst) := by
  induction outputs with
  | nil => rfl
  | cons output rest ih =>
    rw [noteOutput, List.map_cons, Path.enter]
    split
    · rfl
    · rw [List.map_cons, ih]

/-- Writing a module to a memory store succeeds. -/
theorem write_eq (session : Session MemoryStore) (path : Path) (item : TypeScript.Module) :
    session.write path item =
      (.ok (), { session with
        store := session.store.put path item.render
        outputs := noteOutput path
          (if session.store.get? path = some item.render then .unchanged else .written)
          session.outputs }) := by
  rw [write, MemoryStore.writeIfChanged_eq]
  rfl

end Session

end Typescribe
