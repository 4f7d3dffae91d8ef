import Typescribe.Program.Execution
import Typescribe.Proofs.Disk
import Typescribe.Proofs.Generation.Dangling
import Typescribe.Proofs.Generation.Lockstep

/-!
# Generating into a directory is previewing

A preview keeps files in memory by their paths, and generating puts them into a tree of files and
directories. The two agree because only the last name of a generated path has a dot in it: no
generated file is where another one needs a directory. So generating into an empty directory
succeeds exactly if the preview does, and leaves the tree of the previewed files.
-/

namespace Typescribe

/-- The names of the steps that a path takes. -/
def Path.names (path : Path) : List String :=
  path.steps.map PathStep.text

/-- The tree of the given files: a file where one is, and directories on the way to files. -/
def treeOf (entries : List (List String × String)) (names : List String) : Option DiskNode :=
  match entries.lookup names with
  | some text => some (.file (.text text))
  | none =>
    if names.isEmpty || entries.any fun entry => names.isPrefixOf entry.1 then some .directory
    else none

/-- The files of a store, by the names that lead to them. -/
def MemoryStore.entries (store : MemoryStore) : List (List String × String) :=
  store.files.map fun file => (file.1.names, file.2)

/-- A previewed file, by the names that lead to it. -/
def GeneratedFile.entry (file : GeneratedFile) : List String × String :=
  ((⟨file.path⟩ : Path).names, file.content)

/-- A path through names of which the last, and no other, has a dot. -/
def IsOutput (path : Path) : Prop :=
  ∃ dirs file, path = Path.through (dirs ++ [file]) ∧ (∀ name ∈ dirs ++ [file], IsStep name) ∧
    (∀ dir ∈ dirs, '.' ∉ dir.toList) ∧ '.' ∈ file.toList

theorem Path.names_through {names : List String} (areSteps : ∀ name ∈ names, IsStep name)
    (nonempty : names ≠ []) : (through names).names = names := by
  rw [Path.names, steps_through areSteps nonempty, List.map_map]
  exact List.map_id names

theorem isOutput_moduleSteps {type : TypeName} {name : String} (slashless : type.Slashless)
    (noSlash : '/' ∉ name.toList) : IsOutput (Path.through (type.moduleSteps name)) := by
  refine ⟨type.package, name ++ ".ts", rfl, TypeName.moduleSteps_isStep slashless noSlash, ?_, ?_⟩
  · exact fun segment member => (TypeName.mem_segments
      (TypeName.mem_segments_of_mem_package member)).2.1
  · rw [String.toList_append]
    exact List.mem_append_right _ (by decide)

/-- The files of a declaration without slashes in its name are outputs. -/
theorem placeable_of_slashless {root : Declaration} (slashless : root.type.Slashless) :
    Session.Placeable IsOutput root where
  module := by
    rw [TypeName.moduleFile_eq_root slashless]
    exact isOutput_moduleSteps slashless.root slashless.root.simpleName_noSlash
  client := by
    rw [TypeName.clientFile_eq slashless]
    exact isOutput_moduleSteps slashless (by decide)

namespace IsOutput

variable {path other : Path}

theorem names_ne_nil (isOutput : IsOutput path) : path.names ≠ [] := by
  obtain ⟨dirs, file, rfl, areSteps, -, -⟩ := isOutput
  rw [Path.names_through areSteps (by simp)]
  simp

/-- No output is a directory on the way to another one. -/
theorem names_eq_of_leads (isOutput : IsOutput path) (otherIsOutput : IsOutput other)
    (leads : path.names <+: other.names) : path.names = other.names := by
  obtain ⟨dirs, file, rfl, areSteps, -, dotted⟩ := isOutput
  obtain ⟨otherDirs, otherFile, rfl, otherAreSteps, dotless, -⟩ := otherIsOutput
  rw [Path.names_through areSteps (by simp), Path.names_through otherAreSteps (by simp)] at *
  refine (List.prefix_concat_iff.mp leads).resolve_right fun inside => ?_
  exact dotless file (inside.subset (by simp)) dotted

/-- Outputs are the same if they go through the same names. -/
theorem same_iff_names (isOutput : IsOutput path) (otherIsOutput : IsOutput other) :
    path.same other = true ↔ path.names = other.names := by
  obtain ⟨dirs, file, rfl, areSteps, -, -⟩ := isOutput
  obtain ⟨otherDirs, otherFile, rfl, otherAreSteps, -, -⟩ := otherIsOutput
  rw [Path.same_through_iff areSteps otherAreSteps (by simp) (by simp),
    Path.names_through areSteps (by simp), Path.names_through otherAreSteps (by simp)]

end IsOutput

/-- A store holds nothing but outputs. -/
def MemoryStore.HoldsOutputs (store : MemoryStore) : Prop :=
  ∀ path ∈ store.paths, IsOutput path

section

variable {store : MemoryStore} {path : Path} {names : List String} {text : String}

theorem lookup_entries_eq_none_iff :
    store.entries.lookup names = none ↔ ∀ path ∈ store.paths, names ≠ path.names := by
  rw [List.lookup_eq_none_iff, MemoryStore.entries, MemoryStore.paths, List.forall_mem_map,
    List.forall_mem_map]
  simp

/-- The directories of the tree are on the way to files. -/
theorem any_entries_iff :
    (store.entries.any fun entry => names.isPrefixOf entry.1) = true ↔
      ∃ held ∈ store.paths, names <+: held.names := by
  rw [MemoryStore.entries, MemoryStore.paths]
  simp

theorem any_entries_put_iff :
    ((store.put path text).entries.any fun entry => names.isPrefixOf entry.1) = true ↔
      names <+: path.names ∨
        (store.entries.any fun entry => names.isPrefixOf entry.1) = true := by
  rw [any_entries_iff, any_entries_iff, MemoryStore.paths_put]
  constructor
  · rintro ⟨held, member, leads⟩
    rcases Path.mem_of_mem_enter member with rfl | member
    · exact .inl leads
    · exact .inr ⟨held, member, leads⟩
  · rintro (leads | ⟨held, member, leads⟩)
    · obtain ⟨held, member, same⟩ := Path.exists_mem_enter path store.paths
      refine ⟨held, member, ?_⟩
      rwa [Path.names, Path.same_iff.mp same]
    · exact ⟨held, Path.mem_enter_of_mem member path, leads⟩

theorem treeOf_of_lookup_none (absent : store.entries.lookup names = none) :
    treeOf store.entries names = none ∨ treeOf store.entries names = some .directory := by
  rw [treeOf, absent]
  dsimp only
  split
  · exact .inr rfl
  · exact .inl rfl

variable (outputs : store.HoldsOutputs) (isOutput : IsOutput path)
include outputs isOutput

theorem MemoryStore.HoldsOutputs.put (text : String) : (store.put path text).HoldsOutputs := by
  intro held member
  rw [paths_put] at member
  exact (Path.mem_of_mem_enter member).elim (fun same => same ▸ isOutput) (outputs held)

/-- Outputs can be looked up by names. -/
theorem lookup_entries : store.entries.lookup path.names = store.get? path := by
  obtain ⟨files⟩ := store
  rw [MemoryStore.entries, MemoryStore.get?]
  dsimp only
  induction files with
  | nil => rfl
  | cons file rest ih =>
    obtain ⟨first, later⟩ := List.forall_mem_cons.mp outputs
    rw [List.map_cons, Disk.lookup_cons_eq_ite, List.find?_cons, ih later, Path.same_comm]
    cases same : path.same file.1 with
    | true =>
      rw [if_pos ((isOutput.same_iff_names first).mp same)]
      rfl
    | false =>
      rw [if_neg fun equal => ?_]
      rw [(isOutput.same_iff_names first).mpr equal] at same
      cases same

/-- A text that is put is found under its names only. -/
theorem lookup_entries_put (text : String) (names : List String) :
    (store.put path text).entries.lookup names =
      if names = path.names then some text else store.entries.lookup names := by
  have outputsPut := outputs.put isOutput text
  by_cases here : names = path.names
  · rw [if_pos here, here, lookup_entries outputsPut isOutput, MemoryStore.get?_put_self]
  rw [if_neg here]
  by_cases held : ∃ held ∈ store.paths, names = held.names
  · obtain ⟨held, member, rfl⟩ := held
    have heldIsOutput := outputs held member
    have different : ¬ path.same held = true := fun same =>
      here ((isOutput.same_iff_names heldIsOutput).mp same).symm
    rw [lookup_entries outputsPut heldIsOutput, lookup_entries outputs heldIsOutput,
      MemoryStore.get?_put, if_neg different]
  · have absent : ∀ held ∈ store.paths, names ≠ held.names :=
      fun other member same => held ⟨other, member, same⟩
    rw [lookup_entries_eq_none_iff.mpr absent, lookup_entries_eq_none_iff, MemoryStore.paths_put]
    intro other member
    rcases Path.mem_of_mem_enter member with rfl | member
    · exact here
    · exact absent other member

/-- There is no file on the way to an output. -/
theorem lookup_entries_of_leads (leads : names <+: path.names) (different : names ≠ path.names) :
    store.entries.lookup names = none := by
  rw [lookup_entries_eq_none_iff]
  rintro held member rfl
  exact different ((outputs held member).names_eq_of_leads isOutput leads)

theorem treeOf_of_get? (content : store.get? path = some text) :
    treeOf store.entries path.names = some (.file (.text text)) := by
  rw [treeOf, lookup_entries outputs isOutput, content]

/-- Where an output is not held there is nothing, not even a directory. -/
theorem treeOf_of_get?_none (absent : store.get? path = none) :
    treeOf store.entries path.names = none := by
  rw [treeOf, lookup_entries outputs isOutput, absent]
  dsimp only
  rw [if_neg]
  rw [Bool.or_eq_true, List.isEmpty_iff, any_entries_iff]
  rintro (empty | ⟨held, member, leads⟩)
  · exact isOutput.names_ne_nil empty
  · have equal := isOutput.names_eq_of_leads (outputs held member) leads
    have present := MemoryStore.get?_isSome_iff.mpr
      ⟨held, member, ((outputs held member).same_iff_names isOutput).mpr equal.symm⟩
    rw [absent] at present
    cases present

/-- On the way to an output that is held there are directories. -/
theorem treeOf_eq_directory (held : (store.get? path).isSome = true)
    (leads : names <+: path.names) (different : names ≠ path.names) :
    treeOf store.entries names = some .directory := by
  obtain ⟨spelled, member, same⟩ := MemoryStore.get?_isSome_iff.mp held
  have leadsSpelled : names <+: spelled.names := by
    rwa [((outputs spelled member).same_iff_names isOutput).mp same]
  rw [treeOf, lookup_entries_of_leads outputs isOutput leads different]
  dsimp only
  rw [any_entries_iff.mpr ⟨spelled, member, leadsSpelled⟩, Bool.or_true, if_pos rfl]

/-- Putting an output adds a file and the directories around it. -/
theorem treeOf_put (text : String) (names : List String) :
    treeOf (store.put path text).entries names =
      if names = path.names then some (.file (.text text))
      else if names <+: path.names then some .directory
      else treeOf store.entries names := by
  rw [treeOf, lookup_entries_put outputs isOutput]
  by_cases here : names = path.names
  · rw [if_pos here, if_pos here]
  rw [if_neg here, if_neg here]
  by_cases leads : names <+: path.names
  · rw [if_pos leads, lookup_entries_of_leads outputs isOutput leads here]
    dsimp only
    rw [any_entries_put_iff.mpr (.inl leads), Bool.or_true, if_pos rfl]
  · have same : ((store.put path text).entries.any fun entry => names.isPrefixOf entry.1) =
        store.entries.any fun entry => names.isPrefixOf entry.1 := by
      rw [Bool.eq_iff_iff, any_entries_put_iff]
      exact or_iff_right leads
    rw [if_neg leads, treeOf, same]

end

/-- A directory of a disk holds the outputs that a memory store holds, and nothing else. The rest of
the disk is as it was. -/
structure Copies (disk : Disk) (dir : Path) (home : Location) (store : MemoryStore)
    (copy : DiskStore) : Prop where
  areOutputs : store.HoldsOutputs
  root : copy.root = dir
  lenient : copy.disk.rules = .lenient
  located : copy.disk.locate dir = .ok home
  tree : ∀ names, copy.disk.node? (home ++ names) = treeOf store.entries names
  outside : ∀ place, ¬ home <+: place → copy.disk.node? place = disk.node? place

namespace Copies

variable {disk : Disk} {dir : Path} {home : Location} {store : MemoryStore} {copy : DiskStore}
  {path : Path} {text : String}

theorem isDirectory (copies : Copies disk dir home store copy) :
    copy.disk.node? home = some .directory := by
  have tree := copies.tree []
  have absent : store.entries.lookup [] = none :=
    lookup_entries_eq_none_iff.mpr fun path member =>
      (copies.areOutputs path member).names_ne_nil.symm
  rw [List.append_nil, treeOf, absent] at tree
  exact tree

/-- An output can lead to one place only. -/
theorem eq_of_locate (copies : Copies disk dir home store copy)
    (isOutput : IsOutput path) {location : Location}
    (located : copy.disk.locate (copy.full path) = .ok location) :
    location = home ++ path.names := by
  obtain ⟨dirs, file, rfl, areSteps, -, -⟩ := isOutput
  rw [DiskStore.full, copies.root,
    Disk.locate_join copies.lenient copies.located areSteps (by simp)] at located
  rw [Path.names_through areSteps (by simp)]
  exact Disk.eq_of_walk_names areSteps located

/-- What is held in memory is found on the disk. -/
theorem locate_of_isSome (copies : Copies disk dir home store copy)
    (isOutput : IsOutput path) (held : (store.get? path).isSome = true) :
    copy.disk.locate (copy.full path) = .ok (home ++ path.names) := by
  have directories : ∀ through, through <+: path.names → through ≠ path.names →
      copy.disk.node? (home ++ through) = some .directory := by
    intro through leads different
    rw [copies.tree]
    exact treeOf_eq_directory copies.areOutputs isOutput held leads different
  obtain ⟨dirs, file, rfl, areSteps, -, -⟩ := isOutput
  rw [Path.names_through areSteps (by simp)] at directories ⊢
  rw [DiskStore.full, copies.root,
    Disk.locate_join copies.lenient copies.located areSteps (by simp)]
  exact Disk.walk_names copies.lenient areSteps directories

theorem read_eq (copies : Copies disk dir home store copy)
    (isOutput : IsOutput path) (content : store.get? path = some text) :
    Store.read copy path = .ok text := by
  have found := copies.locate_of_isSome isOutput (Option.isSome_iff_exists.mpr ⟨text, content⟩)
  have node := copies.tree path.names
  rw [treeOf_of_get? copies.areOutputs isOutput content] at node
  simp only [Store.read, Disk.read, found, node]

theorem holds_eq (copies : Copies disk dir home store copy)
    (isOutput : IsOutput path) : Store.holds copy path = (store.get? path).isSome := by
  have node := copies.tree path.names
  have holds : Store.holds copy path = copy.disk.holds (copy.full path) := rfl
  rw [holds, Disk.holds]
  cases content : store.get? path with
  | some text =>
    rw [treeOf_of_get? copies.areOutputs isOutput content] at node
    have held : (store.get? path).isSome = true := Option.isSome_iff_exists.mpr ⟨text, content⟩
    rw [copies.locate_of_isSome isOutput held]
    dsimp only
    rw [node]
    rfl
  | none =>
    rw [treeOf_of_get?_none copies.areOutputs isOutput content] at node
    cases located : copy.disk.locate (copy.full path) with
    | error kind => rfl
    | ok location =>
      dsimp only
      rw [copies.eq_of_locate isOutput located, node]
      rfl

/-- An output can be written to the disk as it can be put into memory. -/
theorem exists_write (copies : Copies disk dir home store copy) (isOutput : IsOutput path)
    (text : String) : ∃ after, Store.write copy path text = (.ok (), after) ∧
      Copies disk dir home (store.put path text) after := by
  have areOutputs := copies.areOutputs.put isOutput text
  have noDirectory : copy.disk.node? (home ++ path.names) ≠ some .directory := by
    rw [copies.tree]
    cases content : store.get? path with
    | some current => simp [treeOf_of_get? copies.areOutputs isOutput content]
    | none => simp [treeOf_of_get?_none copies.areOutputs isOutput content]
  have clear : ∀ through, through <+: path.names → through ≠ path.names →
      copy.disk.node? (home ++ through) = none ∨
        copy.disk.node? (home ++ through) = some .directory := by
    intro through leads different
    rw [copies.tree]
    exact treeOf_of_lookup_none
      (lookup_entries_of_leads copies.areOutputs isOutput leads different)
  have treePut := treeOf_put copies.areOutputs isOutput text
  obtain ⟨dirs, file, rfl, areSteps, -, -⟩ := isOutput
  rw [Path.names_through areSteps (by simp)] at *
  have shorter : ∀ through, through <+: dirs → through ≠ dirs ++ [file] := by
    rintro _ leads rfl
    have length := leads.length_le
    rw [List.length_append, List.length_singleton] at length
    omega
  obtain ⟨after, saved, rules, located, isFile, directories, unchanged⟩ :=
    Disk.exists_save copies.lenient copies.located copies.isDirectory areSteps
      (fun through leads _ => clear through (leads.trans (List.prefix_append dirs [file]))
        (shorter through leads)) noDirectory (.text text)
  refine ⟨⟨after, dir⟩, ?_, areOutputs, rfl, rules.trans copies.lenient, located,
    fun names => ?_, fun place outside => ?_⟩
  · simp only [Store.write, DiskStore.full, copies.root, saved]
  · rw [treePut]
    split
    next here => rw [here]; exact isFile
    next elsewhere =>
      split
      next leads =>
        by_cases empty : names = []
        · rw [empty, List.append_nil, unchanged home (by simp) (by simp)]
          exact copies.isDirectory
        · exact directories names ((List.prefix_concat_iff.mp leads).resolve_left elsewhere) empty
      next apart =>
        rw [unchanged _ ?_ ?_]
        · exact copies.tree names
        · intro through leads _ equal
          rw [List.append_cancel_left equal] at apart
          exact apart (leads.trans (List.prefix_append dirs [file]))
        · exact fun equal => elsewhere (List.append_cancel_left equal)
  · rw [unchanged place ?_ ?_]
    · exact copies.outside place outside
    · rintro through - - rfl
      exact outside (List.prefix_append home through)
    · rintro rfl
      exact outside (List.prefix_append home _)

/-- What is on the disk already is found unchanged, as in memory. -/
theorem exists_writeIfChanged (copies : Copies disk dir home store copy)
    (isOutput : IsOutput path) (text : String) :
    ∃ after, Store.writeIfChanged copy path text =
        (.ok (if store.get? path = some text then .unchanged else .written), after) ∧
      Copies disk dir home (store.put path text) after := by
  obtain ⟨after, written, copiesAfter⟩ := copies.exists_write isOutput text
  have overwrites : Store.overwrite copy path text = (.ok .written, after) := by
    rw [Store.overwrite, written]
  rw [Store.writeIfChanged, copies.holds_eq isOutput, overwrites]
  cases content : store.get? path with
  | none => exact ⟨after, rfl, copiesAfter⟩
  | some current =>
    rw [copies.read_eq isOutput content]
    by_cases same : current = text
    · subst same
      refine ⟨copy, ?_, ?_⟩
      · simp
      · rw [MemoryStore.put_eq_self content]
        exact copies
    · refine ⟨after, ?_, copiesAfter⟩
      simp [same]

end Copies

/-- A run into memory and one into a directory that came to the same: the same outputs are noted,
all of them as written. -/
structure Mirrors (disk : Disk) (dir : Path) (home : Location) (store : MemoryStore)
    (outputs : List (Path × WriteOutcome)) (copy : DiskStore)
    (others : List (Path × WriteOutcome)) : Prop where
  copies : Copies disk dir home store copy
  same : others = outputs
  noted : outputs.map Prod.fst = store.paths
  apart : store.paths.Pairwise fun first second => first.same second = false
  written : ∀ output ∈ outputs, output.2 = .written

namespace Mirrors

variable {disk : Disk} {dir : Path} {home : Location} {store : MemoryStore} {copy : DiskStore}
  {outputs others : List (Path × WriteOutcome)} {path : Path} {text : String}

/-- Noting one more output as a memory store puts it. -/
theorem written_noteOutput (mirrors : Mirrors disk dir home store outputs copy others) (path : Path)
    (text : String) : ∀ output ∈ Session.noteOutput path
      (if store.get? path = some text then .unchanged else .written) outputs,
      output.2 = .written := by
  intro output member
  split at member
  next held =>
    have noted : Session.Notes outputs path := by
      rw [Session.Notes, mirrors.noted]
      exact MemoryStore.get?_isSome_iff.mp (Option.isSome_iff_exists.mpr ⟨text, held⟩)
    rw [Session.noteOutput_unchanged noted] at member
    exact mirrors.written output member
  next =>
    have apart := mirrors.apart
    rw [← mirrors.noted] at apart
    rcases Session.of_mem_noteOutput apart member with ⟨-, rfl⟩ | ⟨-, old, -, outcome⟩ | ⟨-, listed⟩
    · rfl
    · exact outcome
    · exact mirrors.written output listed

/-- Mirroring outputs lasts. -/
theorem lasting (disk : Disk) (dir : Path) (home : Location) :
    Session.LastingOn IsOutput (Mirrors disk dir home) where
  noted := fun mirrors => by rw [mirrors.same]
  read := by
    intro store outputs copy others mirrors path isOutput noted
    rw [Session.Notes, mirrors.noted] at noted
    obtain ⟨text, content⟩ :=
      Option.isSome_iff_exists.mp (MemoryStore.get?_isSome_iff.mpr noted)
    exact ⟨text, MemoryStore.read_eq_ok content, mirrors.copies.read_eq isOutput content⟩
  write := by
    intro store outputs copy others mirrors path isOutput text
    obtain ⟨after, written, copies⟩ := mirrors.copies.exists_writeIfChanged isOutput text
    refine ⟨_, _, _, after, MemoryStore.writeIfChanged_eq store path text, written, copies,
      ?_, ?_, ?_, mirrors.written_noteOutput path text⟩
    · rw [mirrors.same]
    · rw [Session.paths_noteOutput, MemoryStore.paths_put, mirrors.noted]
    · rw [MemoryStore.paths_put]
      exact Path.pairwise_enter mirrors.apart path

/-- Nothing is generated yet, and the directory is empty. -/
theorem start (lenient : disk.rules = .lenient) (located : disk.locate dir = .ok home)
    (isDirectory : disk.node? home = some .directory)
    (empty : ∀ names, names ≠ [] → disk.node? (home ++ names) = none) :
    Session.AbreastOn IsOutput (Mirrors disk dir home) { store := ({} : MemoryStore) }
      { store := DiskStore.mk disk dir } where
  known := rfl
  references := rfl
  located := fun _ listed => absurd listed List.not_mem_nil
  related :=
    { copies :=
        { areOutputs := fun _ listed => absurd listed List.not_mem_nil
          root := rfl
          lenient := lenient
          located := located
          tree := fun names => by
            by_cases none : names = []
            · rw [none, List.append_nil]
              exact isDirectory
            · have tree : treeOf ({} : MemoryStore).entries names = .none := by
                simp [treeOf, MemoryStore.entries, none]
              rw [tree]
              exact empty names none
          outside := fun _ _ => rfl }
      same := rfl
      noted := rfl
      apart := List.Pairwise.nil
      written := fun _ listed => absurd listed List.not_mem_nil }

theorem isSome_get? (mirrors : Mirrors disk dir home store outputs copy others) :
    ∀ path ∈ outputs.map Prod.fst, (store.get? path).isSome = true := by
  intro path member
  rw [mirrors.noted] at member
  exact MemoryStore.get?_isSome_iff.mpr ⟨path, member, Path.same_refl path⟩

theorem summarize_copy (mirrors : Mirrors disk dir home store outputs copy others) :
    Session.summarize copy others = Session.summarize store outputs := by
  rw [mirrors.same]
  refine Session.summarize_congr fun path member => ?_
  obtain ⟨text, content⟩ := Option.isSome_iff_exists.mp (mirrors.isSome_get? path member)
  rw [mirrors.noted] at member
  rw [mirrors.copies.read_eq (mirrors.copies.areOutputs path member) content,
    MemoryStore.read_eq_ok content]

/-- Every file is reported as written. -/
theorem exists_summary (mirrors : Mirrors disk dir home store outputs copy others) :
    ∃ summary, Session.summarize store outputs = .ok summary ∧
      summary.written = store.paths.map Path.shown ∧ summary.unchanged = [] := by
  refine ⟨_, Session.summarize_eq_ok mirrors.isSome_get?, ?_, ?_⟩
  · have all : Session.listed .written outputs =
        ((outputs.map Prod.fst).filter fun _ => true).map Path.shown :=
      Session.listed_eq fun output member => iff_of_true (mirrors.written output member) rfl
    rw [all, mirrors.noted, List.filter_true]
  · dsimp only
    rw [Session.listed, List.map_eq_nil_iff, List.filter_eq_nil_iff]
    intro output member
    rw [mirrors.written output member]
    decide

/-- The previewed files are those of the tree. -/
theorem tree_previewed (mirrors : Mirrors disk dir home store outputs copy others)
    (names : List String) : copy.disk.node? (home ++ names) =
      treeOf ((store.files.map fun file => GeneratedFile.mk file.1.shown file.2).map
        GeneratedFile.entry) names := by
  rw [mirrors.copies.tree, MemoryStore.entries, List.map_map]
  refine congrArg (treeOf · names) (List.map_congr_left fun file _ => ?_)
  rw [Function.comp_apply, GeneratedFile.entry, Path.names, Path.names, Path.steps_shown]

end Mirrors

/-- The report of a generated directory has no warnings if no placeholder is left. -/
theorem Summary.warning_not_mem_report_iff {summary : Summary} {dir : Path} :
    (∀ text, .warning text ∉ summary.report dir) ↔ summary.unresolved = [] := by
  constructor
  · intro silent
    rw [List.eq_nil_iff_forall_not_mem]
    intro reference member
    apply silent reference.text
    simp only [report, List.append_assoc]
    exact List.mem_append_left _ (List.mem_map_of_mem member)
  · intro resolved text member
    -- All other lines go to the output channel.
    have outputs : ∀ line ∈ summary.report dir, line.channel = .output := by
      rw [report, resolved]
      intro line listed
      simp only [List.map_nil, List.nil_append, List.mem_append, List.mem_singleton] at listed
      rcases listed with (rfl | listed) | listed
      · rfl
      · split at listed
        · exact absurd listed List.not_mem_nil
        · simp only [List.mem_cons, List.mem_map] at listed
          rcases listed with rfl | rfl | ⟨file, -, rfl⟩ <;> rfl
      · split at listed
        · exact absurd listed List.not_mem_nil
        · simp only [List.mem_cons, List.not_mem_nil, or_false] at listed
          rcases listed with rfl | rfl <;> rfl
    have channel : Channel.error = .output := outputs _ member
    cases channel

section

variable {disk : Disk} {dir : Path} {home : Location} {files : List SchemaFile}

/-- Taking files into an empty directory comes to the same as taking them into memory. -/
theorem processFiles_mirrors (lenient : disk.rules = .lenient)
    (located : disk.locate dir = .ok home) (isDirectory : disk.node? home = some .directory)
    (empty : ∀ names, names ≠ [] → disk.node? (home ++ names) = none)
    (slashless : ∀ root ∈ rootsOf files, root.type.Slashless) :
    ∃ result session copy,
      Session.processFiles { store := ({} : MemoryStore) } files = (result, session) ∧
      Session.processFiles { store := DiskStore.mk disk dir } files = (result, copy) ∧
      Mirrors disk dir home session.store session.outputs copy.store copy.outputs := by
  have placeable : ∀ root ∈ rootsOf files, Session.Placeable IsOutput root :=
    fun root declared => placeable_of_slashless (slashless root declared)
  obtain ⟨same, abreast⟩ := (Mirrors.lasting disk dir home).keepsPace.processFiles
    (Mirrors.start lenient located isDirectory empty)
    (fun root declared => (placeable root declared).module)
    fun service declared => (placeable (.service service) declared).client
  exact ⟨_, _, _, rfl, Prod.ext same rfl, abreast.related⟩

/-- Generating into an empty directory, previewing and checking schema files fail for the same
reason, or all of them succeed. Then the directory holds the previewed files, each of them reported
as written, and the check counts them and finds the same references unresolved. So a check exits
with zero if generating does and warns of nothing. -/
theorem generate_agrees_preview_check (lenient : disk.rules = .lenient)
    (located : disk.locate dir = .ok home) (isDirectory : disk.node? home = some .directory)
    (empty : ∀ names, names ≠ [] → disk.node? (home ++ names) = none)
    (slashless : ∀ root ∈ rootsOf files, root.type.Slashless) :
    ((∃ reason after, generate disk dir files = (.error reason, after) ∧
        preview files = .error reason ∧ check files = .error reason) ∨
      ∃ summary after found result, generate disk dir files = (.ok summary, after) ∧
        preview files = .ok found ∧ check files = .ok result ∧
        (∀ names, after.node? (home ++ names) = treeOf (found.map GeneratedFile.entry) names) ∧
        (∀ place, ¬ home <+: place → after.node? place = disk.node? place) ∧
        (found.map GeneratedFile.path).Nodup ∧ summary.written = found.map GeneratedFile.path ∧
        summary.unchanged = [] ∧ result.fileCount = found.length ∧
        summary.unresolved = result.unresolved) ∧
    ∀ config, (Program.runCheck files config disk).code = 0 ↔
      (Program.runGenerate files dir disk).code = 0 ∧
        ∀ text, .warning text ∉ (Program.runGenerate files dir disk).lines := by
  obtain ⟨result, session, copy, ran, ranCopy, mirrors⟩ :=
    processFiles_mirrors lenient located isDirectory empty slashless
  cases result with
  | error reason =>
    have generates : generate disk dir files = (.error reason, copy.store.disk) := by
      rw [generate, Session.run, ranCopy]
    have checks : check files = .error reason := by rw [check, Session.run, ran]
    have previews : preview files = .error reason := by rw [preview, Session.run, ran]
    refine ⟨.inl ⟨reason, _, generates, previews, checks⟩, fun config => ?_⟩
    rw [Program.runCheck, checks, Program.runGenerate, generates]
    simp [Program.failed]
  | ok done =>
    obtain ⟨summary, finished, written, unchanged⟩ := mirrors.exists_summary
    have generates : generate disk dir files = (.ok summary, copy.store.disk) := by
      rw [generate, Session.run, ranCopy]
      dsimp only
      rw [Session.finish, mirrors.summarize_copy, finished]
    have runs : Session.run ({} : MemoryStore) files = (.ok summary, session) := by
      rw [Session.run, ran]
      dsimp only
      rw [Session.finish, finished]
    have checks : check files = .ok
        { schemaCount := files.length
          typeCount := (files.flatMap SchemaFile.allTypes).length
          fileCount := session.store.files.length
          unresolved := summary.unresolved } := by rw [check, runs]
    have previews : preview files =
        .ok (session.store.files.map fun file => ⟨file.1.shown, file.2⟩) := by rw [preview, runs]
    have shown : (session.store.files.map fun file => GeneratedFile.mk file.1.shown file.2).map
        GeneratedFile.path = session.store.paths.map Path.shown := by
      rw [MemoryStore.paths, List.map_map, List.map_map]
      rfl
    refine ⟨.inr ⟨summary, _, _, _, generates, previews, checks, mirrors.tree_previewed,
      mirrors.copies.outside, ?_, ?_, unchanged, ?_, rfl⟩, fun config => ?_⟩
    · rw [shown]
      exact Path.nodup_map_shown mirrors.apart
    · rw [shown, written]
    · rw [List.length_map]
    · rw [Program.runCheck, checks, Program.runGenerate, generates]
      dsimp only
      rw [Summary.warning_not_mem_report_iff, CheckResult.isValid, ← List.isEmpty_iff]
      simp

end

/-- A disk with an empty directory for the output and a file beside it. -/
def workshop : Disk :=
  { workingDirectory := ["workshop"]
    nodes := [(["workshop", "out"], .directory),
      (["workshop", "notes"], .file (.text "Lay an egg."))] }

theorem workshop_out_empty (names : List String) (below : names ≠ []) :
    workshop.node? (["workshop", "out"] ++ names) = none := by
  obtain ⟨first, rest, rfl⟩ := List.exists_cons_of_ne_nil below
  simp [workshop, Disk.node?, List.isPrefixOf, Disk.lookup_cons_eq_ite]

/-- The survey is generated into the workshop as it is previewed, and the notes stay. -/
theorem survey_generated : ∃ summary after found result,
    generate workshop ⟨"out"⟩ surveyFiles = (.ok summary, after) ∧
    preview surveyFiles = .ok found ∧ check surveyFiles = .ok result ∧
    (∀ names, after.node? (["workshop", "out"] ++ names) =
      treeOf (found.map GeneratedFile.entry) names) ∧
    after.node? ["workshop", "notes"] = some (.file (.text "Lay an egg.")) ∧
    summary.written = found.map GeneratedFile.path ∧ result.fileCount = found.length ∧
    summary.unresolved = result.unresolved := by
  have slashless : ∀ root ∈ rootsOf surveyFiles, root.type.Slashless := fun root declared =>
    (survey_wellFormed.type_isPlain (Declaration.mem_flattenAll_of_mem declared)).slashless
  have located : workshop.locate ⟨"out"⟩ = .ok ["workshop", "out"] := by decide
  have isDirectory : workshop.node? ["workshop", "out"] = some .directory := by decide
  obtain ⟨first, ran⟩ := (exists_processFiles_iff survey_wellFormed).mpr Generable.survey
  obtain ⟨summary, finished, -⟩ := Session.finish_eq survey_wellFormed survey_clientNameFree
    survey_unmarkedTexts ran
  have previewed : ∀ reason, preview surveyFiles ≠ .error reason := by
    intro reason
    rw [preview, Session.run, ran]
    dsimp only
    rw [finished]
    intro impossible
    cases impossible
  rcases (generate_agrees_preview_check rfl located isDirectory workshop_out_empty slashless).1 with
    ⟨reason, after, -, failed, -⟩ | ⟨summary, after, found, result, generated, shown, checked, tree,
      outside, -, written, -, counted, unresolved⟩
  · exact absurd failed (previewed reason)
  · have notes : after.node? ["workshop", "notes"] = workshop.node? ["workshop", "notes"] :=
      outside _ (by decide)
    refine ⟨summary, after, found, result, generated, shown, checked, tree, ?_, written, counted,
      unresolved⟩
    rw [notes]
    decide

end Typescribe
