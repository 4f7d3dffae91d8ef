import Typescribe.Disk.Writing
import Typescribe.Proofs.Generation.Location
import Typescribe.Proofs.Path
import Typescribe.Proofs.Traversal

/-!
# Saving a file below a directory

On a disk that takes any name, a file can be saved below a directory unless something stands in the
way: a file where a directory is needed, or a directory where the file should be. Saving makes the
directories that lead to the file, puts the file, and changes nothing else.
-/

namespace Typescribe

namespace Disk

variable {disk other : Disk} {location current home : Location} {node : DiskNode}

theorem lookup_cons_eq_ite {key other : List String} {α : Type} (value : α)
    (rest : List (List String × α)) :
    ((key, value) :: rest).lookup other =
      if other = key then some value else rest.lookup other := by
  rw [List.lookup_cons]
  by_cases same : other = key
  · rw [if_pos same, beq_iff_eq.mpr same]
  · rw [if_neg same, beq_eq_false_iff_ne.mpr same]

theorem lookup_putNode (location other : Location) (node : DiskNode)
    (nodes : List (Location × DiskNode)) :
    (putNode location node nodes).lookup other =
      if other = location then some node else nodes.lookup other := by
  induction nodes with
  | nil =>
    rw [putNode]
    exact lookup_cons_eq_ite node []
  | cons entry rest ih =>
    obtain ⟨held, found⟩ := entry
    rw [putNode, lookup_cons_eq_ite]
    by_cases here : held = location
    · subst here
      rw [if_pos rfl, lookup_cons_eq_ite]
      split <;> rfl
    · rw [if_neg here, lookup_cons_eq_ite, ih]
      by_cases same : other = held
      · rw [if_pos same, if_neg fun equal => here (same.symm.trans equal), if_pos same]
      · rw [if_neg same, if_neg same]

/-- What is not a directory is not around the working directory. -/
theorem not_prefix_of_node? (apart : disk.node? location ≠ some .directory) :
    location.isPrefixOf disk.workingDirectory = false := by
  rw [← Bool.not_eq_true]
  intro around
  exact apart (by rw [node?, if_pos around])

/-- A node that is put is at its place, and all other places are as before. -/
theorem node?_put (apart : location.isPrefixOf disk.workingDirectory = false) (node : DiskNode)
    (other : Location) :
    (disk.put location node).node? other =
      if other = location then some node else disk.node? other := by
  rw [node?, node?, put]
  dsimp only
  rw [lookup_putNode]
  by_cases same : other = location
  · rw [same, apart]
    simp
  · simp [same]

/-! ## Following a path -/

theorem walk_append (disk : Disk) (current : Location) (first second : List (List Char)) :
    disk.walk current (first ++ second) = disk.walk current first >>= (disk.walk · second) := by
  induction first generalizing current with
  | nil => rfl
  | cons piece rest ih =>
    rw [List.cons_append, walk, walk]
    split
    · rfl
    · rfl
    · split
      · split
        · rfl
        · exact ih _
      · exact ih _
      · exact ih _

/-- A path that can be followed can be followed where there are more directories. -/
theorem walk_mono {pieces : List (List Char)} (rules : other.rules = disk.rules)
    (kept : ∀ place, disk.node? place = some .directory → other.node? place = some .directory)
    (walked : disk.walk current pieces = .ok location) :
    other.walk current pieces = .ok location := by
  induction pieces generalizing current with
  | nil => exact walked
  | cons piece rest ih =>
    rw [walk] at walked ⊢
    split at walked
    · cases walked
    · cases walked
    next isDirectory =>
      rw [kept current isDirectory, rules]
      dsimp only
      split at walked
      · split at walked
        · cases walked
        · exact ih walked
      · exact ih walked
      · exact ih walked

theorem locate_mono {path : Path}
    (kept : ∀ place, disk.node? place = some .directory → other.node? place = some .directory)
    (rules : other.rules = disk.rules) (working : other.workingDirectory = disk.workingDirectory)
    (located : disk.locate path = .ok location) : other.locate path = .ok location := by
  rw [locate] at located ⊢
  rw [rules, start, working]
  split at located
  · cases located
  · split at located
    · cases located
    next someText =>
      rw [if_neg someText]
      exact walk_mono rules kept located

/-- Whatever leads to a directory starts at one. -/
theorem node?_of_walk {pieces : List (List Char)}
    (walked : disk.walk current pieces = .ok location)
    (isDirectory : disk.node? location = some .directory) :
    disk.node? current = some .directory := by
  cases pieces with
  | nil =>
    obtain rfl := Except.ok.inj walked
    exact isDirectory
  | cons piece rest =>
    rw [walk] at walked
    split at walked
    · cases walked
    · cases walked
    next found => exact found

/-- Names are followed one after the other. -/
theorem walk_name (lenient : disk.rules = .lenient) {name : String} (isStep : IsStep name)
    (isDirectory : disk.node? current = some .directory) (rest : List (List Char)) :
    disk.walk current (name.toList :: rest) = disk.walk (current ++ [name]) rest := by
  rw [walk, isDirectory, Path.stepOf?_toList isStep, lenient]
  rfl

/-- Names lead below a directory as long as they lead through directories. -/
theorem walk_names (lenient : disk.rules = .lenient) {names : List String}
    (areSteps : ∀ name ∈ names, IsStep name)
    (directories : ∀ through, through <+: names → through ≠ names →
      disk.node? (current ++ through) = some .directory) :
    disk.walk current (names.map String.toList) = .ok (current ++ names) := by
  induction names generalizing current with
  | nil => rw [List.append_nil, List.map_nil, walk]
  | cons name rest ih =>
    obtain ⟨isStep, areSteps⟩ := List.forall_mem_cons.mp areSteps
    have here := directories [] List.nil_prefix (List.cons_ne_nil _ _).symm
    rw [List.append_nil] at here
    rw [List.map_cons, walk_name lenient isStep here, List.append_cons current name rest]
    refine ih areSteps fun through leading different => ?_
    rw [List.append_assoc, List.singleton_append]
    exact directories (name :: through) (List.cons_prefix_cons.mpr ⟨rfl, leading⟩)
      (fun same => different (List.cons.inj same).2)

/-- Names lead nowhere else. -/
theorem eq_of_walk_names {names : List String} (areSteps : ∀ name ∈ names, IsStep name)
    (walked : disk.walk current (names.map String.toList) = .ok location) :
    location = current ++ names := by
  induction names generalizing current with
  | nil =>
    rw [List.append_nil]
    exact (Except.ok.inj walked).symm
  | cons name rest ih =>
    obtain ⟨isStep, areSteps⟩ := List.forall_mem_cons.mp areSteps
    rw [List.map_cons, walk, Path.stepOf?_toList isStep] at walked
    rw [List.append_cons]
    split at walked
    · cases walked
    · cases walked
    · dsimp only at walked
      split at walked
      · cases walked
      · exact ih areSteps walked

/-! ## Making directories -/

/-- Pieces that stand for no step make nothing. -/
theorem makeFrom_filter (disk : Disk) (current : Location) (pieces : List (List Char)) :
    disk.makeFrom current (pieces.filter fun piece => (Path.stepOf? piece).isSome) =
      disk.makeFrom current pieces := by
  induction pieces generalizing disk current with
  | nil => rfl
  | cons piece rest ih =>
    rw [List.filter_cons]
    cases taken : Path.stepOf? piece with
    | none =>
      rw [Option.isSome_none, if_neg Bool.false_ne_true, ih]
      conv_rhs => rw [makeFrom, taken]
    | some step =>
      rw [Option.isSome_some, if_pos rfl, makeFrom, makeFrom]
      simp only [ih]

/-- What is made depends on the steps alone. -/
theorem makeFrom_congr {first second : List (List Char)}
    (same : first.filterMap Path.stepOf? = second.filterMap Path.stepOf?) (disk : Disk)
    (current : Location) : disk.makeFrom current first = disk.makeFrom current second := by
  rw [← makeFrom_filter disk current first, ← makeFrom_filter disk current second,
    ← Path.map_text_filterMap, ← Path.map_text_filterMap, same]

/-- Nothing is made where directories are. -/
theorem makeFrom_of_walk {pieces : List (List Char)}
    (walked : disk.walk current pieces = .ok location)
    (isDirectory : disk.node? location = some .directory) (more : List (List Char)) :
    disk.makeFrom current (pieces ++ more) = disk.makeFrom location more := by
  induction pieces generalizing current with
  | nil =>
    obtain rfl := Except.ok.inj walked
    rfl
  | cons piece rest ih =>
    rw [walk] at walked
    split at walked
    · cases walked
    · cases walked
    · split at walked
      next name taken =>
        split at walked
        · cases walked
        next allowed =>
          rw [List.cons_append, makeFrom, taken]
          dsimp only
          rw [allowed, node?_of_walk walked isDirectory]
          exact ih walked
      next taken =>
        rw [List.cons_append, makeFrom, taken]
        exact ih walked
      next noName notUp =>
        rw [List.cons_append, makeFrom]
        split
        next impossible => exact absurd impossible (noName _)
        next impossible => exact absurd impossible notUp
        next => exact ih walked

/-- One name makes a directory unless it is there. -/
theorem exists_makeFrom_name (lenient : disk.rules = .lenient) {name : String}
    (isStep : IsStep name)
    (clear : disk.node? (current ++ [name]) = none ∨
      disk.node? (current ++ [name]) = some .directory) :
    ∃ made : Disk, made.rules = disk.rules ∧ made.workingDirectory = disk.workingDirectory ∧
      made.node? (current ++ [name]) = some .directory ∧
      (∀ place, place ≠ current ++ [name] → made.node? place = disk.node? place) ∧
      ∀ rest, disk.makeFrom current (name.toList :: rest) =
        made.makeFrom (current ++ [name]) rest := by
  have allowed : disk.rules.refuseName name = none := by
    rw [lenient]
    rfl
  rcases clear with absent | present
  · have put := node?_put (not_prefix_of_node? (absent ▸ Option.some_ne_none _ |>.symm)) .directory
    refine ⟨disk.put (current ++ [name]) .directory, rfl, rfl, ?_, fun place different => ?_,
      fun rest => ?_⟩
    · rw [put, if_pos rfl]
    · rw [put, if_neg different]
    · rw [makeFrom, Path.stepOf?_toList isStep]
      dsimp only
      rw [allowed, absent]
  · refine ⟨disk, rfl, rfl, present, fun _ _ => rfl, fun rest => ?_⟩
    rw [makeFrom, Path.stepOf?_toList isStep]
    dsimp only
    rw [allowed, present]

/-- Directories are made along names unless a file stands in the way, and nothing else changes. -/
theorem exists_makeFrom_names (lenient : disk.rules = .lenient) {names : List String}
    (areSteps : ∀ name ∈ names, IsStep name)
    (clear : ∀ through, through <+: names → through ≠ [] →
      disk.node? (current ++ through) = none ∨
        disk.node? (current ++ through) = some .directory) :
    ∃ after, disk.makeFrom current (names.map String.toList) = (.ok (), after) ∧
      after.rules = disk.rules ∧ after.workingDirectory = disk.workingDirectory ∧
      (∀ through, through <+: names → through ≠ [] →
        after.node? (current ++ through) = some .directory) ∧
      ∀ place, (∀ through, through <+: names → through ≠ [] → place ≠ current ++ through) →
        after.node? place = disk.node? place := by
  induction names generalizing disk current with
  | nil =>
    refine ⟨disk, rfl, rfl, rfl, fun through leading nonempty => ?_, fun _ _ => rfl⟩
    exact absurd (List.prefix_nil.mp leading) nonempty
  | cons name rest ih =>
    obtain ⟨isStep, areSteps⟩ := List.forall_mem_cons.mp areSteps
    have first : [name] <+: name :: rest := List.cons_prefix_cons.mpr ⟨rfl, List.nil_prefix⟩
    obtain ⟨made, rules, working, here, others, makes⟩ :=
      exists_makeFrom_name lenient isStep (clear [name] first (List.cons_ne_nil _ _))
    have below : ∀ through, current ++ [name] ++ through = current ++ name :: through := fun _ => by
      rw [List.append_assoc, List.singleton_append]
    have apart : ∀ through, through ≠ [] → current ++ [name] ++ through ≠ current ++ [name] :=
      fun through nonempty same => nonempty (List.append_right_eq_self.mp same)
    obtain ⟨after, ran, rulesAfter, workingAfter, directories, unchanged⟩ :=
      ih (rules.trans lenient) areSteps fun through leading nonempty => by
        rw [others _ (apart through nonempty), below]
        exact clear _ (List.cons_prefix_cons.mpr ⟨rfl, leading⟩) (List.cons_ne_nil _ _)
    refine ⟨after, (makes _).trans ran, rulesAfter.trans rules, workingAfter.trans working,
      fun through leading nonempty => ?_, fun place elsewhere => ?_⟩
    · obtain ⟨head, tail, rfl⟩ := List.exists_cons_of_ne_nil nonempty
      obtain ⟨rfl, inner⟩ := List.cons_prefix_cons.mp leading
      by_cases last : tail = []
      · subst last
        rw [unchanged _ fun through _ nonempty => (apart through nonempty).symm, here]
      · rw [← below]
        exact directories tail inner last
    · rw [unchanged place fun through leading nonempty => ?_, others place (elsewhere _ first ?_)]
      · exact List.cons_ne_nil _ _
      · rw [below]
        exact elsewhere _ (List.cons_prefix_cons.mpr ⟨rfl, leading⟩) (List.cons_ne_nil _ _)

end Disk

/-! ## Files below a directory -/

namespace Path

variable {dir path : Path}

/-- A relative path is joined to a directory behind a slash. -/
theorem exists_front (nonempty : dir.text ≠ "") (relative : path.isAbsolute = false) :
    ∃ front, (dir.join path).text.toList = front ++ '/' :: path.text.toList ∧
      (dir.text.toList = front ∨ dir.text.toList = front ++ ['/']) := by
  have someText : dir.text.isEmpty = false := by
    rw [← Bool.not_eq_true, String.isEmpty_iff]
    exact nonempty
  rw [join, relative, someText, Bool.or_self, if_neg Bool.false_ne_true]
  split
  next slash =>
    obtain ⟨front, ends⟩ := List.getLast?_eq_some_iff.mp (beq_iff_eq.mp slash)
    refine ⟨front, ?_, .inr ends⟩
    rw [String.toList_append, ends, List.append_assoc, List.singleton_append]
  next =>
    refine ⟨dir.text.toList, ?_, .inl rfl⟩
    rw [String.toList_append, String.toList_append, List.append_assoc]
    rfl

/-- A relative path joined to a directory starts where the directory does. -/
theorem isAbsolute_join (nonempty : dir.text ≠ "") (relative : path.isAbsolute = false) :
    (dir.join path).isAbsolute = dir.isAbsolute := by
  obtain ⟨front, joined, text⟩ := exists_front nonempty relative
  have someText : dir.text.toList ≠ [] := fun empty => nonempty (String.toList_inj.mp empty)
  rw [isAbsolute, isAbsolute, joined]
  rcases text with whole | slashed
  · rw [← whole, List.head?_append_of_ne_nil _ someText]
  · rw [slashed]
    cases front with
    | nil => rfl
    | cons c front => rfl

theorem isAbsolute_through {names : List String} (areSteps : ∀ name ∈ names, IsStep name) :
    (through names).isAbsolute = false := by
  rw [isAbsolute, beq_eq_false_iff_ne, through]
  cases names with
  | nil => decide
  | cons first rest =>
    have isStep := areSteps first List.mem_cons_self
    obtain ⟨c, chars, spelled⟩ := List.exists_cons_of_ne_nil
      (fun empty => isStep.nonempty (String.toList_inj.mp empty) : first.toList ≠ [])
    have leading : (String.intercalate "/" (first :: rest)).toList.head? = some c := by
      rw [String.toList_intercalate, List.map_cons, spelled]
      cases rest with
      | nil => rfl
      | cons next rest => rfl
    rw [leading]
    rintro ⟨⟩
    exact isStep.noSlash (spelled ▸ List.mem_cons_self)

end Path

namespace Disk

variable {disk : Disk} {home : Location} {dir : Path} {names : List String}

theorem text_ne_empty_of_locate (located : disk.locate dir = .ok home) : dir.text ≠ "" := by
  intro empty
  rw [locate, empty] at located
  split at located
  · cases located
  · cases located

/-- A directory that is found is walked to, also without a slash at its end. -/
theorem walk_front (located : disk.locate dir = .ok home) {front : List Char}
    (text : dir.text.toList = front ∨ dir.text.toList = front ++ ['/']) :
    disk.walk (disk.start dir) (front.splitOn '/') = .ok home := by
  have walked : disk.walk (disk.start dir) dir.pieces = .ok home := by
    rw [locate] at located
    split at located
    · cases located
    · split at located
      · cases located
      · exact located
  rcases text with whole | slashed
  · rwa [Path.pieces, whole] at walked
  · rw [Path.pieces, slashed, List.splitOn_append_cons_self, List.splitOn_nil, walk_append,
      bind_eq_ok] at walked
    obtain ⟨reached, there, stays⟩ := walked
    rw [there]
    -- The empty piece behind the slash stays where it is.
    rw [walk] at stays
    split at stays
    · cases stays
    · cases stays
    · exact stays

/-- A path below a directory is followed from the directory. -/
theorem locate_join (lenient : disk.rules = .lenient) (located : disk.locate dir = .ok home)
    (areSteps : ∀ name ∈ names, IsStep name) (nonempty : names ≠ []) :
    disk.locate (dir.join (Path.through names)) = disk.walk home (names.map String.toList) := by
  have someDir := text_ne_empty_of_locate located
  have relative := Path.isAbsolute_through areSteps
  obtain ⟨front, joined, text⟩ := Path.exists_front someDir relative
  have someText : (dir.join (Path.through names)).text.isEmpty = false := by
    rw [← Bool.not_eq_true, String.isEmpty_iff, ← String.toList_inj, joined]
    simp
  have pieces : (dir.join (Path.through names)).pieces =
      front.splitOn '/' ++ names.map String.toList := by
    rw [Path.pieces, joined, List.splitOn_append_cons_self, ← Path.pieces_through areSteps nonempty]
    rfl
  rw [locate, lenient, someText, start, Path.isAbsolute_join someDir relative, pieces,
    walk_append]
  change disk.walk (disk.start dir) (front.splitOn '/') >>= _ = _
  rw [walk_front located text]
  rfl

/-- The directories around a file below a directory are made from there. -/
theorem exists_parent_join (lenient : disk.rules = .lenient)
    (located : disk.locate dir = .ok home) (isDirectory : disk.node? home = some .directory)
    {dirs : List String} {file : String} (areSteps : ∀ name ∈ dirs ++ [file], IsStep name) :
    ∃ parent, (dir.join (Path.through (dirs ++ [file]))).parent? = some parent ∧
      disk.makeDirs parent = disk.makeFrom home (dirs.map String.toList) := by
  have someDir := text_ne_empty_of_locate located
  have relative := Path.isAbsolute_through areSteps
  obtain ⟨dirsAreSteps, isStep⟩ := List.forall_mem_append.mp areSteps
  rw [List.forall_mem_singleton] at isStep
  obtain ⟨front, joined, text⟩ := Path.exists_front someDir relative
  have walked := walk_front located text
  -- What stands in front of the file takes the steps of the directory and then those below it.
  obtain ⟨outer, spelled, steps⟩ : ∃ outer,
      (dir.join (Path.through (dirs ++ [file]))).text.toList = outer ++ '/' :: file.toList ∧
      outer.splitOn '/' = front.splitOn '/' ++ dirs.map String.toList := by
    by_cases empty : dirs = []
    · subst empty
      refine ⟨front, ?_, by simp⟩
      rw [joined, Path.through, List.nil_append, String.intercalate_singleton]
    · refine ⟨front ++ '/' :: (Path.through dirs).text.toList, ?_, ?_⟩
      · rw [joined, Path.through, Path.through,
          String.intercalate_append_of_ne_nil empty (List.cons_ne_nil _ _),
          String.intercalate_singleton, String.toList_append, String.toList_append]
        simp
      · rw [List.splitOn_append_cons_self, ← Path.pieces_through dirsAreSteps empty]
        rfl
  have taken := Path.stepOf?_toList isStep
  obtain ⟨parent, isParent, absolute, pieces⟩ :=
    Path.exists_parent spelled isStep.noSlash (by rw [taken, Option.isSome_some])
  refine ⟨parent, isParent, ?_⟩
  rw [steps] at pieces
  rw [makeDirs, lenient, start, absolute, Path.isAbsolute_join someDir relative,
    makeFrom_congr pieces]
  exact makeFrom_of_walk walked isDirectory _

/-- The directories around a file below a directory are made unless a file stands in the way. The
path of the file then leads there, and nothing else changes. -/
theorem exists_makeDirs_join (lenient : disk.rules = .lenient)
    (located : disk.locate dir = .ok home) (isDirectory : disk.node? home = some .directory)
    {dirs : List String} {file : String} (areSteps : ∀ name ∈ dirs ++ [file], IsStep name)
    (clear : ∀ through, through <+: dirs → through ≠ [] →
      disk.node? (home ++ through) = none ∨ disk.node? (home ++ through) = some .directory) :
    ∃ parent made, (dir.join (Path.through (dirs ++ [file]))).parent? = some parent ∧
      disk.makeDirs parent = (.ok (), made) ∧ made.rules = disk.rules ∧
      made.locate dir = .ok home ∧
      made.locate (dir.join (Path.through (dirs ++ [file]))) = .ok (home ++ (dirs ++ [file])) ∧
      (∀ through, through <+: dirs → through ≠ [] →
        made.node? (home ++ through) = some .directory) ∧
      ∀ place, (∀ through, through <+: dirs → through ≠ [] → place ≠ home ++ through) →
        made.node? place = disk.node? place := by
  obtain ⟨dirsAreSteps, -⟩ := List.forall_mem_append.mp areSteps
  obtain ⟨parent, isParent, makes⟩ := exists_parent_join lenient located isDirectory areSteps
  obtain ⟨made, ran, rules, working, directories, unchanged⟩ :=
    exists_makeFrom_names lenient dirsAreSteps clear
  have kept : ∀ place, disk.node? place = some .directory →
      made.node? place = some .directory := by
    intro place found
    by_cases below : ∃ through, through <+: dirs ∧ through ≠ [] ∧ place = home ++ through
    · obtain ⟨through, leading, nonempty, rfl⟩ := below
      exact directories through leading nonempty
    · rw [unchanged place fun through leading nonempty same =>
        below ⟨through, leading, nonempty, same⟩]
      exact found
  have locatedMade := locate_mono kept rules working located
  refine ⟨parent, made, isParent, makes.trans ran, rules, locatedMade, ?_, directories, unchanged⟩
  rw [locate_join (rules.trans lenient) locatedMade areSteps (by simp)]
  refine walk_names (rules.trans lenient) areSteps fun through leading different => ?_
  by_cases empty : through = []
  · rw [empty, List.append_nil]
    exact kept home isDirectory
  · exact directories through ((List.prefix_concat_iff.mp leading).resolve_left different) empty

/-- A file is written where its path leads unless a directory is there. No path to a directory is
lost, and nothing else changes. -/
theorem exists_writeFile {path : Path} {location : Location}
    (lands : disk.locate path = .ok location)
    (noDirectory : disk.node? location ≠ some .directory) (content : FileContent) :
    ∃ after, disk.writeFile path content = (.ok (), after) ∧ after.rules = disk.rules ∧
      (∀ other place, disk.locate other = .ok place → after.locate other = .ok place) ∧
      ∀ place, after.node? place =
        if place = location then some (.file content) else disk.node? place := by
  have put := node?_put (not_prefix_of_node? noDirectory) (.file content)
  refine ⟨disk.put location (.file content), ?_, rfl, fun other place located => ?_, put⟩
  · rw [writeFile, lands]
    dsimp only
    split
    next impossible => exact absurd impossible noDirectory
    next => rfl
  · have kept : ∀ directory, disk.node? directory = some .directory →
        (disk.put location (.file content)).node? directory = some .directory := by
      intro directory found
      have different : directory ≠ location := by
        rintro rfl
        exact noDirectory found
      rw [put, if_neg different]
      exact found
    exact locate_mono kept rfl rfl located

/-- A file is saved below a directory unless something stands in the way. The directories around it
are there afterwards, and nothing else changes. -/
theorem exists_save (lenient : disk.rules = .lenient) (located : disk.locate dir = .ok home)
    (isDirectory : disk.node? home = some .directory) {dirs : List String} {file : String}
    (areSteps : ∀ name ∈ dirs ++ [file], IsStep name)
    (clear : ∀ through, through <+: dirs → through ≠ [] →
      disk.node? (home ++ through) = none ∨ disk.node? (home ++ through) = some .directory)
    (noDirectory : disk.node? (home ++ (dirs ++ [file])) ≠ some .directory)
    (content : FileContent) :
    ∃ after, disk.save (dir.join (Path.through (dirs ++ [file]))) content = (.ok (), after) ∧
      after.rules = disk.rules ∧ after.locate dir = .ok home ∧
      after.node? (home ++ (dirs ++ [file])) = some (.file content) ∧
      (∀ through, through <+: dirs → through ≠ [] →
        after.node? (home ++ through) = some .directory) ∧
      ∀ place, (∀ through, through <+: dirs → through ≠ [] → place ≠ home ++ through) →
        place ≠ home ++ (dirs ++ [file]) → after.node? place = disk.node? place := by
  obtain ⟨parent, made, isParent, ran, rules, locatedMade, lands, directories, unchanged⟩ :=
    exists_makeDirs_join lenient located isDirectory areSteps clear
  have shorter : ∀ through, through <+: dirs → home ++ (dirs ++ [file]) ≠ home ++ through := by
    intro through leading same
    have lengths := congrArg List.length (List.append_cancel_left same)
    have bound := leading.length_le
    rw [List.length_append, List.length_singleton] at lengths
    omega
  have noDirectoryMade : made.node? (home ++ (dirs ++ [file])) ≠ some .directory := by
    rw [unchanged _ fun through leading _ => shorter through leading]
    exact noDirectory
  obtain ⟨after, written, rulesAfter, keeps, nodes⟩ :=
    exists_writeFile lands noDirectoryMade content
  refine ⟨after, ?_, rulesAfter.trans rules, keeps dir home locatedMade, ?_,
    fun through leading nonempty => ?_, fun place elsewhere different => ?_⟩
  · rw [save, isParent]
    dsimp only
    rw [ran]
    exact written
  · rw [nodes, if_pos rfl]
  · rw [nodes, if_neg (shorter through leading).symm]
    exact directories through leading nonempty
  · rw [nodes, if_neg different]
    exact unchanged place elsewhere

end Disk

end Typescribe
