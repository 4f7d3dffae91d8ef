import Typescribe.Proofs.Disk

/-!
# What saving a file changes

The steps of a path lead from the working directory to a place, whatever is on the disk. Saving a
file puts it at the place of its path, makes directories at places on the way there that held
nothing, and leaves every other place as it was, also if it fails.
-/

namespace Typescribe

/-! ## The place of a path -/

/-- The place that a step leads to. -/
def Location.take (location : Location) : PathStep → Location
  | .root => []
  | .here => location
  | .up => location.dropLast
  | .name text => location ++ [text]

/-- The place that steps lead to. -/
def Location.after (location : Location) (steps : List PathStep) : Location :=
  steps.foldl Location.take location

/-- Whether steps lead through a place, or to it. -/
def Location.Passes (location : Location) (steps : List PathStep) (place : Location) : Prop :=
  ∃ front, front <+: steps ∧ place = location.after front

namespace Location

variable {location place : Location} {first second : List PathStep}

theorem after_append (location : Location) (first second : List PathStep) :
    location.after (first ++ second) = (location.after first).after second :=
  List.foldl_append

theorem after_names (location : Location) (names : List String) :
    location.after (names.map .name) = location ++ names := by
  induction names generalizing location with
  | nil => exact (List.append_nil location).symm
  | cons name rest ih =>
    rw [List.append_cons]
    exact ih (location ++ [name])

theorem Passes.here (location : Location) (steps : List PathStep) :
    location.Passes steps location :=
  ⟨[], List.nil_prefix, rfl⟩

theorem Passes.mono (passes : location.Passes first place) (leading : first <+: second) :
    location.Passes second place := by
  obtain ⟨front, inFirst, there⟩ := passes
  exact ⟨front, inFirst.trans leading, there⟩

theorem Passes.cons {step : PathStep} (passes : (location.take step).Passes first place) :
    location.Passes (step :: first) place := by
  obtain ⟨front, inFirst, there⟩ := passes
  exact ⟨step :: front, List.cons_prefix_cons.mpr ⟨rfl, inFirst⟩, there⟩

theorem Passes.append_left (passes : (location.after first).Passes second place) :
    location.Passes (first ++ second) place := by
  obtain ⟨front, inSecond, there⟩ := passes
  exact ⟨first ++ front, (List.prefix_append_right_inj first).mpr inSecond,
    there.trans (after_append location first front).symm⟩

/-- Steps that go on lead through the places before, or through places behind them. -/
theorem Passes.of_append (passes : location.Passes (first ++ second) place) :
    location.Passes first place ∨ (location.after first).Passes second place := by
  obtain ⟨front, inBoth, there⟩ := passes
  rcases List.prefix_or_prefix_of_prefix inBoth (List.prefix_append first second) with
    inFirst | ⟨more, rfl⟩
  · exact .inl ⟨front, inFirst, there⟩
  · exact .inr ⟨more, (List.prefix_append_right_inj first).mp inBoth,
      there.trans (after_append location first more)⟩

/-- Names lead below the place where they start. -/
theorem Passes.of_names {names : List String} (passes : location.Passes (names.map .name) place) :
    location <+: place := by
  obtain ⟨front, inNames, rfl⟩ := passes
  obtain ⟨some, -, rfl⟩ := List.prefix_map_iff.mp inNames
  rw [after_names]
  exact List.prefix_append location some

end Location

namespace Path

variable {path dir : Path}

theorem stepOf?_eq_none {piece : List Char} (noName : ∀ name, stepOf? piece ≠ some (.name name))
    (notUp : stepOf? piece ≠ some .up) : stepOf? piece = none := by
  rw [stepOf?] at *
  split
  · rfl
  next isStep =>
    rw [if_neg isStep] at noName notUp
    split at notUp
    · exact absurd rfl notUp
    next notDots => exact absurd (if_neg notDots) (noName _)

/-- What the steps of a path start with in front of those of its pieces. -/
def lead (path : Path) : List PathStep :=
  if path.isAbsolute then [.root]
  else if path.pieces.head? = some ['.'] then [.here]
  else []

theorem isAbsolute_iff {first : List Char} {rest : List (List Char)}
    (split : path.pieces = first :: rest) : path.isAbsolute = true ↔ first = [] ∧ rest ≠ [] := by
  rw [isAbsolute, beq_iff_eq]
  rw [Path.pieces] at split
  cases chars : path.text.toList with
  | nil =>
    rw [chars, List.splitOn_nil] at split
    obtain ⟨rfl, rfl⟩ := List.cons.inj split
    simp
  | cons c later =>
    obtain ⟨head, tail, parts⟩ := List.exists_cons_of_ne_nil (List.splitOn_ne_nil '/' later)
    rw [chars, List.splitOn_cons_eq_if_modifyHead, parts] at split
    by_cases slash : c = '/'
    · simp [slash] at split ⊢
      simp [← split.1, ← split.2]
    · simp [slash] at split ⊢
      simp [← split.1]

theorem steps_eq (path : Path) : path.steps = path.lead ++ path.pieces.filterMap stepOf? := by
  obtain ⟨first, rest, split⟩ := List.exists_cons_of_ne_nil
    (List.splitOn_ne_nil '/' path.text.toList)
  have split : path.pieces = first :: rest := split
  have absolute := isAbsolute_iff split
  rw [lead, split]
  by_cases empty : first = []
  · subst empty
    by_cases alone : rest = []
    · simp [absolute, alone, steps, split, stepOf?]
    · simp [absolute, alone, steps_of_slash split alone, stepOf?]
  · by_cases dot : first = ['.']
    · subst dot
      simp [absolute, steps_of_dot split, stepOf?]
    · have isStep : (stepOf? first).isSome = true := by
        rw [Option.isSome_iff_ne_none, ne_eq, stepOf?_eq_none_iff, not_or]
        exact ⟨empty, dot⟩
      simp [absolute, empty, dot, steps_of_step split isStep, split]

/-- The pieces of a path lead from where the path starts to the place of the path. -/
theorem after_lead (disk : Disk) (path : Path) :
    disk.workingDirectory.after path.lead = disk.start path := by
  rw [lead, Disk.start]
  split
  · rfl
  · split
    · rfl
    · rfl

/-- A relative path takes its steps behind those of the path that it is joined to. -/
theorem exists_pieces_join (dir : Path) (relative : path.isAbsolute = false) :
    ∃ front, front <+: dir.pieces ∧ (dir.join path).pieces = front ++ path.pieces ∧
      (dir.join path).isAbsolute = dir.isAbsolute ∧
      (path.lead = [] → (dir.join path).steps = dir.steps ++ path.steps) := by
  by_cases empty : dir.text = ""
  · have joined : dir.join path = path := by simp [join, empty]
    have absent : dir.isAbsolute = false := by simp [isAbsolute, empty]
    have steps : dir.steps = [] := by simp [Path.steps, Path.pieces, empty]
    exact ⟨[], List.nil_prefix, by rw [joined]; rfl, by rw [joined, absent, relative],
      fun _ => by rw [joined, steps]; rfl⟩
  · obtain ⟨front, joined, spelled⟩ := exists_front empty relative
    have pieces : (dir.join path).pieces = front.splitOn '/' ++ path.pieces := by
      rw [Path.pieces, joined, List.splitOn_append_cons_self, Path.pieces]
    obtain ⟨more, split, stays⟩ : ∃ more, dir.pieces = front.splitOn '/' ++ more ∧
        more.filterMap stepOf? = [] := by
      rcases spelled with whole | slashed
      · exact ⟨[], by rw [Path.pieces, whole, List.append_nil], rfl⟩
      · refine ⟨[[]], ?_, rfl⟩
        rw [Path.pieces, slashed, List.splitOn_append_cons_self, List.splitOn_nil]
    have absolute := isAbsolute_join empty relative
    refine ⟨front.splitOn '/', ⟨more, split.symm⟩, pieces, absolute, fun plain => ?_⟩
    have sameLead : (dir.join path).lead = dir.lead := by
      obtain ⟨first, rest, parts⟩ := List.exists_cons_of_ne_nil (List.splitOn_ne_nil '/' front)
      rw [lead, lead, absolute, pieces, split, parts]
      rfl
    rw [steps_eq, steps_eq dir, steps_eq path, sameLead, plain, pieces, split,
      List.filterMap_append, List.filterMap_append, stays]
    simp

/-- Whether the last piece of a path is a step. -/
def EndsInStep (path : Path) : Prop :=
  ∃ init file, path.pieces = init ++ [file] ∧ (stepOf? file).isSome = true

theorem EndsInStep.join (dir : Path) (ends : path.EndsInStep)
    (relative : path.isAbsolute = false) : (dir.join path).EndsInStep := by
  obtain ⟨init, file, split, isStep⟩ := ends
  obtain ⟨front, -, pieces, -, -⟩ := exists_pieces_join dir relative
  exact ⟨front ++ init, file, by rw [pieces, split, List.append_assoc], isStep⟩

/-- The parent of a path is on the way to it. -/
theorem EndsInStep.exists_parent (ends : path.EndsInStep) :
    ∃ parent, path.parent? = some parent ∧ parent.isAbsolute = path.isAbsolute ∧
      parent.pieces.filterMap stepOf? <+: path.pieces.filterMap stepOf? := by
  obtain ⟨init, file, split, isStep⟩ := ends
  have noSlash : ∀ piece ∈ init ++ [file], '/' ∉ piece := split ▸ path.pieces_noSlash
  have fileNoSlash := noSlash file (by simp)
  rw [split, List.filterMap_append]
  by_cases alone : init = []
  · subst alone
    have text : path.text.toList = file := by
      have whole : ['/'].intercalate path.pieces = path.text.toList := List.intercalate_splitOn '/'
      rw [← whole, split]
      simp
    have isFile : file ≠ [] ∧ file ≠ ['.'] := by
      rwa [Option.isSome_iff_ne_none, ne_eq, stepOf?_eq_none_iff, not_or] at isStep
    have anchored : path.anchor = [] := by
      rw [anchor, text]
      split
      · exact absurd List.mem_cons_self fileNoSlash
      · exact absurd rfl isFile.2
      · exact absurd (by simp) fileNoSlash
      · rfl
    refine ⟨⟨""⟩, ?_, ?_, List.nil_prefix⟩
    · have single : (path.text.toList.drop path.anchor.length).splitOn '/' = [] ++ [file] := by
        rw [anchored, text]
        exact List.splitOn_eq_singleton fileNoSlash
      rw [parent?_eq single isStep, anchored]
      rfl
    · have relative : path.isAbsolute = false := by simp [isAbsolute_iff split, ← Bool.not_eq_true]
      rw [relative]
      rfl
  · have inner : (['/'].intercalate init).splitOn '/' = init :=
      List.splitOn_intercalate '/' (fun piece member => noSlash piece (by simp [member])) alone
    have same : path.text.toList.splitOn '/' =
        (['/'].intercalate init ++ '/' :: file).splitOn '/' := by
      rw [List.splitOn_append_cons_self, inner, List.splitOn_eq_singleton fileNoSlash, ← split]
      rfl
    have outer := congrArg ['/'].intercalate same
    rw [List.intercalate_splitOn, List.intercalate_splitOn] at outer
    obtain ⟨parent, isParent, absolute, taken⟩ := Path.exists_parent outer fileNoSlash isStep
    refine ⟨parent, isParent, absolute, ?_⟩
    rw [taken, inner]
    exact List.prefix_append _ _

end Path

/-! ## Changes of a disk -/

namespace Disk

/-- A disk that differs from another only where it may: in any way at some places, and at others
by new directories where nothing was. -/
structure ChangedAt (altered passed : Location → Prop) (before after : Disk) : Prop where
  rules : after.rules = before.rules
  workingDirectory : after.workingDirectory = before.workingDirectory
  node? : ∀ place, after.node? place = before.node? place ∨ altered place ∨
    passed place ∧ before.node? place = none ∧ after.node? place = some .directory

namespace ChangedAt

variable {altered passed : Location → Prop} {before between after : Disk}

theorem refl (altered passed : Location → Prop) (disk : Disk) :
    ChangedAt altered passed disk disk :=
  ⟨rfl, rfl, fun _ => .inl rfl⟩

theorem trans (first : ChangedAt altered passed before between)
    (second : ChangedAt altered passed between after) : ChangedAt altered passed before after where
  rules := second.rules.trans first.rules
  workingDirectory := second.workingDirectory.trans first.workingDirectory
  node? place := by
    rcases first.node? place with same | isAltered | ⟨isPassed, absent, made⟩
    · rw [← same]
      exact second.node? place
    · exact .inr (.inl isAltered)
    · rcases second.node? place with same | isAltered | ⟨-, absentThen, -⟩
      · exact .inr (.inr ⟨isPassed, absent, same.trans made⟩)
      · exact .inr (.inl isAltered)
      · rw [made] at absentThen
        cases absentThen

theorem mono {mayAlter mayPass : Location → Prop} (changed : ChangedAt altered passed before after)
    (alters : ∀ place, altered place → mayAlter place)
    (passes : ∀ place, passed place → mayPass place ∨ mayAlter place) :
    ChangedAt mayAlter mayPass before after where
  rules := changed.rules
  workingDirectory := changed.workingDirectory
  node? place := by
    rcases changed.node? place with same | isAltered | ⟨isPassed, made⟩
    · exact .inl same
    · exact .inr (.inl (alters place isAltered))
    · rcases passes place isPassed with mayPass | mayAlter
      · exact .inr (.inr ⟨mayPass, made⟩)
      · exact .inr (.inl mayAlter)

end ChangedAt

variable {disk : Disk} {current location : Location} {path : Path}

/-- A path that can be followed leads to its place. -/
theorem eq_after_of_walk {pieces : List (List Char)}
    (walked : disk.walk current pieces = .ok location) :
    location = current.after (pieces.filterMap Path.stepOf?) := by
  induction pieces generalizing current with
  | nil => exact (Except.ok.inj walked).symm
  | cons piece rest ih =>
    rw [walk] at walked
    split at walked
    · cases walked
    · cases walked
    · split at walked
      next name taken =>
        split at walked
        · cases walked
        · rw [List.filterMap_cons_some taken]
          exact ih walked
      next taken =>
        rw [List.filterMap_cons_some taken]
        exact ih walked
      next noName notUp =>
        rw [List.filterMap_cons_none (Path.stepOf?_eq_none noName notUp)]
        exact ih walked

theorem eq_after_of_locate (located : disk.locate path = .ok location) :
    location = disk.workingDirectory.after path.steps := by
  rw [Path.steps_eq, Location.after_append, Path.after_lead]
  rw [locate] at located
  split at located
  · cases located
  · split at located
    · cases located
    · exact eq_after_of_walk located

/-- Directories are made on the way, where nothing was. -/
theorem changedAt_makeFrom (disk : Disk) (current : Location) (pieces : List (List Char)) :
    ChangedAt (fun _ => False) (current.Passes (pieces.filterMap Path.stepOf?)) disk
      (disk.makeFrom current pieces).2 := by
  induction pieces generalizing disk current with
  | nil => exact .refl _ _ disk
  | cons piece rest ih =>
    rw [makeFrom]
    split
    next name taken =>
      rw [List.filterMap_cons_some taken]
      have onwards : ∀ disk : Disk, ChangedAt (fun _ => False)
          (current.Passes (.name name :: rest.filterMap Path.stepOf?)) disk
          (disk.makeFrom (current ++ [name]) rest).2 := fun disk =>
        (ih disk (current ++ [name])).mono (fun _ => id) fun _ passes => .inl (.cons passes)
      split
      · exact .refl _ _ disk
      · dsimp only
        split
        · exact onwards disk
        · exact .refl _ _ disk
        next absent =>
          have apart := not_prefix_of_node? (absent ▸ (Option.some_ne_none _).symm)
          have put : ChangedAt (fun _ => False)
              (current.Passes (.name name :: rest.filterMap Path.stepOf?)) disk
              (disk.put (current ++ [name]) .directory) := by
            refine ⟨rfl, rfl, fun place => ?_⟩
            rw [node?_put apart]
            split
            next here => exact .inr (.inr ⟨.cons (here ▸ .here _ _), here ▸ absent, rfl⟩)
            next => exact .inl rfl
          exact put.trans (onwards _)
    next taken =>
      rw [List.filterMap_cons_some taken]
      exact (ih disk current.dropLast).mono (fun _ => id) fun _ passes => .inl (.cons passes)
    next noName notUp =>
      rw [List.filterMap_cons_none (Path.stepOf?_eq_none noName notUp)]
      exact ih disk current

theorem changedAt_makeDirs (disk : Disk) (path : Path) :
    ChangedAt (fun _ => False) ((disk.start path).Passes (path.pieces.filterMap Path.stepOf?)) disk
      (disk.makeDirs path).2 := by
  rw [makeDirs]
  split
  · exact .refl _ _ disk
  · exact changedAt_makeFrom disk _ _

theorem changedAt_writeFile (disk : Disk) (path : Path) (content : FileContent) :
    ChangedAt (· = disk.workingDirectory.after path.steps) (fun _ => False) disk
      (disk.writeFile path content).2 := by
  rw [writeFile]
  split
  · exact .refl _ _ disk
  next location located =>
    split
    · exact .refl _ _ disk
    next noDirectory =>
      have apart := not_prefix_of_node? noDirectory
      refine ⟨rfl, rfl, fun place => ?_⟩
      rw [node?_put apart]
      split
      next here => exact .inr (.inl (here.trans (eq_after_of_locate located)))
      next => exact .inl rfl

/-- Saving a file changes the place of the file, and makes directories on the way to it. -/
theorem changedAt_save (disk : Disk) (ends : path.EndsInStep) (content : FileContent) :
    ChangedAt (· = disk.workingDirectory.after path.steps)
      (disk.workingDirectory.Passes path.steps) disk (disk.save path content).2 := by
  obtain ⟨parent, isParent, absolute, onTheWay⟩ := ends.exists_parent
  have sameStart : disk.start parent = disk.start path := by rw [start, start, absolute]
  have made : ChangedAt (· = disk.workingDirectory.after path.steps)
      (disk.workingDirectory.Passes path.steps) disk (disk.makeDirs parent).2 := by
    refine (changedAt_makeDirs disk parent).mono (fun _ => False.elim) fun place passes => .inl ?_
    rw [sameStart, ← Path.after_lead] at passes
    rw [Path.steps_eq]
    exact (passes.mono onTheWay).append_left
  rw [save, isParent]
  dsimp only
  split
  next kind after ran =>
    rw [ran] at made
    exact made
  next after ran =>
    rw [ran] at made
    refine made.trans ?_
    have written := changedAt_writeFile after path content
    rw [made.workingDirectory] at written
    exact written.mono (fun _ => id) fun _ => False.elim

end Disk

end Typescribe
