import Mathlib.Data.List.Chain
import Typescribe.Proofs.Disk.Changes
import Typescribe.Proofs.Generation.Reach

/-!
# Where a run writes

The file of a network client is always below the directory that a run writes to, and so is the file
of a module unless the outermost name of its type starts with a slash: then it is at the root of the
file system. A run changes nothing but the files of its top-level declarations and the directories
on the way to them.
-/

namespace Typescribe

/-! ## Paths without dots -/

/-- The pieces of a text lie one after the other, each in front of a separator or at the end. -/
theorem exists_of_splitOn_eq {separator : Char} {text first : List Char} {later : List (List Char)}
    (split : text.splitOn separator = first :: later) :
    (∃ back, text = first ++ back ∧ (back = [] ∨ back.head? = some separator)) ∧
      ∀ part ∈ later, ∃ front back, text = front ++ part ++ back ∧
        (back = [] ∨ back.head? = some separator) := by
  induction text generalizing first later with
  | nil =>
    obtain ⟨rfl, rfl⟩ := List.cons.inj (List.splitOn_nil separator ▸ split)
    exact ⟨⟨[], rfl, .inl rfl⟩, fun _ member => absurd member List.not_mem_nil⟩
  | cons c rest ih =>
    obtain ⟨head, tail, parts⟩ := List.exists_cons_of_ne_nil (List.splitOn_ne_nil separator rest)
    obtain ⟨⟨back, here, ends⟩, others⟩ := ih parts
    have shifted : ∀ part ∈ tail, ∃ front back, c :: rest = front ++ part ++ back ∧
        (back = [] ∨ back.head? = some separator) := by
      intro part member
      obtain ⟨front, back, there, ends⟩ := others part member
      exact ⟨c :: front, back, congrArg (List.cons c) there, ends⟩
    rw [List.splitOn_cons_eq_if_modifyHead, parts] at split
    split at split
    next same =>
      obtain ⟨rfl, rfl⟩ := List.cons.inj split
      refine ⟨⟨c :: rest, rfl, .inr (congrArg some (beq_iff_eq.mp same))⟩, fun part member => ?_⟩
      rcases List.mem_cons.mp member with rfl | member
      · exact ⟨[c], back, congrArg (List.cons c) here, ends⟩
      · exact shifted part member
    next =>
      obtain ⟨rfl, rfl⟩ := List.cons.inj split
      exact ⟨⟨back, congrArg (List.cons c) here, ends⟩, shifted⟩

namespace Path

/-- No piece of a path is a dot or two. -/
def Dotless (path : Path) : Prop :=
  ∀ piece ∈ path.pieces, piece ≠ ['.'] ∧ piece ≠ ['.', '.']

variable {path dir : Path} {text : String}

theorem Dotless.of_noDot (noDot : '.' ∉ text.toList) : Dotless ⟨text⟩ := by
  intro piece member
  have absent : '.' ∉ piece := fun dot => noDot ((mem_splitOn member).2 dot)
  constructor
  · rintro rfl
    exact absent List.mem_cons_self
  · rintro rfl
    exact absent List.mem_cons_self

/-- What matters about a text is where it has a dot in front of a slash. -/
def apart (first second : Char) : Prop :=
  ¬ (first = '.' ∧ second = '/')

/-- No piece is a dot or two if no dot stands in front of a slash or at the end. -/
theorem Dotless.of_isChain (chain : text.toList.IsChain apart)
    (ends : text.toList.getLast? ≠ some '.') : Dotless ⟨text⟩ := by
  intro piece member
  obtain ⟨first, later, split⟩ := List.exists_cons_of_ne_nil (List.splitOn_ne_nil '/' text.toList)
  obtain ⟨⟨start, here, startEnds⟩, others⟩ := exists_of_splitOn_eq split
  have there : ∃ front back, text.toList = front ++ piece ++ back ∧
      (back = [] ∨ back.head? = some '/') := by
    rw [Path.pieces, split] at member
    rcases List.mem_cons.mp member with rfl | member
    · exact ⟨[], start, here, startEnds⟩
    · exact others piece member
  obtain ⟨front, back, whole, bound⟩ := there
  have noDotEnd : piece.getLast? ≠ some '.' := by
    intro dot
    rw [whole] at chain ends
    rcases bound with rfl | slash
    · rw [List.append_nil, List.getLast?_append, dot] at ends
      exact ends rfl
    · have junction := (List.isChain_append.mp chain).2.2 '.'
        (by rw [List.getLast?_append, dot]; rfl) '/' slash
      exact junction ⟨rfl, rfl⟩
  constructor
  · rintro rfl
    exact noDotEnd rfl
  · rintro rfl
    exact noDotEnd rfl

/-- The pieces of a path without dots are names or nothing. -/
theorem Dotless.exists_names {pieces : List (List Char)}
    (dotless : ∀ piece ∈ pieces, piece ≠ ['.'] ∧ piece ≠ ['.', '.']) :
    ∃ names : List String, pieces.filterMap stepOf? = names.map .name := by
  refine ⟨(pieces.filter (· ≠ [])).map String.ofList, ?_⟩
  induction pieces with
  | nil => rfl
  | cons piece rest ih =>
    obtain ⟨⟨notHere, notUp⟩, later⟩ := List.forall_mem_cons.mp dotless
    by_cases empty : piece = []
    · simp [empty, stepOf?, ih later]
    · simp [empty, stepOf?, ih later, notHere, notUp]

theorem Dotless.lead_eq (dotless : path.Dotless) :
    path.lead = if path.isAbsolute then [.root] else [] := by
  have noDot : path.pieces.head? ≠ some ['.'] := fun dot =>
    (dotless _ (List.mem_of_head? dot)).1 rfl
  rw [lead, if_neg noDot]

/-- A path without dots takes names, behind the root if it starts there. -/
theorem Dotless.exists_steps (dotless : path.Dotless) (ends : path.EndsInStep) :
    ∃ names : List String, names ≠ [] ∧
      path.steps = (if path.isAbsolute then [.root] else []) ++ names.map .name := by
  obtain ⟨names, taken⟩ := exists_names dotless
  refine ⟨names, ?_, by rw [steps_eq, dotless.lead_eq, taken]⟩
  rintro rfl
  obtain ⟨init, file, pieces, isStep⟩ := ends
  obtain ⟨step, isStep⟩ := Option.isSome_iff_exists.mp isStep
  simp [pieces, isStep] at taken

/-- A path ends with a step that has more than two characters behind the last slash. -/
theorem EndsInStep.of_append (text : String) {tail : String} (noSlash : '/' ∉ tail.toList)
    (long : 2 ≤ tail.toList.length) : EndsInStep ⟨text ++ tail⟩ := by
  have split : ∀ chars : List Char, ∃ init last,
      (chars ++ tail.toList).splitOn '/' = init ++ [last ++ tail.toList] := by
    intro chars
    induction chars with
    | nil => exact ⟨[], [], List.splitOn_eq_singleton noSlash⟩
    | cons c rest ih =>
      obtain ⟨init, last, parts⟩ := ih
      rw [List.cons_append, List.splitOn_cons_eq_if_modifyHead, parts]
      split
      · exact ⟨[] :: init, last, rfl⟩
      · cases init with
        | nil => exact ⟨[], c :: last, rfl⟩
        | cons first init => exact ⟨(c :: first) :: init, last, rfl⟩
  obtain ⟨init, last, parts⟩ := split text.toList
  refine ⟨init, last ++ tail.toList, by rw [Path.pieces, String.toList_append, parts], ?_⟩
  rw [Option.isSome_iff_ne_none, ne_eq, stepOf?_eq_none_iff]
  rintro (empty | dot)
  · have lengths := congrArg List.length empty
    rw [List.length_append, List.length_nil] at lengths
    omega
  · have lengths := congrArg List.length dot
    rw [List.length_append, List.length_singleton] at lengths
    omega

theorem Dotless.join (dotless : dir.Dotless) (below : path.Dotless)
    (relative : path.isAbsolute = false) : (dir.join path).Dotless := by
  obtain ⟨front, leading, pieces, -, -⟩ := exists_pieces_join dir relative
  intro piece member
  rw [pieces] at member
  rcases List.mem_append.mp member with member | member
  · exact dotless piece (leading.subset member)
  · exact below piece member

end Path

/-! ## Where modules are -/

namespace TypeName

variable {type : TypeName}

/-- Whether the outermost name of a type starts with a slash. -/
def isRooted (type : TypeName) : Bool :=
  type.names.head?.any fun name => name.toList.head? == some '/'

theorem moduleFile_eq_join (type : TypeName) :
    type.moduleFile = type.packageDir.join ⟨type.moduleStem ++ ".ts"⟩ := by
  obtain ⟨package, name⟩ := type.package_root
  rw [moduleFile, name, packageDir, package, packageDir]

/-- A text that names nothing has no dot in front of a slash, nor a slash at its start. -/
theorem isChain_of_names_eq_nil (unnamed : type.names = []) :
    ('.' :: type.text.toList).IsChain Path.apart := by
  rw [List.isChain_iff_forall_rel_of_append_cons_cons]
  rintro first second front back whole ⟨rfl, rfl⟩
  -- The slash behind the dot starts a segment, and the segment is a name.
  obtain ⟨head, later, parts⟩ := List.exists_cons_of_ne_nil (List.splitOn_ne_nil '.' back)
  have split : ('.' :: type.text.toList).splitOn '.' =
      front.splitOn '.' ++ ('/' :: head) :: later := by
    rw [whole, List.splitOn_append_cons_self, List.splitOn_cons_eq_if_modifyHead, parts]
    rfl
  have behind : ('.' :: type.text.toList).splitOn '.' = [] :: type.text.toList.splitOn '.' :=
    List.splitOn_append_cons_self [] _
  have listed : '/' :: head ∈ [] :: type.text.toList.splitOn '.' := by
    rw [← behind, split]
    simp
  have isSegment : String.ofList ('/' :: head) ∈ type.segments := by
    rw [segments]
    refine List.mem_map_of_mem (List.mem_filter.mpr ⟨?_, rfl⟩)
    simpa using listed
  have isName : String.ofList ('/' :: head) ∈ type.names := by
    refine List.mem_filter.mpr ⟨isSegment, ?_⟩
    rw [startsLowercase, String.toList_ofList]
    exact (by decide : (!Text.isLowercase '/') = true)
  rw [unnamed] at isName
  exact List.not_mem_nil isName

theorem isChain_of_noDot {chars : List Char} (noDot : '.' ∉ chars) :
    chars.IsChain Path.apart := by
  rw [List.isChain_iff_forall_rel_of_append_cons_cons]
  rintro first second front back rfl ⟨rfl, -⟩
  exact noDot (by simp)

/-- The file of a type's module has no dots but those of its name. -/
theorem dotless_moduleStem (type : TypeName) : Path.Dotless ⟨type.moduleStem ++ ".ts"⟩ := by
  have stem : type.moduleStem.toList.IsChain Path.apart := by
    rw [moduleStem]
    cases names : type.names with
    | nil => exact (type.isChain_of_names_eq_nil names).tail
    | cons outermost later =>
      have isSegment := mem_segments_of_mem_names
        (names ▸ List.mem_cons_self : outermost ∈ type.names)
      exact isChain_of_noDot (mem_segments isSegment).2.1
  refine .of_isChain ?_ (by simp)
  rw [String.toList_append, List.isChain_append]
  refine ⟨stem, by simp [Path.apart], fun first _ second starts both => ?_⟩
  rw [both.2] at starts
  exact absurd starts (by decide)

theorem isAbsolute_moduleStem (type : TypeName) :
    (⟨type.moduleStem ++ ".ts"⟩ : Path).isAbsolute = type.isRooted := by
  rw [Path.isAbsolute, String.toList_append, moduleStem, isRooted]
  cases names : type.names with
  | nil =>
    have chain := type.isChain_of_names_eq_nil names
    cases chars : type.text.toList with
    | nil => simp [chars]
    | cons first rest =>
      rw [chars, List.isChain_cons_cons] at chain
      have noSlash : first ≠ '/' := fun slash => chain.1 ⟨rfl, slash⟩
      simp [chars, noSlash]
  | cons outermost later =>
    have isSegment := mem_segments_of_mem_names
      (names ▸ List.mem_cons_self : outermost ∈ type.names)
    have nonempty : outermost.toList ≠ [] := fun empty =>
      (mem_segments isSegment).1 (String.toList_inj.mp empty)
    simp [List.head?_append_of_ne_nil _ nonempty]

/-- The directory of a package lies below wherever it is seen from. -/
theorem packageDir_dotless (type : TypeName) :
    type.packageDir.isAbsolute = false ∧ type.packageDir.Dotless := by
  have segments : ∀ segment ∈ type.package,
      (⟨segment⟩ : Path).isAbsolute = false ∧ Path.Dotless ⟨segment⟩ := by
    intro segment member
    have lowercase : startsLowercase segment = true := (List.mem_filter.mp member).2
    refine ⟨?_, .of_noDot (mem_segments (mem_segments_of_mem_package member)).2.1⟩
    rw [Path.isAbsolute, beq_eq_false_iff_ne]
    intro slash
    obtain ⟨rest, chars⟩ := List.head?_eq_some_iff.mp slash
    rw [startsLowercase, chars] at lowercase
    exact absurd (show Text.isLowercase '/' = true from lowercase) (by decide)
  have joined : ∀ (parts : List String) (dir : Path), (∀ part ∈ parts, (⟨part⟩ : Path).isAbsolute =
      false ∧ Path.Dotless ⟨part⟩) → dir.isAbsolute = false ∧ dir.Dotless →
      (parts.foldl (fun dir part => dir.join ⟨part⟩) dir).isAbsolute = false ∧
        (parts.foldl (fun dir part => dir.join ⟨part⟩) dir).Dotless := by
    intro parts
    induction parts with
    | nil => exact fun _ _ holds => holds
    | cons part rest ih =>
      intro dir each holds
      obtain ⟨⟨relative, dotless⟩, later⟩ := List.forall_mem_cons.mp each
      obtain ⟨-, -, -, absolute, -⟩ := Path.exists_pieces_join dir relative
      exact ih _ later ⟨absolute.trans holds.1, holds.2.join dotless relative⟩
  exact joined type.package ⟨""⟩ segments ⟨rfl, by simp [Path.Dotless, Path.pieces]⟩

theorem moduleFile_dotless (type : TypeName) : type.moduleFile.Dotless ∧
    type.moduleFile.EndsInStep ∧ type.moduleFile.isAbsolute = type.isRooted := by
  have dotless := type.dotless_moduleStem
  have absolute := type.isAbsolute_moduleStem
  have ends : Path.EndsInStep ⟨type.moduleStem ++ ".ts"⟩ := .of_append _ (by decide) (by decide)
  rw [moduleFile_eq_join]
  cases rooted : type.isRooted with
  | true =>
    rw [rooted] at absolute
    have joined : type.packageDir.join ⟨type.moduleStem ++ ".ts"⟩ = ⟨type.moduleStem ++ ".ts"⟩ := by
      simp [Path.join, absolute]
    rw [joined]
    exact ⟨dotless, ends, absolute⟩
  | false =>
    rw [rooted] at absolute
    obtain ⟨relative, dirDotless⟩ := type.packageDir_dotless
    obtain ⟨-, -, -, joinedAbsolute, -⟩ := Path.exists_pieces_join type.packageDir absolute
    exact ⟨dirDotless.join dotless absolute, ends.join _ absolute, joinedAbsolute.trans relative⟩

theorem clientFile_dotless (type : TypeName) : (Service.clientFile type).Dotless ∧
    (Service.clientFile type).EndsInStep ∧ (Service.clientFile type).isAbsolute = false := by
  obtain ⟨relative, dirDotless⟩ := type.packageDir_dotless
  have fileRelative : (⟨Service.clientType ++ ".ts"⟩ : Path).isAbsolute = false := by decide
  have dotless : Path.Dotless ⟨Service.clientType ++ ".ts"⟩ := by
    unfold Path.Dotless
    decide
  have ends : Path.EndsInStep ⟨Service.clientType ++ ".ts"⟩ := .of_append _ (by decide) (by decide)
  obtain ⟨-, -, -, joinedAbsolute, -⟩ := Path.exists_pieces_join type.packageDir fileRelative
  exact ⟨dirDotless.join dotless fileRelative, ends.join _ fileRelative,
    joinedAbsolute.trans relative⟩

end TypeName

theorem Declaration.eq_of_mem_files {root : Declaration} {path : Path}
    (member : path ∈ root.files) :
    path = root.type.moduleFile ∨ path = Service.clientFile root.type := by
  cases root with
  | record head nested => exact .inl (by simpa only [files, List.mem_singleton] using member)
  | enumeration body => exact .inl (by simpa only [files, List.mem_singleton] using member)
  | service body =>
    simpa only [files, Declaration.type, List.mem_cons, List.not_mem_nil, or_false] using member

/-- The files of a declaration have no dots but those of their names, and only the module of a type
whose outermost name starts with a slash is at the root of the file system. -/
theorem Declaration.dotless_of_mem_files {root : Declaration} {path : Path}
    (member : path ∈ root.files) : path.Dotless ∧ path.EndsInStep ∧
      (path.isAbsolute = true ↔ path = root.type.moduleFile ∧ root.type.isRooted = true) := by
  obtain ⟨dotless, ends, absolute⟩ := root.type.moduleFile_dotless
  obtain ⟨clientDotless, clientEnds, relative⟩ := root.type.clientFile_dotless
  rcases eq_of_mem_files member with isModule | isClient
  · rw [isModule, absolute]
    exact ⟨dotless, ends, (and_iff_right rfl).symm⟩
  · rw [isClient, relative]
    refine ⟨clientDotless, clientEnds, iff_of_false Bool.false_ne_true fun both => ?_⟩
    rw [both.1, absolute, both.2] at relative
    exact absurd relative.symm Bool.false_ne_true

/-! ## What a run changes on a disk -/

/-- Whether a place is inside a directory. -/
def Location.Below (home place : Location) : Prop :=
  home <+: place ∧ place ≠ home

/-- Saving a file below a directory changes places below the directory, and makes directories on the
way to it. Only what a path from the root of the file system leads through is elsewhere. -/
theorem Disk.changedAt_save_join (disk : Disk) (dir : Path) {path : Path} (dotless : path.Dotless)
    (ends : path.EndsInStep) (content : FileContent) :
    ChangedAt
      (fun place => (disk.workingDirectory.after dir.steps).Below place ∨
        path.isAbsolute = true ∧ disk.workingDirectory.Passes path.steps place)
      (disk.workingDirectory.Passes dir.steps) disk (disk.save (dir.join path) content).2 := by
  cases absolute : path.isAbsolute with
  | true =>
    have joined : dir.join path = path := by simp [Path.join, absolute]
    rw [joined]
    refine (changedAt_save disk ends content).mono (fun place here => ?_) fun place passes => ?_
    · exact .inr ⟨rfl, path.steps, List.prefix_rfl, here⟩
    · exact .inr (.inr ⟨rfl, passes⟩)
  | false =>
    obtain ⟨names, nonempty, steps⟩ := dotless.exists_steps ends
    obtain ⟨-, -, -, -, joined⟩ := Path.exists_pieces_join dir absolute
    have joined := joined (by simp [dotless.lead_eq, absolute])
    have steps : path.steps = names.map .name := by simpa [absolute] using steps
    refine (changedAt_save disk (ends.join dir absolute) content).mono (fun place here => ?_)
      fun place passes => ?_
    · rw [joined, steps, Location.after_append, Location.after_names] at here
      exact .inl ⟨here ▸ List.prefix_append _ _, by simpa [here] using nonempty⟩
    · rw [joined, steps] at passes
      rcases passes.of_append with onTheWay | behind
      · exact .inl onTheWay
      · by_cases home : place = disk.workingDirectory.after dir.steps
        · exact .inl ⟨dir.steps, List.prefix_rfl, home⟩
        · exact .inr (.inl ⟨behind.of_names, home⟩)

/-- What a run over a disk may change: what is below its directory, and what is on the way to the
modules at the root of the file system. -/
def MayChange (files : List SchemaFile) (dir : Path) (current place : Location) : Prop :=
  (current.after dir.steps).Below place ∨
    ∃ root ∈ rootsOf files, root.type.isRooted = true ∧
      current.Passes root.type.moduleFile.steps place

/-- A store on a disk that a run has changed only where it may. -/
def Confined (files : List SchemaFile) (dir : Path) (disk : Disk) (store other : DiskStore) :
    Prop :=
  other = store ∧ store.root = dir ∧
    disk.ChangedAt (MayChange files dir disk.workingDirectory)
      (disk.workingDirectory.Passes dir.steps) store.disk

theorem Confined.follows (files : List SchemaFile) (dir : Path) (disk : Disk) :
    Store.Follows (fun path => ∃ root ∈ rootsOf files, path ∈ root.files)
      (Confined files dir disk) where
  read := by
    rintro first - ⟨rfl, -⟩ path -
    rfl
  holds := by
    rintro first - ⟨rfl, -⟩ path -
    rfl
  write := by
    intro other store confined path isAsked text
    obtain ⟨rfl, rfl, changed⟩ := confined
    obtain ⟨root, listed, member⟩ := isAsked
    obtain ⟨dotless, ends, absolute⟩ := Declaration.dotless_of_mem_files member
    have saved := store.disk.changedAt_save_join store.root dotless ends (.text text)
    rw [changed.workingDirectory] at saved
    have confined : disk.ChangedAt (MayChange files store.root disk.workingDirectory)
        (disk.workingDirectory.Passes store.root.steps)
        (store.disk.save (store.full path) (.text text)).2 := by
      refine changed.trans (saved.mono (fun place alters => ?_) fun _ passes => .inl passes)
      refine alters.imp_right fun stray => ?_
      obtain ⟨isModule, rooted⟩ := absolute.mp stray.1
      rw [isModule] at stray
      exact ⟨root, listed, rooted, stray.2⟩
    have written : (Store.write store path text).2 =
        { store with disk := (store.disk.save (store.full path) (.text text)).2 } := by
      dsimp only [Store.write]
      split
      next after ran => rw [ran]
      next kind after ran => rw [ran]
    refine ⟨rfl, rfl, ?_, ?_⟩
    · rw [written]
    · rw [written]
      exact confined

/-- A run asks its store for nothing but the files of its top-level declarations. Their paths lead
through names alone, so that a run over a disk stays below its directory; but the module of a type
whose outermost name starts with a slash is at the root of the file system. -/
theorem files_below_directory (files : List SchemaFile) :
    (∀ root ∈ rootsOf files, ∀ path ∈ root.files, ∃ names : List String, names ≠ [] ∧
      path.steps =
        (if path = root.type.moduleFile ∧ root.type.isRooted = true then [.root] else []) ++
        names.map .name) ∧
    (∀ (σ : Type) (first second : Store σ),
      (∀ root ∈ rootsOf files, ∀ path ∈ root.files, first.AlikeAt second path) →
      ∀ store, @Session.processFiles σ second { store } files =
        @Session.processFiles σ first { store } files) ∧
    ∀ (disk : Disk) (dir : Path),
      disk.ChangedAt (MayChange files dir disk.workingDirectory)
        (disk.workingDirectory.Passes dir.steps)
        (({ store := ⟨disk, dir⟩ } : Session DiskStore).processFiles files).2.store.disk := by
  refine ⟨fun root listed path member => ?_, fun σ first second alike store => ?_,
    fun disk dir => ?_⟩
  · obtain ⟨dotless, ends, absolute⟩ := Declaration.dotless_of_mem_files member
    obtain ⟨names, nonempty, steps⟩ := dotless.exists_steps ends
    exact ⟨names, nonempty, by simpa only [absolute] using steps⟩
  · exact Session.processFiles_of_alike alike store
  · have abreast : Session.AbreastOn (fun path => ∃ root ∈ rootsOf files, path ∈ root.files)
        (Session.tied (Confined files dir disk)) { store := ⟨disk, dir⟩ }
        { store := ⟨disk, dir⟩ } :=
      ⟨rfl, rfl, fun _ member => absurd member List.not_mem_nil, rfl, rfl, rfl, .refl _ _ disk⟩
    have ran := abreast.processFiles_tied (Confined.follows files dir disk)
      fun root listed path member => ⟨root, listed, member⟩
    exact ran.2.related.2.2.2

/-- A schema file with a record that is called by a slash and a name. -/
def strayFiles : List SchemaFile :=
  [{ name := "stray", declarations := [.record { type := ⟨"/Stray"⟩ } []] }]

/-- The module of the record is put at the root of the file system, outside the directory that the
run writes to. -/
theorem stray_put_at_root :
    let disk : Disk := { workingDirectory := ["home"] }
    let ran := ({ store := ⟨disk, ⟨"out"⟩⟩ } : Session DiskStore).processFiles strayFiles
    ran.1 = .ok () ∧ ran.2.outputs = [(⟨"/Stray.ts"⟩, .written)] ∧
      disk.workingDirectory.after (⟨"out"⟩ : Path).steps = ["home", "out"] ∧
      disk.node? ["Stray.ts"] = none ∧
      ran.2.store.disk.node? ["Stray.ts"] =
        some (.file (.text "export default class /Stray \x7b\x7d\n")) := by
  decide +kernel

end Typescribe
