import Mathlib.Data.List.Induction
import Typescribe.Proofs.Schema.WellFormed
import Typescribe.Proofs.Store

/-!
# Where generated modules are

The module of a type without slashes lies at the path that its package and its outermost name
spell. Different top-level types have different modules, and none of them is the module of the
network client. The specifier of an import, walked from the directory of the importing module,
ends at the imported one.
-/

namespace Typescribe

open TypeScript (Import)

/-- A text that is one step of a path when it stands between slashes. -/
structure IsStep (text : String) : Prop where
  nonempty : text ≠ ""
  noSlash : '/' ∉ text.toList
  notHere : text ≠ "."
  notUp : text ≠ ".."

namespace Path

/-- The path that goes through the given names. -/
def through (names : List String) : Path :=
  ⟨String.intercalate "/" names⟩

theorem stepOf?_toList {text : String} (isStep : IsStep text) :
    stepOf? text.toList = some (.name text) := by
  have nonempty : text.toList ≠ [] := fun empty => isStep.nonempty (String.toList_inj.mp empty)
  have notHere : text.toList ≠ ['.'] := fun here =>
    isStep.notHere (String.toList_inj.mp (here.trans (by decide)))
  have notUp : text.toList ≠ ['.', '.'] := fun up =>
    isStep.notUp (String.toList_inj.mp (up.trans (by decide)))
  rw [stepOf?, if_neg (not_or.mpr ⟨nonempty, notHere⟩), if_neg notUp, String.ofList_toList]

theorem pieces_through {names : List String} (areSteps : ∀ name ∈ names, IsStep name)
    (nonempty : names ≠ []) : (through names).pieces = names.map String.toList := by
  rw [Path.pieces, through, String.toList_intercalate]
  apply List.splitOn_intercalate '/'
  · intro piece listed
    obtain ⟨name, member, rfl⟩ := List.mem_map.mp listed
    exact (areSteps name member).noSlash
  · simpa using nonempty

/-- A path through names takes exactly these steps. -/
theorem steps_through {names : List String} (areSteps : ∀ name ∈ names, IsStep name)
    (nonempty : names ≠ []) : (through names).steps = names.map .name := by
  have pieces := pieces_through areSteps nonempty
  have taken : (names.map String.toList).filterMap stepOf? = names.map .name := by
    rw [List.filterMap_map, ← List.filterMap_eq_map]
    apply List.filterMap_congr
    intro name member
    exact stepOf?_toList (areSteps name member)
  cases names with
  | nil => exact absurd rfl nonempty
  | cons first rest =>
    have isStep := areSteps first List.mem_cons_self
    have firstNonempty : first.toList ≠ [] := fun empty =>
      isStep.nonempty (String.toList_inj.mp empty)
    have firstNotHere : first.toList ≠ ['.'] := fun here =>
      isStep.notHere (String.toList_inj.mp (here.trans (by decide)))
    rw [steps, pieces, List.map_cons]
    split
    next impossible => exact absurd impossible (List.cons_ne_nil _ _)
    next impossible => exact absurd (List.cons.inj impossible).1 firstNonempty
    next impossible => exact absurd (List.cons.inj impossible).1 firstNonempty
    next impossible => exact absurd (List.cons.inj impossible).1 firstNotHere
    next => exact taken

/-- Joining adds a name to a path through names. -/
theorem join_through {names : List String} (areSteps : ∀ name ∈ names, IsStep name)
    {name : String} (noSlash : '/' ∉ name.toList) :
    (through names).join ⟨name⟩ = through (names ++ [name]) := by
  have relative : (⟨name⟩ : Path).isAbsolute = false := by
    rw [isAbsolute, beq_eq_false_iff_ne]
    intro head
    exact noSlash (List.mem_of_head? head)
  rw [join, relative, Bool.false_or]
  rcases List.eq_nil_or_concat names with rfl | ⟨init, last, rfl⟩
  · simp [through]
  · rw [List.concat_eq_append] at *
    have lastIsStep := areSteps last (by simp)
    have spelled : (through (init ++ [last])).text.toList =
        (if init = [] then [] else (String.intercalate "/" init).toList ++ ['/']) ++
          last.toList := by
      rw [through]
      split
      next empty => simp [empty]
      next nonempty =>
        rw [String.intercalate_append_of_ne_nil nonempty (List.cons_ne_nil _ _)]
        simp
    have lastNonempty : last.toList ≠ [] := fun empty =>
      lastIsStep.nonempty (String.toList_inj.mp empty)
    have someText : (through (init ++ [last])).text.isEmpty = false := by
      rw [← Bool.not_eq_true, String.isEmpty_iff]
      intro empty
      rw [empty] at spelled
      exact lastNonempty (List.append_eq_nil_iff.mp spelled.symm).2
    have noTrailing : ((through (init ++ [last])).text.toList.getLast? == some '/') = false := by
      rw [beq_eq_false_iff_ne, spelled, List.getLast?_append,
        List.getLast?_eq_some_getLast lastNonempty]
      intro slash
      rw [Option.some_or, Option.some.injEq] at slash
      exact lastIsStep.noSlash (slash ▸ List.getLast_mem lastNonempty)
    have longer : String.intercalate "/" (init ++ [last] ++ [name]) =
        String.intercalate "/" (init ++ [last]) ++ "/" ++ name := by
      rw [String.intercalate_append_of_ne_nil (List.append_ne_nil_of_right_ne_nil _
        (List.cons_ne_nil _ _)) (List.cons_ne_nil _ _), String.intercalate_singleton]
    rw [someText, noTrailing, through, through, longer]
    rfl

/-- Joining names one after the other gives the path through them. -/
theorem foldl_join_through {names more : List String} (areSteps : ∀ name ∈ names, IsStep name)
    (moreAreSteps : ∀ name ∈ more, IsStep name) :
    more.foldl (fun dir name => dir.join ⟨name⟩) (through names) = through (names ++ more) := by
  induction more generalizing names with
  | nil => rw [List.foldl_nil, List.append_nil]
  | cons name rest ih =>
    obtain ⟨isStep, restAreSteps⟩ := List.forall_mem_cons.mp moreAreSteps
    have longer : ∀ step ∈ names ++ [name], IsStep step :=
      List.forall_mem_append.mpr ⟨areSteps, List.forall_mem_singleton.mpr isStep⟩
    rw [List.foldl_cons, join_through areSteps isStep.noSlash,
      ih longer restAreSteps, List.append_assoc, List.singleton_append]

/-- Paths through different names are different. -/
theorem same_through_iff {left right : List String} (leftSteps : ∀ name ∈ left, IsStep name)
    (rightSteps : ∀ name ∈ right, IsStep name) (leftNonempty : left ≠ [])
    (rightNonempty : right ≠ []) : (through left).same (through right) = true ↔ left = right := by
  rw [same_iff, steps_through leftSteps leftNonempty, steps_through rightSteps rightNonempty]
  constructor
  · intro equal
    exact List.map_injective_iff.mpr (fun _ _ => PathStep.name.inj) equal
  · exact congrArg _

/-- The names of the directories that lead to a file. -/
def directory (path : Path) : List String :=
  (path.steps.map PathStep.text).dropLast

theorem directory_through {names : List String} {last : String}
    (areSteps : ∀ name ∈ names ++ [last], IsStep name) :
    (through (names ++ [last])).directory = names := by
  rw [directory, steps_through areSteps (by simp), List.map_map]
  have shown : PathStep.text ∘ PathStep.name = id := rfl
  rw [shown, List.map_id, List.dropLast_concat]

end Path

/-- Where one gets from a directory: a dot stays, two dots leave the directory, and everything else
enters. There is no way out of the outermost directory. -/
def walk? : List String → List String → Option (List String)
  | dir, [] => some dir
  | dir, step :: rest =>
    if step = "." then walk? dir rest
    else if step = ".." then
      if dir = [] then none else walk? dir.dropLast rest
    else walk? (dir ++ [step]) rest

/-- The file that an import specifier means in a module: from the directory of the module along
the specifier, with the extension of generated modules. A specifier that starts with a name means a
package and no file. -/
def specifiedFile? (importer : Path) (specifier : String) : Option Path :=
  let steps := (specifier.toList.splitOn '/').map String.ofList
  if steps.head? = some "." ∨ steps.head? = some ".." then
    (walk? importer.directory steps).map fun landed => ⟨String.intercalate "/" landed ++ ".ts"⟩
  else
    none

theorem walk?_enter {dir names rest : List String} (areSteps : ∀ name ∈ names, IsStep name) :
    walk? dir (names ++ rest) = walk? (dir ++ names) rest := by
  induction names generalizing dir with
  | nil => rw [List.nil_append, List.append_nil]
  | cons name names ih =>
    obtain ⟨isStep, namesAreSteps⟩ := List.forall_mem_cons.mp areSteps
    rw [List.cons_append, walk?, if_neg isStep.notHere, if_neg isStep.notUp, ih namesAreSteps,
      List.append_assoc, List.singleton_append]

theorem walk?_leave {dir gone rest : List String} :
    walk? (dir ++ gone) (List.replicate gone.length ".." ++ rest) = walk? dir rest := by
  induction gone using List.reverseRecOn with
  | nil => simp
  | append_singleton gone last ih =>
    rw [List.length_append, List.length_singleton, List.replicate_succ, List.cons_append, walk?,
      if_neg (by decide), if_pos rfl, if_neg (by simp), ← List.append_assoc,
      List.dropLast_concat, ih]

namespace TypeName

/-- Two packages share a beginning of the common length. -/
theorem exists_shared (source destination : List String) :
    ∃ shared out inward, source = shared ++ out ∧ destination = shared ++ inward ∧
      commonLength source destination = shared.length := by
  induction source generalizing destination with
  | nil => exact ⟨[], [], destination, rfl, rfl, rfl⟩
  | cons first source ih =>
    cases destination with
    | nil => exact ⟨[], first :: source, [], rfl, rfl, rfl⟩
    | cons second destination =>
      by_cases same : first = second
      · subst same
        obtain ⟨shared, out, inward, rfl, rfl, length⟩ := ih destination
        refine ⟨first :: shared, out, inward, rfl, rfl, ?_⟩
        rw [commonLength] at length ⊢
        rw [List.zip_cons_cons, List.takeWhile_cons_of_pos (by simp), List.length_cons, length,
          List.length_cons]
      · refine ⟨[], first :: source, second :: destination, rfl, rfl, ?_⟩
        rw [commonLength, List.zip_cons_cons, List.takeWhile_cons_of_neg (by simpa using same)]
        rfl

/-- The steps between two packages lead from the first to the second. -/
theorem walk?_relativeSteps {source destination : List String}
    (areSteps : ∀ name ∈ destination, IsStep name) (rest : List String) :
    walk? source (relativeSteps source destination ++ rest) = walk? destination rest := by
  obtain ⟨shared, out, inward, rfl, rfl, length⟩ := exists_shared source destination
  have inwardSteps : ∀ name ∈ inward, IsStep name := fun name member =>
    areSteps name (List.mem_append_right _ member)
  have leaving : (shared ++ out).length - shared.length = out.length := by simp
  rw [relativeSteps, length, leaving, List.drop_left]
  cases out with
  | nil =>
    rw [List.length_nil, List.replicate_zero, List.append_nil]
    change walk? shared ("." :: (inward ++ rest)) = _
    rw [walk?, if_pos rfl, walk?_enter inwardSteps]
  | cons name out =>
    rw [List.length_cons, List.replicate_succ, if_neg (by simp), ← List.replicate_succ,
      ← List.length_cons, List.append_assoc, walk?_leave, walk?_enter inwardSteps]

theorem Slashless.noSlash {type : TypeName} (slashless : type.Slashless) {segment : String}
    (member : segment ∈ type.segments) : '/' ∉ segment.toList :=
  fun slash => slashless ((mem_segments member).2.2 slash)

theorem Slashless.isStep {type : TypeName} (slashless : type.Slashless) {segment : String}
    (member : segment ∈ type.segments) : IsStep segment where
  nonempty := (mem_segments member).1
  noSlash := slashless.noSlash member
  notHere := by
    rintro rfl
    exact absurd (mem_segments member).2.1 (by decide)
  notUp := by
    rintro rfl
    exact absurd (mem_segments member).2.1 (by decide)

theorem Slashless.package_isStep {type : TypeName} (slashless : type.Slashless) :
    ∀ segment ∈ type.package, IsStep segment :=
  fun _ member => slashless.isStep (mem_segments_of_mem_package member)

/-- A name with the extension of generated modules is the name of a file. -/
theorem isStep_withExtension {text : String} (noSlash : '/' ∉ text.toList) :
    IsStep (text ++ ".ts") := by
  have last : (text ++ ".ts").toList.getLast? = some 's' := by
    rw [String.toList_append, List.getLast?_append]
    rfl
  constructor
  · intro empty
    rw [empty] at last
    exact absurd last (by decide)
  · rw [String.toList_append, List.mem_append, not_or]
    exact ⟨noSlash, by decide⟩
  · intro here
    rw [here] at last
    exact absurd last (by decide)
  · intro up
    rw [up] at last
    exact absurd last (by decide)

variable {type : TypeName} {name : String}

theorem packageDir_eq (slashless : type.Slashless) : type.packageDir = Path.through type.package :=
  Path.foldl_join_through (fun _ member => absurd member List.not_mem_nil) slashless.package_isStep

/-- The steps to the module of a top-level type: its package and its name. -/
def moduleSteps (type : TypeName) (name : String) : List String :=
  type.package ++ [name ++ ".ts"]

theorem moduleSteps_isStep (slashless : type.Slashless) (noSlash : '/' ∉ name.toList) :
    ∀ step ∈ type.moduleSteps name, IsStep step :=
  List.forall_mem_append.mpr
    ⟨slashless.package_isStep, List.forall_mem_singleton.mpr (isStep_withExtension noSlash)⟩

theorem Slashless.name_noSlash (slashless : type.Slashless) (single : type.names = [name]) :
    '/' ∉ name.toList :=
  slashless.noSlash (mem_segments_of_mem_names (single ▸ List.mem_singleton_self name))

theorem Slashless.root (slashless : type.Slashless) : type.root.Slashless := by
  rw [TypeName.root]
  split
  next outermost second later names =>
    rw [Slashless, String.toList_intercalate]
    refine Text.not_mem_intercalate (by decide) fun part listed => ?_
    obtain ⟨segment, member, rfl⟩ := List.mem_map.mp listed
    rcases List.mem_append.mp member with member | member
    · exact slashless.noSlash (mem_segments_of_mem_package member)
    · rw [List.mem_singleton.mp member]
      exact slashless.noSlash (mem_segments_of_mem_names (names ▸ List.mem_cons_self))
  next => exact slashless

theorem Slashless.simpleName_noSlash (slashless : type.Slashless) :
    '/' ∉ type.simpleName.toList := by
  rw [simpleName]
  cases last : type.names.getLast? with
  | none => exact slashless
  | some name =>
    exact slashless.noSlash (mem_segments_of_mem_names (List.mem_of_getLast? last))

/-- What the module of a type is called: by the outermost name, or by the whole text if there is
none. -/
def moduleStem (type : TypeName) : String :=
  type.names.head?.getD type.text

theorem segments_intercalate {parts : List String} (nonempty : parts ≠ [])
    (areSegments : ∀ part ∈ parts, part ≠ "" ∧ '.' ∉ part.toList) :
    (⟨String.intercalate "." parts⟩ : TypeName).segments = parts := by
  have split : (String.intercalate "." parts).toList.splitOn '.' = parts.map String.toList := by
    rw [String.toList_intercalate]
    refine List.splitOn_intercalate '.' (fun piece listed => ?_) (by simpa using nonempty)
    obtain ⟨part, member, rfl⟩ := List.mem_map.mp listed
    exact (areSegments part member).2
  have kept : ∀ piece ∈ parts.map String.toList, (!piece.isEmpty) = true := by
    intro piece listed
    obtain ⟨part, member, rfl⟩ := List.mem_map.mp listed
    simpa using (areSegments part member).1
  rw [segments, split, List.filter_eq_self.mpr kept, List.map_map]
  simp [Function.comp_def]

/-- Segments joined by single dots, those of the package first, are the package and the names of
the whole. -/
theorem parts_intercalate {package names : List String} (nonempty : package ++ names ≠ [])
    (areSegments : ∀ part ∈ package ++ names, part ≠ "" ∧ '.' ∉ part.toList)
    (lower : ∀ part ∈ package, startsLowercase part = true)
    (notLower : ∀ part ∈ names, startsLowercase part = false) :
    (⟨String.intercalate "." (package ++ names)⟩ : TypeName).package = package ∧
      (⟨String.intercalate "." (package ++ names)⟩ : TypeName).names = names := by
  have segments := segments_intercalate nonempty areSegments
  constructor
  · rw [TypeName.package, segments, List.filter_append, List.filter_eq_self.mpr lower,
      List.filter_eq_nil_iff.mpr (by simpa using notLower), List.append_nil]
  · rw [TypeName.names, segments, List.filter_append,
      List.filter_eq_nil_iff.mpr (by simpa using lower),
      List.filter_eq_self.mpr (by simpa using notLower), List.nil_append]

/-- The root of a type has the package of the type and its outermost name, if there is one. -/
theorem parts_root (type : TypeName) :
    type.root.package = type.package ∧ type.root.names = type.names.take 1 := by
  rw [root]
  split
  next outermost second later names =>
    have listed : [outermost] ⊆ type.names := by simp [names]
    rw [names]
    apply parts_intercalate (by simp)
    · intro part member
      rcases List.mem_append.mp member with member | member
      · exact isSegment_of_mem (List.mem_append_left _ member)
      · exact isSegment_of_mem (List.mem_append_right _ (listed member))
    · exact fun part => startsLowercase_of_mem_package
    · exact fun part member => startsLowercase_of_mem_names (listed member)
  next single =>
    refine ⟨rfl, ?_⟩
    cases names : type.names with
    | nil => rfl
    | cons outermost later =>
      cases later with
      | nil => rfl
      | cons second later => exact absurd names (single _ _ _)

/-- The root of a type is in the package of the type and called by its outermost name. -/
theorem package_root (type : TypeName) : type.root.package = type.package ∧
    type.root.simpleName = type.moduleStem := by
  refine ⟨type.parts_root.1, ?_⟩
  rw [simpleName, type.parts_root.2, moduleStem]
  cases names : type.names with
  | nil => rw [root, names]; rfl
  | cons outermost later => rfl

/-- The module of a type lies in the directory of its root's package, under the root's name. -/
theorem moduleFile_eq_root (slashless : type.Slashless) :
    type.moduleFile = Path.through (type.root.moduleSteps type.root.simpleName) := by
  have noSlash := (isStep_withExtension slashless.root.simpleName_noSlash).noSlash
  rw [moduleFile, packageDir_eq slashless.root,
    Path.join_through slashless.root.package_isStep noSlash, moduleSteps]

/-- The module of a top-level type lies in the directory of its package. -/
theorem moduleFile_eq (slashless : type.Slashless) (single : type.names = [name]) :
    type.moduleFile = Path.through (type.moduleSteps name) := by
  rw [moduleFile_eq_root slashless, root_eq_self single, simpleName_eq single]

/-- The module of the network client lies in the directory of the service's package. -/
theorem clientFile_eq (slashless : type.Slashless) :
    Service.clientFile type = Path.through (type.moduleSteps Service.clientType) := by
  rw [Service.clientFile, packageDir_eq slashless,
    Path.join_through slashless.package_isStep (by decide), moduleSteps]

/-- Modules are told apart by package and name. -/
theorem same_moduleSteps_iff {other : TypeName} {otherName : String} (slashless : type.Slashless)
    (noSlash : '/' ∉ name.toList) (otherSlashless : other.Slashless)
    (otherNoSlash : '/' ∉ otherName.toList) :
    (Path.through (type.moduleSteps name)).same (Path.through (other.moduleSteps otherName)) =
        true ↔ type.package = other.package ∧ name = otherName := by
  rw [Path.same_through_iff (moduleSteps_isStep slashless noSlash)
    (moduleSteps_isStep otherSlashless otherNoSlash) (by simp [moduleSteps])
    (by simp [moduleSteps]), moduleSteps, moduleSteps]
  constructor
  · intro equal
    obtain ⟨package, last⟩ := List.append_inj' equal rfl
    have sameText := congrArg String.toList (List.singleton_inj.mp last)
    rw [String.toList_append, String.toList_append, List.append_cancel_right_eq] at sameText
    exact ⟨package, String.toList_inj.mp sameText⟩
  · rintro ⟨package, rfl⟩
    rw [package]

/-- Two types have one module exactly if their roots have the same package and the same name. -/
theorem same_moduleFile_iff {other : TypeName} (slashless : type.Slashless)
    (otherSlashless : other.Slashless) :
    type.moduleFile.same other.moduleFile = true ↔
      type.root.package = other.root.package ∧ type.root.simpleName = other.root.simpleName := by
  rw [moduleFile_eq_root slashless, moduleFile_eq_root otherSlashless]
  exact same_moduleSteps_iff slashless.root slashless.root.simpleName_noSlash otherSlashless.root
    otherSlashless.root.simpleName_noSlash

/-- A type's module is where a service's network client is exactly if its root is called like the
client and in the package of the service. -/
theorem same_clientFile_iff {service : TypeName} (serviceSlashless : service.Slashless)
    (slashless : type.Slashless) :
    (Service.clientFile service).same type.moduleFile = true ↔
      service.package = type.root.package ∧ Service.clientType = type.root.simpleName := by
  rw [clientFile_eq serviceSlashless, moduleFile_eq_root slashless]
  exact same_moduleSteps_iff serviceSlashless (by decide) slashless.root
    slashless.root.simpleName_noSlash

/-- The specifier of an import is the steps to the package and the outermost name. -/
theorem moduleSpecifier_eq {source destination : TypeName} {outermost : String}
    {inner : List String} (names : destination.names = outermost :: inner) :
    moduleSpecifier source destination =
      .ok (String.intercalate "/"
        (relativeSteps source.package destination.package ++ [outermost])) := by
  have steps : relativeSteps source.package destination.package ≠ [] := by
    rw [relativeSteps]
    split
    · exact List.cons_ne_nil _ _
    next leaving => exact List.append_ne_nil_of_left_ne_nil (by simpa using leaving) _
  rw [moduleSpecifier, names, relativeDir,
    String.intercalate_append_of_ne_nil steps (List.cons_ne_nil _ _), String.intercalate_singleton]

/-- The import of a type has the specifier of the type's module and binds the class name. -/
theorem importInto_eq_ok {source destination : TypeName} {entry : Import}
    (imported : importInto source destination = .ok entry) :
    ∃ name, destination.className = .ok name ∧
      moduleSpecifier source destination = .ok entry.source ∧
      if destination.isRoot then entry.defaultName = some name ∧ entry.named = []
      else entry.defaultName = none ∧ entry.named = [name] := by
  rw [importInto] at imported
  split at imported
  next => cases imported
  next specifier specified =>
    split at imported
    next => cases imported
    next name named =>
      refine ⟨name, named, ?_⟩
      split at imported
      next isRoot =>
        obtain rfl := Except.ok.inj imported
        exact ⟨specified, by rw [if_pos isRoot]; exact ⟨rfl, rfl⟩⟩
      next isNested =>
        obtain rfl := Except.ok.inj imported
        exact ⟨specified, by rw [if_neg isNested]; exact ⟨rfl, rfl⟩⟩

/-- The steps to a directory start with a dot or with two. -/
theorem head?_relativeSteps (source destination : List String) :
    (relativeSteps source destination).head? = some "." ∨
      (relativeSteps source destination).head? = some ".." := by
  rw [relativeSteps]
  split
  · exact .inl rfl
  next leaving =>
    cases out : List.replicate (source.length - commonLength source destination) ".." with
    | nil => exact absurd (by rw [out]; rfl) leaving
    | cons first rest =>
      have isUp : first = ".." := List.eq_of_mem_replicate (out ▸ List.mem_cons_self)
      exact .inr (by rw [List.cons_append, List.head?_cons, isUp])

theorem noSlash_of_mem_relativeSteps {source destination : List String} {step : String}
    (areSteps : ∀ name ∈ destination, IsStep name)
    (member : step ∈ relativeSteps source destination) : '/' ∉ step.toList := by
  rw [relativeSteps, List.mem_append] at member
  rcases member with leaving | entering
  · split at leaving
    · rw [List.mem_singleton.mp leaving]
      decide
    · rw [List.eq_of_mem_replicate leaving]
      decide
  · exact (areSteps step (List.mem_of_mem_drop entering)).noSlash

theorem intercalate_concat_append (separator last ending : String) (init : List String) :
    String.intercalate separator (init ++ [last]) ++ ending =
      String.intercalate separator (init ++ [last ++ ending]) := by
  cases init with
  | nil => simp
  | cons first rest =>
    rw [String.intercalate_append_of_ne_nil (List.cons_ne_nil _ _) (List.cons_ne_nil _ _),
      String.intercalate_append_of_ne_nil (List.cons_ne_nil _ _) (List.cons_ne_nil _ _),
      String.intercalate_singleton, String.intercalate_singleton, String.append_assoc]

/-- The texts between the slashes of a specifier are its steps. -/
theorem splitOn_specifier (source : TypeName) {destination : TypeName} {outermost : String}
    (slashless : destination.Slashless) (noSlash : '/' ∉ outermost.toList) :
    ((String.intercalate "/"
      (relativeSteps source.package destination.package ++ [outermost])).toList.splitOn '/').map
        String.ofList = relativeSteps source.package destination.package ++ [outermost] := by
  rw [String.toList_intercalate]
  change List.map _ (List.splitOn '/' (['/'].intercalate _)) = _
  rw [List.splitOn_intercalate '/', List.map_map]
  · simp [Function.comp_def]
  · intro piece listed
    obtain ⟨step, member, rfl⟩ := List.mem_map.mp listed
    rcases List.mem_append.mp member with member | member
    · exact noSlash_of_mem_relativeSteps slashless.package_isStep member
    · exact List.mem_singleton.mp member ▸ noSlash
  · simp

/-- The steps of a specifier lead from the package of the importing type to the imported one. -/
theorem walk?_specifier (source : TypeName) {destination : TypeName} {outermost : String}
    (slashless : destination.Slashless) (isStep : IsStep outermost) :
    walk? source.package (relativeSteps source.package destination.package ++ [outermost]) =
      some (destination.package ++ [outermost]) := by
  rw [walk?_relativeSteps slashless.package_isStep, walk?, if_neg isStep.notHere,
    if_neg isStep.notUp, walk?]

/-- A specifier written for a module leads from there to the module of the imported type. -/
theorem specifiedFile?_eq {source destination : TypeName} {sourceName outermost : String}
    {inner : List String} (sourceSlashless : source.Slashless)
    (sourceNoSlash : '/' ∉ sourceName.toList) (slashless : destination.Slashless)
    (names : destination.names = outermost :: inner) :
    specifiedFile? (Path.through (source.moduleSteps sourceName))
        (String.intercalate "/"
          (relativeSteps source.package destination.package ++ [outermost])) =
      some (Path.through (destination.moduleSteps outermost)) := by
  have outermostIsStep : IsStep outermost :=
    slashless.isStep (mem_segments_of_mem_names (names ▸ List.mem_cons_self))
  have relative : (relativeSteps source.package destination.package ++ [outermost]).head? =
        some "." ∨ (relativeSteps source.package destination.package ++ [outermost]).head? =
          some ".." := by
    rw [List.head?_append]
    exact (head?_relativeSteps source.package destination.package).imp
      (fun head => by rw [head, Option.some_or]) (fun head => by rw [head, Option.some_or])
  rw [specifiedFile?, splitOn_specifier source slashless outermostIsStep.noSlash, if_pos relative,
    moduleSteps, Path.directory_through (moduleSteps_isStep sourceSlashless sourceNoSlash),
    walk?_specifier source slashless outermostIsStep, Option.map_some, intercalate_concat_append]
  rfl

end TypeName

namespace WellFormed

variable {roots : List Declaration} {root other declaration : Declaration}

theorem moduleFile_eq_root (wellFormed : WellFormed roots) (member : root ∈ roots)
    (inside : declaration ∈ root.flatten) : declaration.type.moduleFile = root.type.moduleFile := by
  have rootItself := wellFormed.root_eq member root.self_mem_flatten
  rw [TypeName.moduleFile, TypeName.moduleFile, wellFormed.root_eq member inside, rootItself]

/-- Every top-level declaration has a module of its own. -/
theorem same_moduleFile_iff (wellFormed : WellFormed roots) (member : root ∈ roots)
    (otherMember : other ∈ roots) :
    root.type.moduleFile.same other.type.moduleFile = true ↔ root = other := by
  have declared := Declaration.mem_flattenAll_of_mem member
  have otherDeclared := Declaration.mem_flattenAll_of_mem otherMember
  obtain ⟨name, single⟩ := wellFormed.single_name member
  obtain ⟨otherName, otherSingle⟩ := wellFormed.single_name otherMember
  rw [TypeName.same_moduleFile_iff (wellFormed.type_isPlain declared).slashless
    (wellFormed.type_isPlain otherDeclared).slashless, TypeName.root_eq_self single,
    TypeName.root_eq_self otherSingle, TypeName.simpleName_eq single,
    TypeName.simpleName_eq otherSingle]
  constructor
  · rintro ⟨package, rfl⟩
    apply wellFormed.eq_of_type_eq declared otherDeclared
    exact TypeName.eq_of_spelled (wellFormed.spelled root declared)
      (wellFormed.spelled other otherDeclared) package (single.trans otherSingle.symm)
  · rintro rfl
    rw [single, List.singleton_inj] at otherSingle
    exact ⟨rfl, otherSingle⟩

/-- No top-level declaration has its module where the network client's is. -/
theorem same_clientFile_eq_false (wellFormed : WellFormed roots)
    (clientNameFree : ClientNameFree roots) {service : Service} (listed : .service service ∈ roots)
    (member : root ∈ roots) :
    (Service.clientFile service.type).same root.type.moduleFile = false := by
  have serviceSlashless : service.type.Slashless :=
    (wellFormed.type_isPlain (Declaration.mem_flattenAll_of_mem listed)).slashless
  have slashless := (wellFormed.type_isPlain (Declaration.mem_flattenAll_of_mem member)).slashless
  obtain ⟨name, single⟩ := wellFormed.single_name member
  rw [← Bool.not_eq_true, TypeName.same_clientFile_iff serviceSlashless slashless,
    TypeName.root_eq_self single, TypeName.simpleName_eq single]
  rintro ⟨-, rfl⟩
  exact clientNameFree root member single

end WellFormed

end Typescribe
