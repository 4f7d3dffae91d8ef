import Typescribe.Proofs.Generation.Accounting

/-!
# The first declaration counts

All that a run is told is one sequence of declarations: the timestamp, and then what each file
declares, every declaration followed by what is nested in it. The known types are the first
declarations of the sequence, whether or not the files could be taken, and a top-level declaration
is generated where it is the first of its type. Declarations are told apart by their places, so one
that repeats another word for word is still not generated again.
-/

namespace Typescribe

open TypeScript (Module)

/-- Whether the declaration at a place of a sequence is the first of its type. -/
def isFirstAt (all : List Declaration) (place : Nat) : Bool :=
  all[place]?.any fun declaration =>
    (all.take place).all fun earlier => earlier.type ≠ declaration.type

/-- The first declaration of each type, in order. -/
def firstDeclarations (all : List Declaration) : List Declaration :=
  ((List.range all.length).filter (isFirstAt all)).filterMap fun place => all[place]?

/-- All that schema files declare, behind the timestamp. -/
def declaredBy (files : List SchemaFile) : List Declaration :=
  KnownTypes.initial.declarations ++ files.flatMap SchemaFile.allTypes

/-- Top-level declarations with their places in a sequence in which each is followed by what is
nested in it. -/
def rootPlaces (start : Nat) : List Declaration → List (Declaration × Nat)
  | [] => []
  | root :: rest => (root, start) :: rootPlaces (start + root.flatten.length) rest

/-- The files that are generated for a top-level declaration. -/
def Declaration.files : Declaration → List Path
  | .service body => [body.type.moduleFile, Service.clientFile body.type]
  | root => [root.type.moduleFile]

theorem Declaration.moduleFile_mem_files (root : Declaration) :
    root.type.moduleFile ∈ root.files := by
  cases root <;> exact List.mem_cons_self

/-- What is recorded about where a top-level declaration is generated. -/
def Declaration.locations : Declaration → List (TypeName × Path)
  | .service _ => []
  | root => [(root.type, root.type.moduleFile)]

section

variable {before more : List Declaration} {place : Nat}

/-- What comes later plays no part in what is first. -/
theorem isFirstAt_append (within : place < before.length) (more : List Declaration) :
    isFirstAt (before ++ more) place = isFirstAt before place := by
  rw [isFirstAt, isFirstAt, List.getElem?_append_left within,
    List.take_append_of_le_length within.le]

theorem isFirstAt_length (before more : List Declaration) (declaration : Declaration) :
    isFirstAt (before ++ declaration :: more) before.length =
      before.all fun earlier => earlier.type ≠ declaration.type := by
  rw [isFirstAt, List.getElem?_append_right le_rfl, Nat.sub_self, List.take_left]
  rfl

theorem firstDeclarations_concat (before : List Declaration) (declaration : Declaration) :
    firstDeclarations (before ++ [declaration]) = firstDeclarations before ++
      if before.all fun earlier => earlier.type ≠ declaration.type then [declaration] else [] := by
  have earlier : ((List.range before.length).filter (isFirstAt (before ++ [declaration]))).filterMap
      (fun place => (before ++ [declaration])[place]?) = firstDeclarations before := by
    rw [firstDeclarations, List.filter_congr fun place within =>
      isFirstAt_append (List.mem_range.mp within) [declaration]]
    refine List.filterMap_congr fun place kept => ?_
    exact List.getElem?_append_left (List.mem_range.mp (List.mem_filter.mp kept).1)
  rw [firstDeclarations, List.length_append, List.length_singleton, List.range_succ,
    List.filter_append, List.filterMap_append, earlier, List.filter_singleton, isFirstAt_length]
  cases before.all fun earlier => earlier.type ≠ declaration.type with
  | true => simp
  | false => simp

/-- The first declarations are of the same types as all declarations. -/
theorem exists_mem_firstDeclarations_iff {type : TypeName} :
    (∃ declaration ∈ firstDeclarations before, declaration.type = type) ↔
      ∃ declaration ∈ before, declaration.type = type := by
  induction before using List.reverseRecOn with
  | nil => rfl
  | append_singleton before last ih =>
    rw [firstDeclarations_concat]
    simp only [List.mem_append, or_and_right, exists_or, ih, List.mem_singleton, exists_eq_left]
    refine or_congr_right' fun unknown => ?_
    split
    · simp
    next repeated =>
      have known : ∃ earlier ∈ before, earlier.type = last.type := by simpa using repeated
      obtain ⟨earlier, member, same⟩ := known
      simpa using fun isLast => unknown ⟨earlier, member, same.trans isLast⟩

namespace KnownTypes

theorem contains_firstDeclarations {type : TypeName} :
    contains ⟨firstDeclarations before⟩ type = !before.all fun earlier => earlier.type ≠ type := by
  rw [Bool.eq_iff_iff, contains_iff]
  simp [exists_mem_firstDeclarations_iff]

/-- Adding declarations to the first ones keeps the first ones. -/
theorem addAll_firstDeclarations (before more : List Declaration) :
    (addAll ⟨firstDeclarations before⟩ more).1 = ⟨firstDeclarations (before ++ more)⟩ := by
  induction more generalizing before with
  | nil => rw [addAll, List.append_nil]
  | cons declaration rest ih =>
    have added : add ⟨firstDeclarations before⟩ declaration =
        ⟨firstDeclarations (before ++ [declaration])⟩ := by
      rw [add, contains_firstDeclarations, firstDeclarations_concat]
      cases before.all fun earlier => earlier.type ≠ declaration.type with
      | true => rfl
      | false => simp
    rw [addAll, added]
    dsimp only
    rw [ih, List.append_assoc, List.singleton_append]

/-- Registering top-level declarations keeps the first declarations. The new ones among them are
those in whose places they are first. -/
theorem register_firstDeclarations (before roots : List Declaration) :
    let all := before ++ Declaration.flattenAll roots
    (register ⟨firstDeclarations before⟩ roots).known = ⟨firstDeclarations all⟩ ∧
      (register ⟨firstDeclarations before⟩ roots).newRoots =
        ((rootPlaces before.length roots).filter fun spot => isFirstAt all spot.2).map
          Prod.fst := by
  induction roots generalizing before with
  | nil => exact ⟨by rw [register, Declaration.flattenAll, List.append_nil], rfl⟩
  | cons root rest ih =>
    obtain ⟨known, newRoots⟩ := ih (before ++ root.flatten)
    obtain ⟨inner, parts⟩ := root.exists_flatten_eq
    have here : isFirstAt (before ++ Declaration.flattenAll (root :: rest)) before.length =
        !contains ⟨firstDeclarations before⟩ root.type := by
      rw [Declaration.flattenAll, parts, List.cons_append, isFirstAt_length,
        contains_firstDeclarations, Bool.not_not]
    rw [List.append_assoc, ← Declaration.flattenAll] at known newRoots
    rw [List.length_append] at newRoots
    rw [register]
    dsimp only
    rw [addAll_firstDeclarations]
    refine ⟨known, ?_⟩
    rw [newRoots, rootPlaces, List.filter_cons, here]
    cases contains ⟨firstDeclarations before⟩ root.type with
    | true => rfl
    | false => rfl

end KnownTypes

/-- What is first stays first when more is declared. -/
theorem firstDeclarations_prefix (before more : List Declaration) :
    firstDeclarations before <+: firstDeclarations (before ++ more) := by
  have appended := KnownTypes.declarations_addAll ⟨firstDeclarations before⟩ more
  rw [KnownTypes.addAll_firstDeclarations] at appended
  exact ⟨_, appended.symm⟩

/-- The place of a top-level declaration is where the sequence has it. -/
theorem getElem?_of_mem_rootPlaces {roots : List Declaration} {spot : Declaration × Nat}
    (member : spot ∈ rootPlaces before.length roots) :
    (before ++ Declaration.flattenAll roots)[spot.2]? = some spot.1 := by
  induction roots generalizing before with
  | nil => exact absurd member List.not_mem_nil
  | cons root rest ih =>
    rcases List.mem_cons.mp member with rfl | later
    · obtain ⟨inner, parts⟩ := root.exists_flatten_eq
      rw [Declaration.flattenAll, parts, List.getElem?_append_right le_rfl, Nat.sub_self]
      rfl
    · rw [← List.length_append] at later
      rw [Declaration.flattenAll, ← List.append_assoc]
      exact ih later

theorem map_rootPlaces (start : Nat) (roots : List Declaration) :
    (rootPlaces start roots).map Prod.fst = roots := by
  induction roots generalizing start with
  | nil => rfl
  | cons root rest ih => rw [rootPlaces, List.map_cons, ih]

theorem declaredBy_concat (files : List SchemaFile) (file : SchemaFile) :
    declaredBy (files ++ [file]) =
      declaredBy files ++ Declaration.flattenAll file.declarations := by
  rw [declaredBy, declaredBy, List.flatMap_append, List.flatMap_singleton, List.append_assoc]
  rfl

end

namespace References

variable {σ : Type} [Store σ]

/-- Only the files of patches change. -/
theorem of_mem_applyPatches {store after : σ} {patches : List Patch} {changed : List Path}
    (done : applyPatches store patches = (.ok changed, after)) {path : Path}
    (member : path ∈ changed) : ∃ patch ∈ patches, patch.path = path := by
  induction patches generalizing store changed after with
  | nil =>
    obtain rfl : [] = changed := Except.ok.inj (Prod.mk.inj done).1
    exact absurd member List.not_mem_nil
  | cons patch rest ih =>
    rw [applyPatches] at done
    split at done
    · cases (Prod.mk.inj done).1
    split at done
    · cases (Prod.mk.inj done).1
    next later =>
      obtain rfl := Except.ok.inj (Prod.mk.inj done).1
      split at member
      · rcases List.mem_cons.mp member with rfl | member
        · exact ⟨patch, List.mem_cons_self, rfl⟩
        · exact (ih later member).imp fun _ found => found.imp_left (List.mem_cons_of_mem patch)
      · exact (ih later member).imp fun _ found => found.imp_left (List.mem_cons_of_mem patch)

end References

/-- Top-level declarations in the order in which a run comes to them: services are last. -/
def visitOrder (spots : List (Declaration × Nat)) : List (Declaration × Nat) :=
  (spots.filter fun spot => !spot.1.isService) ++ spots.filter fun spot => spot.1.isService

theorem visitOrder_perm (spots : List (Declaration × Nat)) : (visitOrder spots).Perm spots :=
  List.perm_append_comm.trans (List.filter_append_perm (fun spot => spot.1.isService) spots)

/-- A file calls for the declarations that are first in their places. -/
theorem KnownTypes.map_root_calledFor (before : List Declaration) (file : SchemaFile) :
    let all := before ++ Declaration.flattenAll file.declarations
    (calledFor ⟨firstDeclarations before⟩ file).map Emission.root =
      ((visitOrder (rootPlaces before.length file.declarations)).filter fun spot =>
        isFirstAt all spot.2).map Prod.fst := by
  obtain ⟨-, newRoots⟩ := register_firstDeclarations before file.declarations
  rw [calledFor, List.map_map]
  dsimp only
  have kept (keeps : Declaration → Bool) :
      (register ⟨firstDeclarations before⟩ file.declarations).newRoots.filter keeps =
        (((rootPlaces before.length file.declarations).filter (keeps ∘ Prod.fst)).filter
          fun spot => isFirstAt (before ++ Declaration.flattenAll file.declarations) spot.2).map
            Prod.fst := by
    rw [newRoots, List.filter_map, List.filter_comm]
  rw [Session.map_services, SchemaFile.dataTypes, kept, kept, ← List.map_append,
    ← List.filter_append]
  exact List.map_id _

namespace Session

variable {σ : Type}

/-- The modules that are recorded are among the outputs. -/
def Located (session : Session σ) : Prop :=
  ∀ entry ∈ session.references.modules, Notes session.outputs entry.2

/-- Whatever a step comes to, it learns nothing and leaves the recorded modules among the outputs.
If it succeeds, it has entered the given paths and recorded the given modules. -/
structure Places (session : Session σ) (outcome : Outcome σ Unit) (paths : List Path)
    (modules : List (TypeName × Path)) : Prop where
  known : outcome.2.known = session.known
  located : outcome.2.Located
  outputs : outcome.1 = .ok () →
    outcome.2.outputs.map Prod.fst = Path.enterAll (session.outputs.map Prod.fst) paths
  modules : outcome.1 = .ok () →
    outcome.2.references.modules = modules.reverse ++ session.references.modules

variable {session : Session σ}

namespace Places

theorem refl (located : session.Located) : Places session (.ok (), session) [] [] :=
  ⟨rfl, located, fun _ => rfl, fun _ => rfl⟩

/-- A step that fails may have entered and recorded anything. -/
theorem of_error {reason : GenerationError} {after : Session σ} {paths : List Path}
    {modules : List (TypeName × Path)} (known : after.known = session.known)
    (located : after.Located) : Places session (.error reason, after) paths modules where
  known := known
  located := located
  outputs ok := by cases ok
  modules ok := by cases ok

theorem andThen {outcome : Outcome σ Unit} {next : Session σ → Outcome σ Unit}
    {paths morePaths : List Path} {modules moreModules : List (TypeName × Path)}
    (first : Places session outcome paths modules)
    (second : ∀ middle : Session σ, middle.Located →
      Places middle (next middle) morePaths moreModules) :
    Places session (Session.andThen outcome next) (paths ++ morePaths)
      (modules ++ moreModules) := by
  rcases outcome with ⟨reason | _, middle⟩
  · exact .of_error first.known first.located
  · have later := second middle first.located
    refine ⟨later.known.trans first.known, later.located, fun ok => ?_, fun ok => ?_⟩
    · rw [Path.enterAll_append, ← first.outputs rfl]
      exact later.outputs ok
    · rw [List.reverse_append, List.append_assoc, ← first.modules rfl]
      exact later.modules ok

end Places

namespace Located

variable [Store σ]

theorem write (located : session.Located) (path : Path) (item : Module) :
    Places session (session.write path item) [path] [] ∧
      ((session.write path item).1 = .ok () →
        Notes (session.write path item).2.outputs path) := by
  rw [Session.write]
  split
  · exact ⟨.of_error rfl located, by simp⟩
  · refine ⟨⟨rfl, fun entry listed => (located entry listed).noteOutput _ _, fun _ => ?_,
      fun _ => rfl⟩, fun _ => notes_noteOutput_self _ _ _⟩
    exact paths_noteOutput _ _ _

theorem emitType (located : session.Located) (root : Declaration) :
    Places session (session.emitType root) [root.type.moduleFile]
      [(root.type, root.type.moduleFile)] := by
  have recorded : Located { session with
      references := session.references.insertAll (session.known.placeholdersOf root.flatten) } := by
    rw [Located, References.modules_insertAll]
    exact located
  rw [Session.emitType]
  dsimp only
  cases session.known.typeModule root with
  | error reason => exact .of_error rfl recorded
  | ok item =>
    obtain ⟨places, noted⟩ := recorded.write root.type.moduleFile item
    dsimp only
    split
    next failed =>
      rw [failed] at places
      exact .of_error places.known places.located
    next written =>
      rw [written] at places noted
      refine ⟨places.known, fun entry listed => ?_, fun _ => places.outputs rfl, fun _ => ?_⟩
      · rcases List.mem_cons.mp listed with rfl | listed
        · dsimp only
          exact noted rfl
        · exact places.located entry listed
      · refine congrArg (List.cons _) ((places.modules rfl).trans ?_)
        exact References.modules_insertAll

theorem emitService (located : session.Located) (service : Service) :
    Places session (session.emitService service)
      [service.type.moduleFile, Service.clientFile service.type] [] := by
  rw [Session.emitService]
  cases session.known.serviceModule service with
  | error reason => exact .of_error rfl located
  | ok item =>
    have both := (located.write service.type.moduleFile item).1.andThen fun middle located =>
      (located.write (Service.clientFile service.type) Service.clientModule).1
    dsimp only
    rcases written : session.write service.type.moduleFile item with ⟨reason | _, middle⟩
    all_goals rw [written] at both
    · exact both
    · exact both

theorem emit (located : session.Located) (root : Declaration) :
    Places session (session.emit root) root.files root.locations := by
  cases root with
  | record head nested => exact located.emitType _
  | enumeration body => exact located.emitType _
  | service body => exact located.emitService body

theorem forEach_emit (located : session.Located) (roots : List Declaration) :
    Places session (session.forEach Session.emit roots) (roots.flatMap Declaration.files)
      (roots.flatMap Declaration.locations) := by
  induction roots generalizing session with
  | nil => exact .refl located
  | cons root rest ih => exact (located.emit root).andThen fun _ located => ih located

/-- Patching enters and records nothing. -/
theorem patch (located : session.Located) (newTypes : List Declaration) :
    Places session (session.patch newTypes) [] [] := by
  rw [Session.patch]
  split
  · exact .of_error rfl located
  next changed store resolved =>
    have entered : ∀ path ∈ changed, Notes session.outputs path := by
      intro path member
      rw [References.resolve] at resolved
      split at resolved
      · cases (Prod.mk.inj resolved).1
      next patches planned =>
        obtain ⟨patch, listed, rfl⟩ := References.of_mem_applyPatches resolved member
        obtain ⟨declaring, -, -, file⟩ := References.path_of_mem_plan planned listed
        exact located (declaring.root, patch.path) (References.mem_modules_of_module? file)
    obtain ⟨outputs, folded, same⟩ := foldl_note { session with store } entered
    rw [folded]
    refine ⟨rfl, fun entry listed => ?_, fun _ => same, fun _ => rfl⟩
    rw [Notes, same]
    exact located entry listed

end Located

/-- Steps for the elements of a list that are asked for are steps for the elements kept. -/
theorem forEach_filter {α : Type} (step : Session σ → α → Outcome σ Unit) (asked : α → Bool)
    (items : List α) (session : Session σ) :
    session.forEach step (items.filter asked) =
      session.forEach
        (fun session item => if asked item then step session item else (.ok (), session))
        items := by
  induction items generalizing session with
  | nil => rfl
  | cons item rest ih =>
    rw [forEach_cons, List.filter_cons]
    cases asked item with
    | false => exact ih session
    | true =>
      rw [if_pos rfl, if_pos rfl, forEach_cons]
      exact congrArg (Session.andThen _) (funext ih)

variable [Store σ]

/-- Comes to a top-level declaration in its place: generates it if it is the first of its type. -/
def visit (all : List Declaration) (session : Session σ) (spot : Declaration × Nat) :
    Outcome σ Unit :=
  if isFirstAt all spot.2 then session.emit spot.1 else (.ok (), session)

/-- Coming to places is generating the declarations that are first in theirs. -/
theorem forEach_visit (all : List Declaration) (spots : List (Declaration × Nat))
    (session : Session σ) :
    session.forEach (visit all) spots =
      session.forEach emit ((spots.filter fun spot => isFirstAt all spot.2).map Prod.fst) := by
  rw [forEach_map, forEach_filter]
  rfl

/-- Taking a file behind others is coming to its top-level declarations, and patching. -/
theorem processFile_visit {before : List Declaration}
    (known : session.known = ⟨firstDeclarations before⟩) (file : SchemaFile) :
    let all := before ++ Declaration.flattenAll file.declarations
    session.processFile file =
      Session.andThen (forEach (visit all) { session with known := ⟨firstDeclarations all⟩ }
          (visitOrder (rootPlaces before.length file.declarations)))
        fun after => after.patch
          ((firstDeclarations all).drop (firstDeclarations before).length) := by
  obtain ⟨registered, -⟩ := KnownTypes.register_firstDeclarations before file.declarations
  have grown := KnownTypes.declarations_register ⟨firstDeclarations before⟩ file.declarations
  rw [registered] at grown
  rw [processFile_emit]
  dsimp only at grown ⊢
  rw [known, registered, KnownTypes.map_root_calledFor, forEach_visit, grown, List.drop_left]

theorem Located.processFile {before : List Declaration} (located : session.Located)
    (known : session.known = ⟨firstDeclarations before⟩) (file : SchemaFile) :
    let all := before ++ Declaration.flattenAll file.declarations
    let generated := ((visitOrder (rootPlaces before.length file.declarations)).filter
      fun spot => isFirstAt all spot.2).map Prod.fst
    Places { session with known := ⟨firstDeclarations all⟩ } (session.processFile file)
      (generated.flatMap Declaration.files) (generated.flatMap Declaration.locations) := by
  have start : Located { session with
    known := ⟨firstDeclarations (before ++ Declaration.flattenAll file.declarations)⟩ } := located
  have emitted := start.forEach_emit (((visitOrder (rootPlaces before.length
    file.declarations)).filter fun spot =>
      isFirstAt (before ++ Declaration.flattenAll file.declarations) spot.2).map Prod.fst)
  rw [processFile_visit known]
  dsimp only
  rw [forEach_visit]
  have patched := emitted.andThen fun _ located => located.patch ((firstDeclarations
    (before ++ Declaration.flattenAll file.declarations)).drop (firstDeclarations before).length)
  rwa [List.append_nil, List.append_nil] at patched

/-- Whether or not files can be taken, the first declarations of all of them are known. -/
theorem Located.processEach {before : List Declaration} (located : session.Located)
    (known : session.known = ⟨firstDeclarations before⟩) (files : List SchemaFile) :
    (session.processEach files).2.Located ∧ (session.processEach files).2.known =
      ⟨firstDeclarations (before ++ files.flatMap SchemaFile.allTypes)⟩ := by
  induction files generalizing session before with
  | nil => exact ⟨located, by rw [List.flatMap_nil, List.append_nil]; exact known⟩
  | cons file rest ih =>
    have places := located.processFile known file
    rw [List.flatMap_cons, ← List.append_assoc]
    exact ih places.located places.known

end Session

/-- A nested declaration comes before a top-level one behind it, which is then never generated. -/
example :
    let egg : Declaration := .record { type := ⟨"dinos.Egg"⟩ } []
    let roots : List Declaration := [.record { type := ⟨"dinos.Nest"⟩ } [egg], egg]
    (rootPlaces 1 roots).map (fun spot =>
      (spot.2, isFirstAt (declaredBy [{ name := "nest", declarations := roots }]) spot.2)) =
        [(1, true), (3, false)] := by
  decide

end Typescribe
